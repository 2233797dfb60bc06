import RecordGraph.Calendar
import RecordGraph.Config.Setting
import RecordGraph.Text.Hex

/-!
# Scalars of a document

Texts, numbers, truth values, days and times as a document writes them. Every reader takes a text
and gives what it begins with and the text that follows.
-/

namespace RecordGraph.Toml

/-! ### Characters and lines -/

/-- Any character but the control characters; a tab is no control character here. -/
def isPlain (c : Char) : Bool := c == '\t' || (0x20 ≤ c.toNat && c.toNat ≠ 0x7f)

def skipBlanks (s : List Char) : List Char := s.dropWhile fun c => c == ' ' || c == '\t'

def newline? : List Char → Option (List Char)
  | '\n' :: rest => some rest
  | '\r' :: '\n' :: rest => some rest
  | _ => none

/-! ### Texts -/

/-- A character given by its code point with a fixed number of hexadecimal digits. -/
def codePoint (width : Nat) (s : List Char) : Option (Char × List Char) := do
  guard (width ≤ s.length)
  let n ← Text.readHex (s.take width)
  guard (Nat.isValidChar n)
  return (Char.ofNat n, s.drop width)

/-- The character of an escape, after the backslash. -/
def escape : List Char → Option (Char × List Char)
  | 'b' :: rest => some ('\x08', rest)
  | 't' :: rest => some ('\t', rest)
  | 'n' :: rest => some ('\n', rest)
  | 'f' :: rest => some ('\x0c', rest)
  | 'r' :: rest => some ('\r', rest)
  | '"' :: rest => some ('"', rest)
  | '\\' :: rest => some ('\\', rest)
  | 'u' :: rest => codePoint 4 rest
  | 'U' :: rest => codePoint 8 rest
  | _ => none

/-- The text behind blanks and ends of lines. -/
def skipBlankLines : List Char → List Char
  | '\r' :: '\n' :: rest => skipBlankLines rest
  | c :: rest => if c = ' ' ∨ c = '\t' ∨ c = '\n' then skipBlankLines rest else c :: rest
  | [] => []

/-- The text behind a line that is continued: blanks, the end of the line, and all blanks and ends
of lines that follow. -/
def continued? (s : List Char) : Option (List Char) :=
  (newline? (skipBlanks s)).map skipBlankLines

/-- The characters of a text up to and with its closing quotes. Only double quotes know escapes,
only three quotes hold the ends of lines, and up to two quotes may stand before the closing three.
`fuel` bounds the number of characters. -/
def characters (quote : Char) (long : Bool) : Nat → List Char → Option (List Char × List Char)
  | 0, _ => none
  | _, [] => none
  | fuel + 1, c :: rest =>
    let continueWith (c : Char) (rest : List Char) :=
      (characters quote long fuel rest).map fun p => (c :: p.1, p.2)
    if c = quote then
      if !long then some ([], rest)
      else if [quote, quote].isPrefixOf rest then
        let after := rest.drop 2
        let extra := (after.take 2).takeWhile (· == quote)
        some (extra, after.drop extra.length)
      else continueWith c rest
    else if c = '\\' ∧ quote = '"' then
      match if long then continued? rest else none with
      | some after => characters quote long fuel after
      | none =>
        match escape rest with
        | some (e, after) => continueWith e after
        | none => none
    else
      match newline? (c :: rest) with
      | some after => if long then continueWith '\n' after else none
      | none => if isPlain c then continueWith c rest else none

def shortText (quote : Char) (s : List Char) : Option (String × List Char) :=
  (characters quote false (s.length + 1) s).map fun p => (String.ofList p.1, p.2)

/-- A text between quotes of either kind. Three quotes open a text of several lines, of which a
line end at its beginning is no part. -/
def text (s : List Char) : Option (String × List Char) :=
  match s with
  | [] => none
  | quote :: rest =>
    if quote ≠ '"' ∧ quote ≠ '\'' then none
    else if [quote, quote].isPrefixOf rest then
      let body := rest.drop 2
      let body := (newline? body).getD body
      (characters quote true (body.length + 1) body).map fun p => (String.ofList p.1, p.2)
    else shortText quote rest

/-! ### Numbers -/

/-- Digits, between which single underscores may stand. -/
def digitRun (isDigit : Char → Bool) : List Char → Option (List Char × List Char)
  | [] => none
  | c :: '_' :: rest =>
    if isDigit c then (digitRun isDigit rest).map fun p => (c :: p.1, p.2) else none
  | c :: rest =>
    if isDigit c then
      match digitRun isDigit rest with
      | some (digits, rest) => some (c :: digits, rest)
      | none => some ([c], rest)
    else none

/-- The number written by digits of a base of at most 16. -/
def basedValue (base : Nat) (digits : List Char) : Option Nat :=
  digits.foldlM (fun n c => (Text.hexValue? c).map (base * n + ·)) 0

/-- A whole number; it has to fit into 64 bits with a sign. -/
def integer? (n : Int) : Option Setting :=
  if -0x8000000000000000 ≤ n ∧ n ≤ 0x7fffffffffffffff then some (.integer n) else none

/-- A whole number of another base, after its mark. -/
def based (base : Nat) (s : List Char) : Option (Setting × List Char) := do
  let isDigit (c : Char) := match Text.hexValue? c with
    | some n => n < base
    | none => false
  let (digits, rest) ← digitRun isDigit s
  let n ← basedValue base digits
  let setting ← integer? n
  return (setting, rest)

def sign : List Char → Bool × List Char
  | '-' :: rest => (true, rest)
  | '+' :: rest => (false, rest)
  | s => (false, s)

/-- The digits of a fraction, after the whole part; nothing is no fraction. -/
def fraction : List Char → Option (Option (List Char) × List Char)
  | '.' :: rest => (digitRun Char.isDigit rest).map fun p => (some p.1, p.2)
  | s => some (none, s)

/-- An exponent of ten; nothing is no exponent. -/
def exponent : List Char → Option (Option Int × List Char)
  | [] => some (none, [])
  | c :: rest =>
    if c = 'e' ∨ c = 'E' then
      let (negative, body) := sign rest
      (digitRun Char.isDigit body).map fun p =>
        let n : Int := Text.digitsValue p.1
        (some (if negative then -n else n), p.2)
    else some (none, c :: rest)

/-- The double nearest to a number given by its digits and an exponent of ten. Past the largest
double a negative number is the negative infinity, and a positive one is refused. -/
def real? (negative : Bool) (digits : List Char) (exponent : Int) : Option Setting :=
  let value := Text.digitsValue digits
  let least : Int := -400 - digits.length
  let clamped := if value = 0 then 0 else max least (min 400 exponent)
  let bits := Number.double.ofDecimal negative value clamped
  if bits = Number.double.infinity then none else some (.real bits)

/-- A decimal number. It is whole without a fraction and an exponent. -/
def decimal (s : List Char) : Option (Setting × List Char) := do
  let (negative, s) := sign s
  let (whole, s) ← digitRun Char.isDigit s
  guard (whole.length = 1 || whole.head? ≠ some '0')
  let (places, s) ← fraction s
  let (power, s) ← exponent s
  let n : Int := Text.digitsValue whole
  let setting ← if places.isNone && power.isNone then integer? (if negative then -n else n)
    else
      let places := places.getD []
      real? negative (whole ++ places) (power.getD 0 - places.length)
  return (setting, s)

def number (s : List Char) : Option (Setting × List Char) :=
  match s with
  | '0' :: 'x' :: rest => based 16 rest
  | '0' :: 'o' :: rest => based 8 rest
  | '0' :: 'b' :: rest => based 2 rest
  | s =>
    let (negative, body) := sign s
    match body with
    | 'i' :: 'n' :: 'f' :: rest =>
      some (.real (Number.double.infinity + if negative then Number.double.signBit else 0), rest)
    | 'n' :: 'a' :: 'n' :: rest => some (.real Number.double.quietNaN, rest)
    | _ => decimal s

/-! ### Days and times -/

def day (s : List Char) : Option (Date × List Char) := do
  let (year, s) ← Calendar.number 4 4 s
  let s ← Calendar.literal '-' s
  let (month, s) ← Calendar.number 2 2 s
  let s ← Calendar.literal '-' s
  let (day, s) ← Calendar.number 2 2 s
  let date : Date := ⟨year, month, day⟩
  if date.isValid then return (date, s) else none

/-- A time of day with nanoseconds, written again. -/
def clock (s : List Char) : Option (String × List Char) := do
  let (hour, s) ← Calendar.number 2 2 s
  let s ← Calendar.literal ':' s
  let (minute, s) ← Calendar.number 2 2 s
  let s ← Calendar.literal ':' s
  let (second, s) ← Calendar.number 2 2 s
  let (nanos, s) ← Calendar.fraction s
  guard (hour < 24 && minute < 60 && second ≤ 60)
  let places := ((paddedNat 9 nanos).toList.reverse.dropWhile (· == '0')).reverse
  let part := if nanos = 0 then "" else "." ++ String.ofList places
  return ((TimeOfDay.mk hour minute second).text ++ part, s)

/-- An offset from universal time, written again; nothing is no offset. -/
def offset (s : List Char) : Option (String × List Char) :=
  match s with
  | 'Z' :: rest => some ("Z", rest)
  | 'z' :: rest => some ("Z", rest)
  | c :: rest =>
    if c = '+' ∨ c = '-' then do
      let (hours, rest) ← Calendar.number 2 2 rest
      let rest ← Calendar.literal ':' rest
      let (minutes, rest) ← Calendar.number 2 2 rest
      guard (hours < 24 && minutes < 60)
      let mark := if c = '-' ∧ hours + minutes ≠ 0 then "-" else "+"
      return (mark ++ paddedNat 2 hours ++ ":" ++ paddedNat 2 minutes, rest)
    else some ("", s)
  | [] => some ("", [])

/-- A day, a time of day, or both with an offset; its setting is its text. -/
def moment (s : List Char) : Option (Setting × List Char) :=
  match day s with
  | none => (clock s).map fun p => (.text p.1, p.2)
  | some (date, rest) =>
    let both : Option (Setting × List Char) := match rest with
      | c :: after =>
        if c = 'T' ∨ c = 't' ∨ c = ' ' then do
          let (time, after) ← clock after
          let (mark, after) ← offset after
          return (.text (date.text ++ "T" ++ time ++ mark), after)
        else none
      | [] => none
    some (both.getD (.text date.text, rest))

/-- Any setting without parts. -/
def scalar (s : List Char) : Option (Setting × List Char) :=
  match s with
  | 't' :: 'r' :: 'u' :: 'e' :: rest => some (.bool true, rest)
  | 'f' :: 'a' :: 'l' :: 's' :: 'e' :: rest => some (.bool false, rest)
  | s =>
    match text s with
    | some (t, rest) => some (.text t, rest)
    | none =>
      match moment s with
      | some r => some r
      | none => number s

end RecordGraph.Toml
