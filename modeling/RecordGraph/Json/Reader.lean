import RecordGraph.Json.Basic
import RecordGraph.Number.Binary
import RecordGraph.Text.Digits
import RecordGraph.Text.Hex

/-!
# Reading JSON

A strict reader: one value, with nothing but blanks around it. Of members with one name the last
counts. Arrays and objects may be nested 127 deep. Every reader takes a text and gives the value
that it begins with and the text that follows.
-/

namespace RecordGraph.Json

/-! ### Blanks, digits and numbers -/

/-- The four blanks that may stand between tokens. -/
def isSpace (c : Char) : Bool := c == ' ' || c == '\n' || c == '\t' || c == '\r'

def skipSpace (s : List Char) : List Char := s.dropWhile isSpace

/-- A whole part: a zero alone or digits that begin with another one. -/
def wholePart (s : List Char) : Option (List Char × List Char) :=
  match s.takeWhile Char.isDigit with
  | [] => none
  | '0' :: _ :: _ => none
  | digits => some (digits, s.dropWhile Char.isDigit)

/-- A fraction: a dot and at least one digit; nothing is an empty fraction. -/
def fractionPart : List Char → Option (List Char × List Char)
  | '.' :: rest =>
    match rest.takeWhile Char.isDigit with
    | [] => none
    | digits => some (digits, rest.dropWhile Char.isDigit)
  | s => some ([], s)

/-- An exponent with an optional sign; nothing is no exponent. -/
def exponentPart (s : List Char) : Option (Option Int × List Char) :=
  match s with
  | c :: rest =>
    if c == 'e' || c == 'E' then
      let (negative, body) : Bool × List Char := match rest with
        | '-' :: r => (true, r)
        | '+' :: r => (false, r)
        | r => (false, r)
      match body.takeWhile Char.isDigit with
      | [] => none
      | digits =>
        let n : Int := Text.digitsValue digits
        some (some (if negative then -n else n), body.dropWhile Char.isDigit)
    else some (none, s)
  | [] => some (none, s)

/-- The double nearest to a decimal number; `none` past the largest one. -/
def real? (negative : Bool) (digits : Nat) (exponent : Int) : Option Json :=
  let clamped := if digits = 0 then 0 else max (-2000) (min 2000 exponent)
  let bits := Number.double.ofDecimal negative digits clamped
  if bits % Number.double.signBit = Number.double.infinity then none else some (.real bits)

/-- A number: an integer of 64 bits if it is written as one, else a double. -/
def readNumber (s : List Char) : Option (Json × List Char) := do
  let (negative, s) := match s with
    | '-' :: rest => (true, rest)
    | rest => (false, rest)
  let (whole, s) ← wholePart s
  let (fraction, s) ← fractionPart s
  let (exponent, s) ← exponentPart s
  let n := Text.digitsValue whole
  let small := if negative then 0 < n && n ≤ 0x8000000000000000 else n ≤ 0xffffffffffffffff
  if fraction.isEmpty && exponent.isNone && small then
    return (.integer (if negative then -(n : Int) else n), s)
  else
    let value ← real? negative (Text.digitsValue (whole ++ fraction))
      (exponent.getD 0 - fraction.length)
    return (value, s)

/-! ### Strings -/

def readUnit : List Char → Option (Nat × List Char)
  | a :: b :: c :: d :: rest => (Text.readHex [a, b, c, d]).map (·, rest)
  | _ => none

/-- The character of an escape after `\u`; a high surrogate needs the low one after it. -/
def readCodePoint (s : List Char) : Option (Char × List Char) := do
  let (unit, rest) ← readUnit s
  if 0xD800 ≤ unit && unit < 0xDC00 then
    match rest with
    | '\\' :: 'u' :: rest =>
      let (low, rest) ← readUnit rest
      if 0xDC00 ≤ low && low < 0xE000 then
        return (Char.ofNat (0x10000 + (unit - 0xD800) * 0x400 + (low - 0xDC00)), rest)
      else none
    | _ => none
  else if 0xDC00 ≤ unit && unit < 0xE000 then none
  else return (Char.ofNat unit, rest)

/-- The character that a one-letter escape stands for. -/
def escapeChar? (c : Char) : Option Char :=
  if c == '"' || c == '\\' || c == '/' then some c
  else if c == 'b' then some '\x08'
  else if c == 'f' then some '\x0c'
  else if c == 'n' then some '\n'
  else if c == 'r' then some '\r'
  else if c == 't' then some '\t'
  else none

/-- The rest of a string, after its opening quote. `fuel` bounds the number of characters. -/
def readChars : Nat → List Char → Option (List Char × List Char)
  | 0, _ => none
  | fuel + 1, s =>
    match s with
    | [] => none
    | '"' :: rest => some ([], rest)
    | '\\' :: 'u' :: rest => do
      let (c, rest) ← readCodePoint rest
      let (cs, rest) ← readChars fuel rest
      return (c :: cs, rest)
    | '\\' :: e :: rest => do
      let c ← escapeChar? e
      let (cs, rest) ← readChars fuel rest
      return (c :: cs, rest)
    | c :: rest =>
      if c == '\\' || c.toNat < 0x20 then none
      else do
        let (cs, rest) ← readChars fuel rest
        return (c :: cs, rest)

def readText (s : List Char) : Option (String × List Char) :=
  (readChars (s.length + 1) s).map fun p => (String.ofList p.1, p.2)

/-! ### Values -/

mutual

/-- A value. `fuel` bounds the number of tokens and `depth` the nesting. -/
def readValue (fuel depth : Nat) (s : List Char) : Option (Json × List Char) :=
  match fuel with
  | 0 => none
  | fuel + 1 =>
    match skipSpace s with
    | 'n' :: 'u' :: 'l' :: 'l' :: rest => some (.null, rest)
    | 't' :: 'r' :: 'u' :: 'e' :: rest => some (.bool true, rest)
    | 'f' :: 'a' :: 'l' :: 's' :: 'e' :: rest => some (.bool false, rest)
    | '"' :: rest => (readText rest).map fun p => (.text p.1, p.2)
    | '[' :: rest =>
      if depth = 0 then none
      else match skipSpace rest with
        | ']' :: rest => some (.array [], rest)
        | rest => (readItems fuel (depth - 1) rest).map fun p => (.array p.1, p.2)
    | '{' :: rest =>
      if depth = 0 then none
      else match skipSpace rest with
        | '}' :: rest => some (.object [], rest)
        | rest => (readMembers fuel (depth - 1) [] rest).map fun p => (.object p.1, p.2)
    | s => readNumber s

/-- The items of an array that is not empty, up to and with its closing bracket. -/
def readItems (fuel depth : Nat) (s : List Char) : Option (List Json × List Char) :=
  match fuel with
  | 0 => none
  | fuel + 1 => do
    let (value, rest) ← readValue fuel depth s
    match skipSpace rest with
    | ',' :: rest => do
      let (values, rest) ← readItems fuel depth rest
      return (value :: values, rest)
    | ']' :: rest => return ([value], rest)
    | _ => none

/-- The members of an object that is not empty, added to those read before. -/
def readMembers (fuel depth : Nat) (members : List (String × Json)) (s : List Char) :
    Option (List (String × Json) × List Char) :=
  match fuel with
  | 0 => none
  | fuel + 1 =>
    match skipSpace s with
    | '"' :: rest => do
      let (name, rest) ← readText rest
      match skipSpace rest with
      | ':' :: rest => do
        let (value, rest) ← readValue fuel depth rest
        let members := insertMember name value members
        match skipSpace rest with
        | ',' :: rest => readMembers fuel depth members rest
        | '}' :: rest => return (members, rest)
        | _ => none
      | _ => none
    | _ => none

end

def read? (s : String) : Option Json :=
  let cs := s.toList
  match readValue (2 * cs.length + 2) 127 cs with
  | some (value, rest) => if (skipSpace rest).isEmpty then some value else none
  | none => none

end RecordGraph.Json
