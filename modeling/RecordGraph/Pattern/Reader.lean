import RecordGraph.Pattern.Class
import RecordGraph.Pattern.Size
import RecordGraph.Text.Digits

/-!
# Reading patterns

A pattern is written in the notation of regular expressions. It is refused if it is not well-formed:
a group or a set is left open, a group is closed that was not opened, a repetition has nothing to
repeat or bounds out of order, an escape or a name is unknown, a set stands for what is no
character. A well-formed pattern is refused too if it is nested too deep or its automaton is too
large.
-/

namespace RecordGraph.Pattern

/-! ### Modes -/

/-- The mode with one of its switches, called by its letter, set. The letter `U` turns around which
of several parts is preferred, on which nothing depends here. -/
def Mode.set? (m : Mode) (letter : Char) (on : Bool) : Option Mode :=
  match letter with
  | 'i' => some { m with ignoreCase := on }
  | 'm' => some { m with multiLine := on }
  | 's' => some { m with dotAll := on }
  | 'R' => some { m with carriageReturn := on }
  | 'u' => some { m with unicode := on }
  | 'x' => some { m with spaced := on }
  | 'U' => some m
  | _ => none

/-- Letters of modes up to a colon or a closing parenthesis, which is left in the text. A hyphen
turns the letters behind it off. No sign stands twice, and a letter follows the hyphen. `seen` holds
the signs read so far, the last one first. -/
def modeLetters (m : Mode) (seen : List Char) : List Char → Option (Mode × List Char × List Char)
  | [] => none
  | c :: rest =>
    if c = ':' ∨ c = ')' then
      if seen.head? = some '-' then none else some (m, seen, c :: rest)
    else if seen.contains c then none
    else if c = '-' then modeLetters m ('-' :: seen) rest
    else match m.set? c (!seen.contains '-') with
      | some m => modeLetters m (c :: seen) rest
      | none => none

/-! ### Groups -/

/-- What an opening parenthesis begins. -/
inductive Opening where
  /-- A change of modes up to the end of the group around it. -/
  | switch (m : Mode)
  /-- A group with modes of its own, and its name if it has one. -/
  | group (captured : Bool) (name : Option String) (m : Mode)

/-- Whether a text is the name of a group. -/
def isGroupName : List Char → Bool
  | [] => false
  | c :: rest =>
    (c = '_' || Text.isAlphabetic c)
      && rest.all fun c => ['_', '.', '[', ']'].contains c || Text.isAlphanumeric c

def namedOpening (m : Mode) (names : List String) (s : List Char) :
    Option (Opening × List Char) := do
  let (name, rest) ← Text.cut (· == '>') s
  guard (isGroupName name && !names.contains (String.ofList name))
  return (.group true (some (String.ofList name)) m, rest)

/-- What begins behind an opening parenthesis. Conditions on what stands around are not known. -/
def opening (m : Mode) (names : List String) (s : List Char) : Option (Opening × List Char) :=
  match m.skip s with
  | '?' :: '=' :: _ => none
  | '?' :: '!' :: _ => none
  | '?' :: '<' :: '=' :: _ => none
  | '?' :: '<' :: '!' :: _ => none
  | '?' :: 'P' :: '<' :: rest => namedOpening m names rest
  | '?' :: '<' :: rest => namedOpening m names rest
  | '?' :: rest =>
    match modeLetters m [] rest with
    | some (m, _, ':' :: rest) => some (.group false none m, rest)
    | some (m, seen, ')' :: rest) => if seen.isEmpty then none else some (.switch m, rest)
    | _ => none
  | rest => some (.group true none m, rest)

/-! ### Repetitions -/

/-- Decimal digits. `fuel` bounds their number. -/
def digitsLoose (m : Mode) : Nat → List Char → List Char × List Char
  | fuel + 1, c :: rest =>
    if c.isDigit then
      let (digits, rest) := digitsLoose m fuel (m.skip rest)
      (c :: digits, rest)
    else ([], c :: rest)
  | _, s => ([], s)

/-- A bound of a repetition, with blanks around it; it has to fit into 32 bits. -/
def bound (m : Mode) (s : List Char) : Option (Nat × List Char) :=
  let s := s.dropWhile Text.isBlank
  let (digits, rest) := digitsLoose m s.length s
  let n := Text.digitsValue digits
  if digits.isEmpty || 0xffffffff < n then none
  else some (n, m.skip (rest.dropWhile Text.isBlank))

/-- The bounds of a repetition behind the opening brace, up to and with the closing one. -/
def bounds (m : Mode) (s : List Char) : Option ((Nat × Option Nat) × List Char) := do
  let (least, s) ← bound m (m.skip s)
  match s with
  | '\x7d' :: rest => return ((least, some least), m.skip rest)
  | ',' :: rest =>
    match m.skip rest with
    | '\x7d' :: rest => return ((least, none), m.skip rest)
    | rest =>
      let (most, rest) ← bound m rest
      match rest with
      | '\x7d' :: rest => if least ≤ most then return ((least, some most), m.skip rest) else none
      | _ => none
  | _ => none

def skipLazy : List Char → List Char
  | '?' :: rest => rest
  | s => s

/-- Repeats the part that was read last. Parts are held in reverse. -/
def repeatLast (least : Nat) (most : Option Nat) : List Pattern → Option (List Pattern)
  | [] => none
  | switch :: _ => none
  | p :: parts => some (repeated p least most :: parts)

/-! ### Single characters -/

/-- The dot: every character but the end of a line. Outside of Unicode it would stand for what is no
character. -/
def dot? (m : Mode) : Option Charset :=
  if !m.unicode then none
  else if m.dotAll then some .all
  else if m.carriageReturn then some (Charset.complement ⟨[(10, 10), (13, 13)]⟩)
  else some (Charset.complement ⟨[(10, 10)]⟩)

/-- What is no group, set or repetition. -/
def atom (m : Mode) (s : List Char) : Option (Pattern × List Char) :=
  match s with
  | [] => none
  | '\\' :: rest =>
    match escape m rest with
    | some (.literal c, rest) => some (chars 0 (m.fold (.singleton c)), rest)
    | some (.set s, rest) => some (chars 0 s, rest)
    | some (.place p, rest) => some (place p, rest)
    | none => none
  | '.' :: rest => (dot? m).map fun s => (chars 0 s, rest)
  | '^' :: rest =>
    some (place (if m.multiLine then .lineStart m.carriageReturn else .textStart), rest)
  | '$' :: rest => some (place (if m.multiLine then .lineEnd m.carriageReturn else .textEnd), rest)
  | c :: rest => some (chars 0 (m.fold (.singleton c)), rest)

/-! ### Patterns -/

/-- A part under construction. The parts of the current branch and the branches before it are held
in reverse. -/
structure Draft where
  parts : List Pattern
  branches : List Pattern

namespace Draft

def push (d : Draft) (p : Pattern) : Draft := { d with parts := p :: d.parts }

def branch (d : Draft) : Draft := ⟨[], ofParts d.parts.reverse :: d.branches⟩

def finish (d : Draft) : Pattern :=
  if d.branches.isEmpty then ofParts d.parts.reverse else choice d.branch.branches.reverse

def again (d : Draft) (least : Nat) (most : Option Nat) : Option Draft :=
  (repeatLast least most d.parts).map fun parts => { d with parts }

end Draft

/-- Reads on to the end of the text or to a parenthesis that closes a group, which is left in the
text. `names` are the groups named so far. `fuel` bounds the number of parts. -/
def body : Nat → Mode → List String → Draft → List Char →
    Option (Pattern × List String × List Char)
  | 0, _, _, _, _ => none
  | fuel + 1, m, names, d, s =>
    match m.skip s with
    | [] => some (d.finish, names, [])
    | ')' :: rest => some (d.finish, names, ')' :: rest)
    | '|' :: rest => body fuel m names d.branch rest
    | '(' :: rest =>
      match opening m names rest with
      | none => none
      | some (.switch m, rest) => body fuel m names (d.push switch) rest
      | some (.group captured name inner, rest) =>
        match body fuel inner (name.toList ++ names) ⟨[], []⟩ rest with
        | some (p, names, ')' :: rest) => body fuel m names (d.push (group captured p)) rest
        | _ => none
    | '[' :: rest =>
      match charClass m rest with
      | some (set, depth, rest) => body fuel m names (d.push (chars depth set)) rest
      | none => none
    | '?' :: rest => (d.again 0 (some 1)).bind fun d => body fuel m names d (skipLazy rest)
    | '*' :: rest => (d.again 0 none).bind fun d => body fuel m names d (skipLazy rest)
    | '+' :: rest => (d.again 1 none).bind fun d => body fuel m names d (skipLazy rest)
    | '\x7b' :: rest =>
      match bounds m rest with
      | some ((least, most), rest) =>
        (d.again least most).bind fun d => body fuel m names d (skipLazy rest)
      | none => none
    | s =>
      match atom m s with
      | some (p, rest) => body fuel m names (d.push p) rest
      | none => none

def read? (s : String) : Option Pattern :=
  match body (s.toList.length + 1) .standard [] ⟨[], []⟩ s.toList with
  | some (p, _, []) => if p.isSmall then some p else none
  | _ => none

end RecordGraph.Pattern
