import RecordGraph.Text.Alphabetic
import RecordGraph.Text.Cased
import RecordGraph.Text.Pieces

/-!
# Words of a name

A name is cut into words at every character that is neither letter nor number, and inside such a
piece where the case shows a new word: before a capital that follows a small letter, and before
the last capital of a run when a small letter follows it. Numbers never begin a word.
-/

namespace RecordGraph.Text

/-- The case of the letters read so far in the current word. -/
inductive CaseMode where
  | start
  | lower
  | upper
  deriving DecidableEq, Repr

/-- The mode after a character that does not end a word. -/
def CaseMode.next (mode : CaseMode) (c : Char) : CaseMode :=
  if isLowercase c then .lower else if isUppercase c then .upper else mode

/-- Words of a piece without separators. `word` holds the current word, last character first. -/
def caseWords (mode : CaseMode) (word : List Char) : List Char → List (List Char)
  | [] => if word.isEmpty then [] else [word.reverse]
  | [c] => [(c :: word).reverse]
  | c :: d :: rest =>
    if mode.next c = .lower && isUppercase d then
      (c :: word).reverse :: caseWords .start [] (d :: rest)
    else if mode = .upper && isUppercase c && isLowercase d then
      word.reverse :: caseWords .start [c] (d :: rest)
    else
      caseWords (mode.next c) (c :: word) (d :: rest)

def words (s : List Char) : List (List Char) :=
  ((pieces (fun c => !isAlphanumeric c) s).filter (!·.isEmpty)).flatMap (caseWords .start [])

/-- The words of a name in small letters, joined by underscores. -/
def snakeCase (s : String) : String :=
  String.ofList (List.intercalate ['_'] ((words s.toList).map lowerWord))

end RecordGraph.Text
