/-!
# Pieces of a text

Cutting a list at separators. `pieces` keeps every piece, also empty ones, so that a list without
a separator is one piece; `cut` stops at the first separator.
-/

namespace RecordGraph.Text

variable {α : Type}

/-- The pieces between the elements that satisfy `sep`, in order. -/
def pieces (sep : α → Bool) : List α → List (List α)
  | [] => [[]]
  | a :: rest =>
    if sep a then [] :: pieces sep rest
    else match pieces sep rest with
      | [] => [[a]]
      | p :: ps => (a :: p) :: ps

theorem pieces_ne_nil (sep : α → Bool) (s : List α) : pieces sep s ≠ [] := by
  cases s with
  | nil => simp [pieces]
  | cons a rest =>
    simp only [pieces]
    split
    · simp
    · split <;> simp

/-- What stands before and after the first element that satisfies `sep`. -/
def cut (sep : α → Bool) : List α → Option (List α × List α)
  | [] => none
  | a :: rest =>
    if sep a then some ([], rest)
    else (cut sep rest).map fun p => (a :: p.1, p.2)

/-- The text from the first place where it begins with `word`, without that word. -/
def after? [BEq α] (word : List α) : List α → Option (List α)
  | [] => if word.isEmpty then some [] else none
  | a :: rest =>
    if word.isPrefixOf (a :: rest) then some ((a :: rest).drop word.length)
    else after? word rest

def occurs [BEq α] (word : List α) : List α → Bool
  | [] => word.isEmpty
  | a :: rest => word.isPrefixOf (a :: rest) || occurs word rest

/-- The dot-separated segments of a path; a path without a dot is one segment. -/
def segments (path : String) : List String :=
  (pieces (· == '.') path.toList).map String.ofList

def joinDots (segs : List String) : String := ".".intercalate segs

/-- The part of a name after its last dot. -/
def bareName (name : String) : String :=
  match (segments name).getLast? with
  | some s => s
  | none => name

end RecordGraph.Text
