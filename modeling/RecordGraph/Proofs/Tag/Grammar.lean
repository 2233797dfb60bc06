import Mathlib.Data.List.TakeWhile
import RecordGraph.Proofs.Text.Segments
import RecordGraph.Tag.Annotation

/-!
# The grammar of annotations

An annotation is read as far as it is a sequence of pairs. `Begins` says what these sequences are
without reading: blanks, a name, a colon, and a body between quotes in which a backslash takes the
character after it. The reader gives the pairs of the longest such beginning, so looking up a name
finds the body of the first pair of that name, and finds nothing where no beginning ends with one.
-/

namespace RecordGraph.Annotation

open Text

/-! ### The grammar -/

/-- The text of a body between its quotes, and what the body says. -/
inductive BodyText : List Char → List Char → Prop where
  | nil : BodyText [] []
  | plain {c : Char} {text body : List Char} (hslash : c ≠ '\\') (hquote : c ≠ '"')
      (h : BodyText text body) : BodyText (c :: text) (c :: body)
  | escaped (c : Char) {text body : List Char} (h : BodyText text body) :
      BodyText ('\\' :: c :: text) (c :: body)

/-- The name is not empty and holds no colon, blank or quote. -/
structure IsName (name : List Char) : Prop where
  ne_nil : name ≠ []
  not_colon : ∀ c ∈ name, c ≠ ':'
  not_blank : ∀ c ∈ name, isBlank c = false
  not_quote : ∀ c ∈ name, c ≠ '"'

/-- The text of a pair with the blanks before it, and the name and the body of the pair. -/
inductive PairText : List Char → List Char × List Char → Prop where
  | mk {blanks name text body : List Char} (hblanks : ∀ c ∈ blanks, isBlank c = true)
      (hname : IsName name) (hbody : BodyText text body) :
      PairText (blanks ++ (name ++ ':' :: '"' :: (text ++ ['"']))) (name, body)

/-- The text begins with the pairs, and the last argument is what follows them. -/
inductive Begins : List Char → List (List Char × List Char) → List Char → Prop where
  | nil (rest : List Char) : Begins rest [] rest
  | cons {text s rest : List Char} {p : List Char × List Char} {ps : List (List Char × List Char)}
      (hp : PairText text p) (h : Begins s ps rest) : Begins (text ++ s) (p :: ps) rest

/-- The annotation begins with pairs of which the last one is the first of the name. -/
def Finds (raw name body : String) : Prop :=
  ∃ ps rest, Begins raw.toList (ps ++ [(name.toList, body.toList)]) rest ∧
    ∀ p ∈ ps, p.1 ≠ name.toList

/-! ### Reading one pair -/

theorem readBody_eq_some_iff {s body rest : List Char} :
    readBody s = some (body, rest) ↔ ∃ text, BodyText text body ∧ s = text ++ '"' :: rest := by
  constructor
  · intro h
    fun_induction readBody s generalizing body with
    | case1 => cases h
    | case2 r =>
      cases h
      exact ⟨[], .nil, rfl⟩
    | case3 c r ih =>
      obtain ⟨⟨b, t⟩, hr, he⟩ := Option.map_eq_some_iff.mp h
      cases he
      obtain ⟨text, hbody, rfl⟩ := ih hr
      exact ⟨'\\' :: c :: text, .escaped c hbody, rfl⟩
    | case4 => cases h
    | case5 c r hquote hpair hslash ih =>
      obtain ⟨⟨b, t⟩, hr, he⟩ := Option.map_eq_some_iff.mp h
      cases he
      obtain ⟨text, hbody, rfl⟩ := ih hr
      refine ⟨c :: text, .plain (fun hc => ?_) hquote hbody, rfl⟩
      cases text with
      | nil => exact hpair '"' t hc rfl
      | cons x text => exact hpair x (text ++ '"' :: t) hc rfl
  · rintro ⟨text, h, rfl⟩
    induction h with
    | nil => rfl
    | @plain c text body hslash hquote _ ih =>
      rw [List.cons_append, readBody.eq_5 c (text ++ '"' :: rest) hquote (fun _ _ hc _ => hslash hc)
        (fun hc _ => hslash hc), ih]
      rfl
    | escaped c _ ih =>
      rw [List.cons_append, List.cons_append, readBody, ih]
      rfl

theorem isName_iff {name : List Char} : isName name = true ↔
    name ≠ [] ∧ ∀ c ∈ name, isBlank c = false ∧ c ≠ '"' := by
  simp [isName]

instance (name : List Char) : Decidable (IsName name) :=
  -- The bounded quantifiers are decided along the list, not by going through all characters.
  decidable_of_iff (isName name = true ∧ (name.all fun c => c != ':') = true) (by
    simp only [isName_iff, List.all_eq_true, bne_iff_ne]
    constructor
    · rintro ⟨⟨hne, hchars⟩, hcolon⟩
      exact ⟨hne, hcolon, fun c hc => (hchars c hc).1, fun c hc => (hchars c hc).2⟩
    · rintro ⟨hne, hcolon, hblank, hquote⟩
      exact ⟨⟨hne, fun c hc => ⟨hblank c hc, hquote c hc⟩⟩, hcolon⟩)

theorem trimStart_append {blanks s : List Char} (hblanks : ∀ c ∈ blanks, isBlank c = true)
    (hs : ∀ c ∈ s.head?, isBlank c = false) : trimStart (blanks ++ s) = s := by
  rw [trimStart, List.dropWhile_append_of_pos hblanks]
  cases s with
  | nil => rfl
  | cons c s => rw [List.dropWhile_cons_of_neg (by simp [hs c rfl])]

theorem readPair_eq_some_iff {s rest : List Char} {p : List Char × List Char} :
    readPair s = some (p, rest) ↔ ∃ text, PairText text p ∧ s = text ++ rest := by
  constructor
  · intro h
    simp only [readPair] at h
    split at h
    · rename_i name after hcut
      split at h
      · rename_i hname
        obtain ⟨⟨body, t⟩, hbody, he⟩ := Option.map_eq_some_iff.mp h
        cases he
        obtain ⟨text, htext, rfl⟩ := readBody_eq_some_iff.mp hbody
        obtain ⟨c, hc, hclear, hs⟩ := cut_eq_some_iff.mp hcut
        have hc : c = ':' := by simpa using hc
        subst hc
        obtain ⟨hne, hchars⟩ := isName_iff.mp hname
        have hsplit : s = s.takeWhile isBlank ++ trimStart s :=
          (List.takeWhile_append_dropWhile).symm
        have hblanks : ∀ c ∈ s.takeWhile isBlank, isBlank c = true :=
          fun c hc => List.mem_takeWhile_imp hc
        refine ⟨_, .mk hblanks
          ⟨hne, fun c hc => by simpa using hclear c hc, fun c hc => (hchars c hc).1,
            fun c hc => (hchars c hc).2⟩ htext, ?_⟩
        calc s = s.takeWhile isBlank ++ trimStart s := hsplit
          _ = _ := by rw [hs]; simp
      · cases h
    · cases h
  · rintro ⟨_, ⟨hblanks, hname, hbody⟩, rfl⟩
    rename_i blanks name text body
    have hhead : ∀ c ∈ (name ++ ':' :: '"' :: (text ++ '"' :: rest)).head?, isBlank c = false := by
      cases name with
      | nil => exact absurd rfl hname.ne_nil
      | cons c name =>
        intro x hx
        cases hx
        exact hname.not_blank c List.mem_cons_self
    have htrim : trimStart (blanks ++ (name ++ ':' :: '"' :: (text ++ ['"'])) ++ rest) =
        name ++ ':' :: '"' :: (text ++ '"' :: rest) := by
      rw [List.append_assoc, List.append_assoc, List.cons_append, List.cons_append,
        List.append_assoc, List.singleton_append]
      exact trimStart_append hblanks hhead
    have hcut : cut (· == ':') (name ++ ':' :: '"' :: (text ++ '"' :: rest)) =
        some (name, '"' :: (text ++ '"' :: rest)) :=
      cut_eq_some_iff.mpr ⟨':', rfl, fun c hc => by simpa using hname.not_colon c hc, rfl⟩
    have hlegal : isName name = true :=
      isName_iff.mpr ⟨hname.ne_nil, fun c hc => ⟨hname.not_blank c hc, hname.not_quote c hc⟩⟩
    simp only [readPair, htrim, hcut, hlegal, if_true, readBody_eq_some_iff.mpr ⟨text, hbody, rfl⟩,
      Option.map_some]

/-! ### Reading all pairs -/

theorem length_of_begins {s rest : List Char} {ps : List (List Char × List Char)}
    (h : Begins s ps rest) : ps.length ≤ s.length := by
  induction h with
  | nil rest => exact Nat.zero_le _
  | cons hp _ ih =>
    cases hp
    simp only [List.length_cons, List.length_append]
    omega

theorem readPairs_of_begins {fuel : Nat} {s rest : List Char} {ps : List (List Char × List Char)}
    (h : Begins s ps rest) (hfuel : ps.length ≤ fuel) :
    readPairs fuel s = ps ++ readPairs (fuel - ps.length) rest := by
  induction h generalizing fuel with
  | nil rest => rfl
  | @cons text s rest p ps hp _ ih =>
    obtain ⟨fuel, rfl⟩ : ∃ n, fuel = n + 1 := ⟨fuel - 1, by simp at hfuel; omega⟩
    have hread : readPair (text ++ s) = some (p, s) := readPair_eq_some_iff.mpr ⟨text, hp, rfl⟩
    rw [List.length_cons, Nat.add_sub_add_right]
    simp only [readPairs, hread, List.cons_append]
    rw [ih (Nat.le_of_succ_le_succ hfuel)]

theorem begins_of_prefix {fuel : Nat} {s : List Char} {ps : List (List Char × List Char)}
    (h : ps <+: readPairs fuel s) : ∃ rest, Begins s ps rest := by
  induction fuel generalizing s ps with
  | zero =>
    cases List.prefix_nil.mp h
    exact ⟨s, .nil s⟩
  | succ fuel ih =>
    simp only [readPairs] at h
    split at h
    · rename_i p t hread
      cases ps with
      | nil => exact ⟨s, .nil s⟩
      | cons q ps =>
        obtain ⟨rfl, htail⟩ := List.cons_prefix_cons.mp h
        obtain ⟨text, hpair, rfl⟩ := readPair_eq_some_iff.mp hread
        obtain ⟨rest, hrest⟩ := ih htail
        exact ⟨rest, .cons hpair hrest⟩
    · cases List.prefix_nil.mp h
      exact ⟨s, .nil s⟩

/-- The pairs of a text are those that it begins with. -/
theorem prefix_pairs_iff {s : List Char} {ps : List (List Char × List Char)} :
    ps <+: pairs s ↔ ∃ rest, Begins s ps rest := by
  constructor
  · exact begins_of_prefix
  · rintro ⟨rest, h⟩
    rw [pairs, readPairs_of_begins h (length_of_begins h)]
    exact List.prefix_append ps _

theorem pairs_of_begins {s : List Char} {ps : List (List Char × List Char)} (h : Begins s ps []) :
    pairs s = ps := by
  have hempty : ∀ fuel, readPairs fuel [] = [] := fun fuel => by cases fuel <;> rfl
  rw [pairs, readPairs_of_begins h (length_of_begins h), hempty, List.append_nil]

theorem finds_iff {raw name body : String} : Finds raw name body ↔ ∃ ps,
    ps ++ [(name.toList, body.toList)] <+: pairs raw.toList ∧ ∀ p ∈ ps, p.1 ≠ name.toList := by
  simp only [Finds, prefix_pairs_iff]
  constructor
  · rintro ⟨ps, rest, h, hps⟩
    exact ⟨ps, ⟨rest, h⟩, hps⟩
  · rintro ⟨ps, ⟨rest, h⟩, hps⟩
    exact ⟨ps, rest, h, hps⟩

theorem lookup_eq_some_iff {raw name body : String} :
    lookup raw name = some body ↔ Finds raw name body := by
  rw [finds_iff, lookup, Option.map_eq_some_iff]
  constructor
  · rintro ⟨⟨found, text⟩, hfind, rfl⟩
    obtain ⟨hname, before, after, hsplit, hbefore⟩ := List.find?_eq_some_iff_append.mp hfind
    have hname : found = name.toList := by simpa using hname
    subst hname
    refine ⟨before, ⟨after, ?_⟩, fun p hp => by simpa using hbefore p hp⟩
    rw [hsplit, String.toList_ofList, List.append_assoc, List.singleton_append]
  · rintro ⟨before, ⟨after, hsplit⟩, hbefore⟩
    refine ⟨(name.toList, body.toList), List.find?_eq_some_iff_append.mpr ⟨by simp, before, after,
      ?_, fun p hp => by simpa using hbefore p hp⟩, String.ofList_toList⟩
    rw [← hsplit, List.append_assoc, List.singleton_append]

/-! ### Writing -/

/-- A pair with the blanks that are written before it. -/
structure WrittenPair where
  blanks : String
  name : String
  body : String
  deriving DecidableEq, Repr

/-- Backslashes and quotes are written with a backslash before them. -/
def escaped (s : List Char) : List Char :=
  s.flatMap fun c => if c = '\\' ∨ c = '"' then ['\\', c] else [c]

namespace WrittenPair

def text (p : WrittenPair) : List Char :=
  p.blanks.toList ++ (p.name.toList ++ ':' :: '"' :: (escaped p.body.toList ++ ['"']))

/-- The pair can be read again. -/
structure Legal (p : WrittenPair) : Prop where
  blanks : ∀ c ∈ p.blanks.toList, isBlank c = true
  name : IsName p.name.toList

instance (p : WrittenPair) : Decidable p.Legal :=
  decidable_of_iff (p.blanks.toList.all isBlank = true ∧ IsName p.name.toList)
    ⟨fun h => ⟨List.all_eq_true.mp h.1, h.2⟩, fun h => ⟨List.all_eq_true.mpr h.blanks, h.name⟩⟩

end WrittenPair

def written (ps : List WrittenPair) : String := String.ofList (ps.flatMap WrittenPair.text)

theorem bodyText_escaped (s : List Char) : BodyText (escaped s) s := by
  induction s with
  | nil => exact .nil
  | cons c s ih =>
    rw [escaped, List.flatMap_cons, ← escaped]
    by_cases hc : c = '\\' ∨ c = '"'
    · rw [if_pos hc]
      exact .escaped c ih
    · rw [if_neg hc]
      exact .plain (fun h => hc (Or.inl h)) (fun h => hc (Or.inr h)) ih

theorem begins_written {ps : List WrittenPair} (h : ∀ p ∈ ps, p.Legal) :
    Begins (ps.flatMap WrittenPair.text) (ps.map fun p => (p.name.toList, p.body.toList)) [] := by
  induction ps with
  | nil => exact .nil []
  | cons p ps ih =>
    obtain ⟨hblanks, hname⟩ := h p List.mem_cons_self
    exact .cons (.mk hblanks hname (bodyText_escaped p.body.toList))
      (ih fun q hq => h q (List.mem_cons_of_mem p hq))

theorem lookup_written {ps : List WrittenPair} (h : ∀ p ∈ ps, p.Legal) (name : String) :
    lookup (written ps) name = (ps.find? fun p => p.name = name).map WrittenPair.body := by
  have hsame : ((fun p : List Char × List Char => decide (p.1 = name.toList)) ∘
      fun p : WrittenPair => (p.name.toList, p.body.toList)) = fun p => decide (p.name = name) := by
    funext p
    simp [String.toList_inj]
  rw [lookup, written, String.toList_ofList, pairs_of_begins (begins_written h), List.find?_map,
    hsame, Option.map_map]
  congr 1
  funext p
  exact String.ofList_toList

/-- Looking up a name finds the body of the first pair of the name among the pairs that the
annotation begins with, whatever follows that pair, and finds nothing else. So it reads what was
written. -/
theorem lookup_first_pair (name : String) :
    (∀ raw body, lookup raw name = some body ↔ Finds raw name body) ∧
    (∀ raw, lookup raw name = none ↔ ∀ body, ¬ Finds raw name body) ∧
    ∀ ps : List WrittenPair, (∀ p ∈ ps, p.Legal) →
      lookup (written ps) name = (ps.find? fun p => p.name = name).map WrittenPair.body := by
  refine ⟨fun raw body => lookup_eq_some_iff, fun raw => ?_, fun ps h => lookup_written h name⟩
  simp only [← lookup_eq_some_iff]
  exact Option.eq_none_iff_forall_ne_some

/-- The annotation of a column with a default in quotes. -/
def draftPairs : List WrittenPair :=
  [⟨"", "ll", "default:\"draft\""⟩, ⟨" ", "db", "state"⟩, ⟨" \t", "ll", "pk"⟩]

theorem lookup_draftPairs :
    written draftPairs = "ll:\"default:\\\"draft\\\"\" db:\"state\" \tll:\"pk\"" ∧
      lookup (written draftPairs) "ll" = some "default:\"draft\"" :=
  ⟨by decide +kernel, ((lookup_first_pair "ll").2.2 draftPairs (by decide +kernel)).trans
    (by decide +kernel)⟩

end RecordGraph.Annotation
