import Mathlib.Data.List.DropRight
import Mathlib.Logic.Relation
import RecordGraph.Proofs.Tag.Grammar
import RecordGraph.Tag.Reader

/-!
# Merging the tags of an annotation

The tags of a field depend on the pairs of the configured names only, and on these only in the order
of the pairs of one name. `Defines` says what a fragment of a body tells, without reading it. All
properties go under one name, and of two fragments with one key the first one counts: that of the
name which is configured earlier, and in one body the one which stands earlier.
-/

namespace RecordGraph

/-! ### Trimmed texts -/

namespace Text

theorem trimStart_trim (s : List Char) : trimStart (trim s) = trim s := by
  have hprefix : trim s <+: trimStart s := List.rdropWhile_prefix isBlank _
  cases htrim : trim s with
  | nil => rfl
  | cons c rest =>
    rw [htrim] at hprefix
    obtain ⟨tail, hs⟩ := hprefix
    have hhead := List.head?_dropWhile_not isBlank s
    rw [← trimStart, ← hs, List.cons_append, List.head?_cons] at hhead
    exact List.dropWhile_cons_of_neg (by simpa using hhead)

theorem trim_trim (s : List Char) : trim (trim s) = trim s := by
  rw [trim, trimStart_trim]
  exact List.rdropWhile_idempotent isBlank (trimStart s)

theorem mem_of_mem_trim {s : List Char} {c : Char} (h : c ∈ trim s) : c ∈ s :=
  (List.dropWhile_sublist isBlank).subset ((List.rdropWhile_prefix isBlank _).subset h)

end Text

/-! ### Pairs that are read -/

namespace Annotation

open Text

abbrev Pair := List Char × List Char

/-- The annotation is a sequence of the pairs, with blanks at most behind them. -/
def Spells (raw : String) (ps : List Pair) : Prop :=
  ∃ rest, Begins raw.toList ps rest ∧ ∀ c ∈ rest, isBlank c = true

theorem readPair_of_blank {s : List Char} (h : ∀ c ∈ s, isBlank c = true) : readPair s = none := by
  have htrim : trimStart s = [] := List.dropWhile_eq_nil_iff.mpr h
  simp only [readPair, htrim, cut]

theorem pairs_of_spells {raw : String} {ps : List Pair} (h : Spells raw ps) :
    pairs raw.toList = ps := by
  obtain ⟨rest, hbegins, hblank⟩ := h
  have hnone : ∀ fuel, readPairs fuel rest = [] := by
    intro fuel
    cases fuel with
    | zero => rfl
    | succ fuel => simp only [readPairs, readPair_of_blank hblank]
  rw [pairs, readPairs_of_begins hbegins (length_of_begins hbegins), hnone, List.append_nil]

theorem spells_written {ps : List WrittenPair} (h : ∀ p ∈ ps, p.Legal) :
    Spells (written ps) (ps.map fun p => (p.name.toList, p.body.toList)) := by
  refine ⟨[], ?_, fun c hc => absurd hc List.not_mem_nil⟩
  rw [written, String.toList_ofList]
  exact begins_written h

def named (name : List Char) (ps : List Pair) : List Pair := ps.filter fun p => p.1 = name

theorem lookup_eq_head? (raw name : String) :
    lookup raw name =
      ((named name.toList (pairs raw.toList)).head?).map fun p => String.ofList p.2 := by
  rw [lookup, named, List.head?_filter]

/-- What can be done to the pairs of an annotation without touching the given names. -/
inductive Edit (names : List String) : List Pair → List Pair → Prop where
  | insert (before after : List Pair) {p : Pair} (hp : ∀ name ∈ names, p.1 ≠ name.toList) :
      Edit names (before ++ after) (before ++ p :: after)
  | remove (before after : List Pair) {p : Pair} (hp : ∀ name ∈ names, p.1 ≠ name.toList) :
      Edit names (before ++ p :: after) (before ++ after)
  | change (before after : List Pair) {p q : Pair} (hp : ∀ name ∈ names, p.1 ≠ name.toList)
      (hq : ∀ name ∈ names, q.1 ≠ name.toList) :
      Edit names (before ++ p :: after) (before ++ q :: after)
  /-- The pairs change places, those of one name among themselves excepted. -/
  | reorder {ps qs : List Pair} (hperm : ps.Perm qs)
      (hsame : ∀ name, named name ps = named name qs) : Edit names ps qs

theorem named_append_cons {name : List Char} (before after : List Pair) {p : Pair}
    (h : p.1 ≠ name) : named name (before ++ p :: after) = named name (before ++ after) := by
  simp only [named, List.filter_append, List.filter_cons, h, decide_false, Bool.false_eq_true,
    if_false]

theorem Edit.named {names : List String} {ps qs : List Pair} (h : Edit names ps qs) {name : String}
    (hname : name ∈ names) : named name.toList ps = named name.toList qs := by
  cases h with
  | insert before after hp => exact (named_append_cons before after (hp name hname)).symm
  | remove before after hp => exact named_append_cons before after (hp name hname)
  | change before after hp hq =>
    rw [named_append_cons before after (hp name hname),
      named_append_cons before after (hq name hname)]
  | reorder _ hsame => exact hsame name.toList

theorem Edit.swap {names : List String} (before after : List Pair) {p q : Pair} (h : p.1 ≠ q.1) :
    Edit names (before ++ p :: q :: after) (before ++ q :: p :: after) := by
  refine .reorder ((List.Perm.swap q p after).append_left before) fun name => ?_
  by_cases hp : p.1 = name
  · have hq : q.1 ≠ name := fun hq => h (hp.trans hq.symm)
    have hdrop := named_append_cons (before ++ [p]) after hq
    rw [named_append_cons before (p :: after) hq]
    simpa only [List.append_assoc, List.singleton_append] using hdrop
  · have hdrop := named_append_cons (before ++ [q]) after hp
    rw [named_append_cons before (q :: after) hp]
    simpa only [List.append_assoc, List.singleton_append] using hdrop.symm

theorem named_of_edits {names : List String} {ps qs : List Pair}
    (h : Relation.ReflTransGen (Edit names) ps qs) {name : String} (hname : name ∈ names) :
    named name.toList ps = named name.toList qs := by
  induction h with
  | refl => rfl
  | tail _ hedit ih => exact ih.trans (hedit.named hname)

/-- Two annotations whose pairs only differ in other names and in their order answer alike. -/
theorem lookup_of_edits {names : List String} {raw raw' : String} {ps qs : List Pair}
    (hraw : Spells raw ps) (hraw' : Spells raw' qs) (h : Relation.ReflTransGen (Edit names) ps qs)
    {name : String} (hname : name ∈ names) : lookup raw name = lookup raw' name := by
  rw [lookup_eq_head?, lookup_eq_head?, pairs_of_spells hraw, pairs_of_spells hraw',
    named_of_edits h hname]

end Annotation

namespace Tags

open Text
open Annotation (Edit spells_written written)

variable {o : TagOptions}

theorem properties_congr {raw raw' : String}
    (h : ∀ name ∈ o.namespaces, Annotation.lookup raw name = Annotation.lookup raw' name) :
    properties o raw = properties o raw' := by
  rw [properties, properties, List.flatMap_congr fun name hname => ?_]
  rw [propertiesOf, propertiesOf, h name (List.mem_eraseDups.mp hname)]

/-! ### Fragments -/

/-- A text that is not empty, has no blanks at its ends, and holds no separator of fragments. -/
structure IsContent (s : List Char) : Prop where
  ne_nil : s ≠ []
  trimmed : trim s = s
  not_sep : ∀ c ∈ s, c ≠ ',' ∧ c ≠ ';'

instance (s : List Char) : Decidable (IsContent s) :=
  decidable_of_iff (s ≠ [] ∧ trim s = s ∧ s.all (fun c => c ≠ ',' ∧ c ≠ ';') = true)
    ⟨fun h => ⟨h.1, h.2.1, by simpa using h.2.2⟩,
      fun h => ⟨h.ne_nil, h.trimmed, by simpa using h.not_sep⟩⟩

theorem isContent_trim {s : List Char} (hne : trim s ≠ []) (hsep : ∀ c ∈ s, c ≠ ',' ∧ c ≠ ';') :
    IsContent (trim s) :=
  ⟨hne, trim_trim s, fun c hc => hsep c (mem_of_mem_trim hc)⟩

theorem isContent_trueValue : IsContent trueValue.toList := by
  decide

theorem isContent_of_mem_fragments {body : String} {f : List Char} (h : f ∈ fragments body) :
    IsContent f := by
  obtain ⟨hmem, hne⟩ := List.mem_filter.mp h
  obtain ⟨piece, hpiece, rfl⟩ := List.mem_map.mp hmem
  refine isContent_trim (by simpa using hne) fun c hc => ?_
  have hsep := not_sep_of_mem_pieces hpiece c hc
  simpa only [Bool.or_eq_false_iff, beq_eq_false_iff_ne] using hsep

/-- The fragment gives the key the value. The flag tells whether fragments are columns. -/
inductive Defines (o : TagOptions) : Bool → List Char → String → String → Prop where
  | excluded (columnOnly : Bool) : Defines o columnOnly ['-'] excludedKey trueValue
  | column {f : List Char} (h : f ≠ ['-']) : Defines o true f columnKey (String.ofList f)
  | bare {f : List Char} (h : f ≠ ['-']) (hcolon : ∀ c ∈ f, c ≠ ':') :
      Defines o false f (o.resolveAlias (String.ofList f)) trueValue
  | rich {key value : List Char} (hcolon : ∀ c ∈ key, c ≠ ':') (hkey : trim key ≠ [])
      (hvalue : trim value ≠ []) : Defines o false (key ++ ':' :: value)
        (o.resolveAlias (String.ofList (trim key))) (String.ofList (trim value))

theorem ofList_eq_excludedKey {f : List Char} : String.ofList f = excludedKey ↔ f = ['-'] :=
  ⟨fun h => String.ofList_injective h, fun h => congrArg String.ofList h⟩

theorem readFragment_eq_some_iff {columnOnly : Bool} {f : List Char} {key value : String} :
    readFragment o columnOnly f = some ⟨key, value⟩ ↔ Defines o columnOnly f key value := by
  constructor
  · intro h
    simp only [readFragment, ofList_eq_excludedKey] at h
    split at h
    · rename_i hf
      cases h
      subst hf
      exact .excluded columnOnly
    · rename_i hf
      cases columnOnly with
      | true =>
        cases h
        exact .column hf
      | false =>
        simp only [Bool.false_eq_true, if_false] at h
        split at h
        · rename_i hcut
          cases h
          exact .bare hf fun c hc => by simpa using cut_eq_none_iff.mp hcut c hc
        · rename_i before after hcut
          obtain ⟨c, hc, hclear, rfl⟩ := cut_eq_some_iff.mp hcut
          have hc : c = ':' := by simpa using hc
          subst hc
          split at h
          · cases h
          · rename_i hfilled
            cases h
            have hfilled : trim before ≠ [] ∧ trim after ≠ [] := by simpa using hfilled
            exact .rich (fun c hc => by simpa using hclear c hc) hfilled.1 hfilled.2
  · intro h
    cases h with
    | excluded => rfl
    | column hf => simp only [readFragment, ofList_eq_excludedKey, hf, if_false, if_true]
    | bare hf hcolon =>
      have hcut : cut (· == ':') f = none :=
        cut_eq_none_iff.mpr fun c hc => by simpa using hcolon c hc
      simp only [readFragment, ofList_eq_excludedKey, hf, hcut, Bool.false_eq_true, if_false]
    | @rich before after hcolon hkey hvalue =>
      have hcut : cut (· == ':') (before ++ ':' :: after) = some (before, after) :=
        cut_eq_some_iff.mpr ⟨':', rfl, fun c hc => by simpa using hcolon c hc, rfl⟩
      have hdash : before ++ ':' :: after ≠ ['-'] := by
        intro h
        have hmem : ':' ∈ before ++ ':' :: after := by simp
        rw [h] at hmem
        exact absurd hmem (by decide)
      have hfilled : ((trim before).isEmpty || (trim after).isEmpty) = false := by
        simp [hkey, hvalue]
      simp only [readFragment, ofList_eq_excludedKey, hdash, hcut, hfilled, Bool.false_eq_true,
        if_false]

theorem Defines.isContent {columnOnly : Bool} {f : List Char} {key value : String}
    (h : Defines o columnOnly f key value) (hf : IsContent f) : IsContent value.toList := by
  cases h with
  | excluded => exact isContent_trueValue
  | column => rwa [String.toList_ofList]
  | bare => exact isContent_trueValue
  | rich hcolon hkey hvalue =>
    rw [String.toList_ofList]
    exact isContent_trim hvalue fun c hc =>
      hf.not_sep c (List.mem_append_right _ (List.mem_cons_of_mem _ hc))

/-- The fragments of the annotation: of each configured name once, in the configured order, and of
one name as they stand. The flags tell which of them are columns. -/
def fragmentsOf (o : TagOptions) (raw : String) : List (Bool × List Char) :=
  o.namespaces.eraseDups.flatMap fun name => match Annotation.lookup raw name with
    | none => []
    | some body => (fragments body).map fun f => (o.columnNamespaces.contains name, f)

theorem isContent_of_mem_fragmentsOf {raw : String} {f : Bool × List Char}
    (h : f ∈ fragmentsOf o raw) : IsContent f.2 := by
  obtain ⟨name, -, hf⟩ := List.mem_flatMap.mp h
  cases hlookup : Annotation.lookup raw name with
  | none =>
    rw [hlookup] at hf
    exact absurd hf List.not_mem_nil
  | some body =>
    rw [hlookup] at hf
    obtain ⟨text, htext, rfl⟩ := List.mem_map.mp hf
    exact isContent_of_mem_fragments htext

theorem properties_eq_filterMap (o : TagOptions) (raw : String) :
    properties o raw = (fragmentsOf o raw).filterMap fun f => readFragment o f.1 f.2 := by
  rw [properties, fragmentsOf, List.filterMap_flatMap]
  refine List.flatMap_congr fun name _ => ?_
  rw [propertiesOf]
  cases Annotation.lookup raw name with
  | none => rfl
  | some body =>
    have hmap := List.filterMap_map (l := fragments body)
      (f := fun f => (o.columnNamespaces.contains name, f)) (g := fun f => readFragment o f.1 f.2)
    exact hmap.symm

theorem isContent_of_mem_properties {raw : String} {p : TagProperty} (h : p ∈ properties o raw) :
    IsContent p.value.toList := by
  rw [properties_eq_filterMap] at h
  obtain ⟨f, hf, hread⟩ := List.mem_filterMap.mp h
  exact (readFragment_eq_some_iff.mp hread).isContent (isContent_of_mem_fragmentsOf hf)

/-! ### The merged tag -/

theorem foldl_set (name : String) (qs ps : List TagProperty) :
    ps.foldl (fun (t : Tags) p => t.set name p) ⟨[⟨name, qs⟩]⟩ = ⟨[⟨name, qs ++ ps⟩]⟩ := by
  induction ps generalizing qs with
  | nil => rw [List.foldl_nil, List.append_nil]
  | cons p ps ih =>
    have hset : set ⟨[⟨name, qs⟩]⟩ name p = ⟨[⟨name, qs ++ [p]⟩]⟩ := by
      simp only [set, setIn, if_true]
    rw [List.foldl_cons, hset, ih, List.append_assoc, List.singleton_append]

theorem ofAnnotation_eq (o : TagOptions) (raw : String) :
    (properties o raw = [] ∧ ofAnnotation o raw = empty) ∨
      (properties o raw ≠ [] ∧ ofAnnotation o raw = ⟨[⟨o.name, properties o raw⟩]⟩) := by
  rw [Tags.ofAnnotation]
  cases properties o raw with
  | nil => exact Or.inl ⟨rfl, rfl⟩
  | cons p ps => exact Or.inr ⟨List.cons_ne_nil p ps, foldl_set o.name [p] ps⟩

theorem value?_merged (o : TagOptions) (raw key : String) :
    (Tags.ofAnnotation o raw).value? o.name key =
      ((properties o raw).find? fun p => p.key = key).map TagProperty.value := by
  rcases ofAnnotation_eq o raw with ⟨hnil, heq⟩ | ⟨-, heq⟩
  · rw [heq, hnil]
    rfl
  · rw [heq]
    simp only [value?, get?, List.find?_cons, decide_true, Option.bind_some, Tag.get?]

/-- The value stands in the first fragment that defines the key. -/
def DefinesFirst (o : TagOptions) (raw key value : String) : Prop :=
  ∃ before f after, fragmentsOf o raw = before ++ f :: after ∧ Defines o f.1 f.2 key value ∧
    ∀ g ∈ before, ∀ other, ¬ Defines o g.1 g.2 key other

theorem any_readFragment_iff {columnOnly : Bool} {f : List Char} {key : String} :
    (readFragment o columnOnly f).any (fun p => p.key = key) = true ↔
      ∃ value, Defines o columnOnly f key value := by
  simp only [Option.any_eq_true, decide_eq_true_eq]
  constructor
  · rintro ⟨⟨k, value⟩, hread, rfl⟩
    exact ⟨value, readFragment_eq_some_iff.mp hread⟩
  · rintro ⟨value, h⟩
    exact ⟨⟨key, value⟩, readFragment_eq_some_iff.mpr h, rfl⟩

theorem value?_eq_some_iff {raw key value : String} :
    (Tags.ofAnnotation o raw).value? o.name key = some value ↔ DefinesFirst o raw key value := by
  rw [value?_merged, properties_eq_filterMap, List.find?_filterMap]
  constructor
  · intro h
    obtain ⟨⟨k, v⟩, hfound, hv⟩ := Option.map_eq_some_iff.mp h
    obtain ⟨f, hfind, hread⟩ := Option.bind_eq_some_iff.mp hfound
    obtain ⟨hkey, before, after, hsplit, hbefore⟩ := List.find?_eq_some_iff_append.mp hfind
    obtain ⟨w, hw⟩ := any_readFragment_iff.mp hkey
    cases hread.symm.trans (readFragment_eq_some_iff.mpr hw)
    cases hv
    refine ⟨before, f, after, hsplit, hw, fun g hg other hother => ?_⟩
    have hnot := hbefore g hg
    rw [any_readFragment_iff.mpr ⟨other, hother⟩] at hnot
    cases hnot
  · rintro ⟨before, f, after, hsplit, hf, hbefore⟩
    have hfind : (fragmentsOf o raw).find?
        (fun f => (readFragment o f.1 f.2).any fun p => p.key = key) = some f := by
      refine List.find?_eq_some_iff_append.mpr ⟨any_readFragment_iff.mpr ⟨value, hf⟩, before, after,
        hsplit, fun g hg => ?_⟩
      rw [Bool.not_eq_true', ← Bool.not_eq_true, any_readFragment_iff]
      rintro ⟨other, hother⟩
      exact hbefore g hg other hother
    rw [hfind, Option.bind_some, readFragment_eq_some_iff.mpr hf, Option.map_some]

theorem value?_eq_none_iff {raw key : String} :
    (Tags.ofAnnotation o raw).value? o.name key = none ↔
      ∀ f ∈ fragmentsOf o raw, ∀ value, ¬ Defines o f.1 f.2 key value := by
  rw [value?_merged, properties_eq_filterMap, Option.map_eq_none_iff, List.find?_eq_none]
  constructor
  · intro h f hf value hdefines
    have hread := readFragment_eq_some_iff.mpr hdefines
    exact absurd (decide_eq_true rfl) (h ⟨key, value⟩ (List.mem_filterMap.mpr ⟨f, hf, hread⟩))
  · rintro h ⟨k, value⟩ hp hkey
    obtain ⟨f, hf, hread⟩ := List.mem_filterMap.mp hp
    cases of_decide_eq_true hkey
    exact h f hf value (readFragment_eq_some_iff.mp hread)

/-- The tags of an annotation that is made of pairs only depend on the pairs of the configured names
and on the order of those of one name. Of any text at all there are no tags or there is one, of the
canonical name, and its values are clean. A key has the value of the first fragment that defines it,
and no value if no fragment does. -/
theorem ofAnnotation_merges (o : TagOptions) :
    (∀ raw raw' ps qs, Annotation.Spells raw ps → Annotation.Spells raw' qs →
      Relation.ReflTransGen (Edit o.namespaces) ps qs →
      ofAnnotation o raw = ofAnnotation o raw') ∧
    (∀ raw, ofAnnotation o raw = empty ∨ ∃ ps, ps ≠ [] ∧
      ofAnnotation o raw = ⟨[⟨o.name, ps⟩]⟩ ∧ ∀ p ∈ ps, IsContent p.value.toList) ∧
    ∀ raw key,
      (∀ value, (Tags.ofAnnotation o raw).value? o.name key = some value ↔
        DefinesFirst o raw key value) ∧
      ((Tags.ofAnnotation o raw).value? o.name key = none ↔
        ∀ f ∈ fragmentsOf o raw, ∀ value, ¬ Defines o f.1 f.2 key value) := by
  refine ⟨fun raw raw' ps qs hraw hraw' hedits => ?_, fun raw => ?_,
    fun raw key => ⟨fun value => value?_eq_some_iff, value?_eq_none_iff⟩⟩
  · have hsame : properties o raw = properties o raw' :=
      properties_congr fun name hname => Annotation.lookup_of_edits hraw hraw' hedits hname
    rw [Tags.ofAnnotation, ofAnnotation, hsame]
  · rcases ofAnnotation_eq o raw with ⟨-, hempty⟩ | ⟨hne, hmerged⟩
    · exact Or.inl hempty
    · exact Or.inr ⟨_, hne, hmerged, fun p hp => isContent_of_mem_properties hp⟩

/-- A pair of another name, and a renamed column in a configured one. -/
def renamedPairs : List Annotation.WrittenPair :=
  [⟨"", "json", "key"⟩, ⟨" ", "ll", "pk, col:code"⟩, ⟨" ", "db", "id"⟩]

/-- The pairs of the configured names alone, the other way round. -/
def configuredPairs : List Annotation.WrittenPair :=
  [⟨"", "db", "id"⟩, ⟨"\t", "ll", "pk, col:code"⟩]

/-- The other pair and the order make no difference, and the column has the name that stands in the
first one of the configured names. -/
theorem ofAnnotation_merges_renamed :
    ofAnnotation .standard "json:\"key\" ll:\"pk, col:code\" db:\"id\"" =
        ofAnnotation .standard "db:\"id\"\tll:\"pk, col:code\"" ∧
      (Tags.ofAnnotation .standard "db:\"id\"\tll:\"pk, col:code\"").value? "lifeline" "column" =
        some "code" := by
  have hbefore : Annotation.Spells (written renamedPairs) _ :=
    spells_written (by decide +kernel)
  have hafter : Annotation.Spells (written configuredPairs) _ :=
    spells_written (by decide +kernel)
  have hrenamed : written renamedPairs =
    "json:\"key\" ll:\"pk, col:code\" db:\"id\"" := by decide +kernel
  have hconfigured : written configuredPairs =
    "db:\"id\"\tll:\"pk, col:code\"" := by decide +kernel
  rw [hrenamed] at hbefore
  rw [hconfigured] at hafter
  have hedits : Relation.ReflTransGen (Edit TagOptions.standard.namespaces)
      (renamedPairs.map fun p => (p.name.toList, p.body.toList))
      (configuredPairs.map fun p => (p.name.toList, p.body.toList)) :=
    .tail (.tail .refl (.remove [] _ (by decide +kernel))) (.swap [] [] (by decide +kernel))
  obtain ⟨hsame, -, hvalue⟩ := ofAnnotation_merges .standard
  refine ⟨hsame _ _ _ _ hbefore hafter hedits, ((hvalue _ _).1 _).mpr ?_⟩
  refine ⟨[(false, "pk".toList)], (false, "col:code".toList), [(true, "id".toList)],
    by decide +kernel, ?_, fun g hg other h => ?_⟩
  · exact readFragment_eq_some_iff.mp (by decide +kernel)
  · have hpk : readFragment .standard false "pk".toList = some ⟨"pk", "true"⟩ := by decide +kernel
    cases List.mem_singleton.mp hg
    have hkey := (readFragment_eq_some_iff.mpr h).symm.trans hpk
    simp at hkey

end Tags

end RecordGraph
