import RecordGraph.Proofs.Schema.History
import RecordGraph.Proofs.Text.Segments
import RecordGraph.Proofs.Walk.Reaching

/-!
# Addresses of records

A walk chooses a root and then, for every name, one of the records below. The places of these choices
are the address of the record that it comes to. Collecting a path gives the records at all addresses
along it, each address once and from left to right, and it may be done in two stretches.
-/

namespace RecordGraph

variable {M R : Type}

namespace Slot

def child? : Slot M R → Nat → Option R
  | column _ _, _ => none
  | reference _ record, k => if k = 0 then record else none
  | collection _ records, k => records[k]?

theorem child?_eq {s : Slot M R} {rs : List R} (h : s.records? = some rs) (k : Nat) :
    s.child? k = rs[k]? := by
  cases s with
  | column T x => cases h
  | reference target record =>
    cases h
    cases record with
    | none => simp [child?]
    | some r => cases k <;> rfl
  | collection target records =>
    cases h
    rfl

theorem exists_records_of_child? {s : Slot M R} {k : Nat} {r : R} (h : s.child? k = some r) :
    ∃ rs, s.records? = some rs := by
  cases s with
  | column T x => cases h
  | reference target record => exact ⟨_, rfl⟩
  | collection target records => exact ⟨_, rfl⟩

end Slot

namespace Family

variable {F : Family M}

/-- Choosing, for each name, the child in a place leads from one record to another. -/
inductive LeadsTo (F : Family M) : List String → List Nat → Record M → Record M → Prop where
  | here (r : Record M) : LeadsTo F [] [] r r
  | step {name : String} {names : List String} {i k : Nat} {ks : List Nat}
      {s : Slot M (Record M)} {r c leaf : Record M}
      (place : (F.model r.model).position? name = some i) (slot : r.slots[i]? = some s)
      (child : s.child? k = some c) (rest : LeadsTo F names ks c leaf) :
      LeadsTo F (name :: names) (k :: ks) r leaf

/-- The address is a place among the roots and a place for each name, and these lead to the
record. -/
def HasAddress (F : Family M) (names : List String) (roots : List (Record M)) (leaf : Record M) :
    List Nat → Prop
  | [] => False
  | k :: ks => ∃ root, roots[k]? = some root ∧ F.LeadsTo names ks root leaf

theorem leadsTo_nil {ks : List Nat} {r leaf : Record M} :
    F.LeadsTo [] ks r leaf ↔ ks = [] ∧ leaf = r := by
  constructor
  · intro h
    cases h
    exact ⟨rfl, rfl⟩
  · rintro ⟨rfl, rfl⟩
    exact .here leaf

theorem leadsTo_cons {name : String} {names : List String} {ks : List Nat} {r leaf : Record M} :
    F.LeadsTo (name :: names) ks r leaf ↔
      ∃ cs, F.children name r = .ok cs ∧ F.HasAddress names cs leaf ks := by
  constructor
  · intro h
    cases h with
    | @step _ _ i k ks s _ c _ place slot child rest =>
      obtain ⟨d, hd⟩ := exists_of_position? place
      obtain ⟨cs, hcs⟩ := Slot.exists_records_of_child? child
      rw [Slot.child?_eq hcs] at child
      exact ⟨cs, children_of_locate (locate_of place hd slot) hcs, c, child, rest⟩
  · rintro ⟨cs, hchildren, haddress⟩
    obtain ⟨i, d, s, hlocate, hs⟩ := children_cases hchildren
    obtain ⟨hi, -, hslot⟩ := locate_cases hlocate
    cases ks with
    | nil => exact haddress.elim
    | cons k ks =>
      obtain ⟨c, hc, hrest⟩ := haddress
      exact .step hi hslot ((Slot.child?_eq hs k).trans hc) hrest

/-! ### The records with their addresses -/

/-- What is below each record of a list, under addresses that begin with the place of the record. -/
def numbered (below : Record M → List (List Nat × Record M)) (rs : List (Record M)) :
    List (List Nat × Record M) :=
  rs.zipIdx.flatMap fun c => (below c.1).map fun x => (c.2 :: x.1, x.2)

/-- The records that a list of names leads to from one record, with their addresses. -/
def addressed (F : Family M) : List String → Record M → List (List Nat × Record M)
  | [], r => [([], r)]
  | name :: names, r =>
    match F.children name r with
    | .error _ => []
    | .ok cs => numbered (addressed F names) cs

section

variable {below : Record M → List (List Nat × Record M)}

theorem mem_numbered {rs : List (Record M)} {ks : List Nat} {leaf : Record M} :
    (ks, leaf) ∈ numbered below rs ↔
      ∃ k rest r, ks = k :: rest ∧ rs[k]? = some r ∧ (rest, leaf) ∈ below r := by
  simp only [numbered, List.mem_flatMap, List.mem_map, Prod.exists, Prod.mk.injEq,
    List.mem_zipIdx_iff_getElem?]
  constructor
  · rintro ⟨r, k, hr, rest, leaf, hleaf, rfl, rfl⟩
    exact ⟨k, rest, r, rfl, hr, hleaf⟩
  · rintro ⟨k, rest, r, rfl, hr, hleaf⟩
    exact ⟨r, k, hr, rest, leaf, hleaf, rfl, rfl⟩

theorem mem_numbered_iff_hasAddress {names : List String}
    (h : ∀ ks r leaf, (ks, leaf) ∈ below r ↔ F.LeadsTo names ks r leaf) {rs : List (Record M)}
    {ks : List Nat} {leaf : Record M} :
    (ks, leaf) ∈ numbered below rs ↔ F.HasAddress names rs leaf ks := by
  simp only [mem_numbered, h]
  cases ks with
  | nil => simp [HasAddress]
  | cons k ks => simp [HasAddress]

theorem pairwise_zipIdx (rs : List R) : rs.zipIdx.Pairwise fun a b => a.2 < b.2 := by
  have hplaces : (rs.zipIdx.map Prod.snd).Pairwise (· < ·) := by
    rw [List.zipIdx_map_snd]
    exact List.pairwise_lt_range'
  exact List.pairwise_map.mp hplaces

theorem pairwise_numbered (h : ∀ r, (below r).Pairwise fun x y => x.1 < y.1) (rs : List (Record M)) :
    (numbered below rs).Pairwise fun x y => x.1 < y.1 := by
  refine List.pairwise_flatMap.mpr ⟨fun c _ => ?_, (pairwise_zipIdx rs).imp ?_⟩
  · refine List.pairwise_map.mpr ((h c.1).imp fun hxy => ?_)
    exact List.cons_lt_cons_iff.mpr (Or.inr ⟨rfl, hxy⟩)
  · rintro a b hab x hx y hy
    obtain ⟨x', -, rfl⟩ := List.mem_map.mp hx
    obtain ⟨y', -, rfl⟩ := List.mem_map.mp hy
    exact List.cons_lt_cons_iff.mpr (Or.inl hab)

theorem map_snd_numbered (rs : List (Record M)) :
    (numbered below rs).map Prod.snd = rs.flatMap fun r => (below r).map Prod.snd := by
  have hrs : rs = rs.zipIdx.map Prod.fst := (List.zipIdx_map_fst 0 rs).symm
  conv_rhs => rw [hrs, List.flatMap_map]
  rw [numbered, List.map_flatMap]
  refine List.flatMap_congr fun c _ => ?_
  rw [List.map_map]
  rfl

end

theorem mem_addressed (names : List String) (ks : List Nat) (r leaf : Record M) :
    (ks, leaf) ∈ F.addressed names r ↔ F.LeadsTo names ks r leaf := by
  induction names generalizing ks r leaf with
  | nil => simp [addressed, leadsTo_nil]
  | cons name names ih =>
    rw [leadsTo_cons, addressed]
    cases hchildren : F.children name r with
    | error e => simp
    | ok cs => simp only [mem_numbered_iff_hasAddress ih, Except.ok.injEq, exists_eq_left']

theorem pairwise_addressed (names : List String) (r : Record M) :
    (F.addressed names r).Pairwise fun x y => x.1 < y.1 := by
  induction names generalizing r with
  | nil => exact List.pairwise_singleton _ _
  | cons name names ih =>
    rw [addressed]
    cases F.children name r with
    | error e => exact .nil
    | ok cs => exact pairwise_numbered ih cs

/-- A walk goes through the records in the order of their addresses. -/
theorem reach_eq_addressed {names : List String} {rs leaves : List (Record M)}
    (h : F.reach names rs = .ok leaves) :
    (rs.flatMap fun r => (F.addressed names r).map Prod.snd) = leaves := by
  replace h := reaches_of_reach h
  induction h with
  | here rs => simp [addressed]
  | none name names => rfl
  | @step name names r rs cs first second children below others ihbelow ihothers =>
    have hr : (F.addressed (name :: names) r).map Prod.snd = first := by
      rw [addressed, children]
      exact (map_snd_numbered cs).trans ihbelow
    rw [List.flatMap_cons, hr, ihothers]

/-! ### Walks in two stretches -/

theorem reach_append_names (names more : List String) (rs : List (Record M)) :
    F.reach (names ++ more) rs = (F.reach names rs).bind (F.reach more) := by
  induction names generalizing rs with
  | nil => rfl
  | cons name names ih =>
    simp only [List.cons_append, reach]
    cases F.follow name rs with
    | error e => rfl
    | ok below => exact ih below

/-- A path none of whose segments is empty. -/
def Filled (path : String) : Prop := "" ∉ Text.segments path

instance (path : String) : Decidable (Filled path) :=
  inferInstanceAs (Decidable ("" ∉ Text.segments path))

theorem walkNames_filled {path : String} (h : Filled path) :
    walkNames path = .ok (Text.segments path) := by
  have hnames : (Text.segments path).any String.isEmpty = false := by
    refine List.any_eq_false.mpr fun name hname hempty => ?_
    rw [String.isEmpty_iff] at hempty
    exact h (hempty ▸ hname)
  simp only [walkNames, hnames, Bool.false_eq_true, if_false]

theorem walkNames_of_mem {path : String} (h : "" ∈ Text.segments path) :
    walkNames path = .error (.fieldNotFound "" path) := by
  have hnames : (Text.segments path).any String.isEmpty = true := List.any_eq_true.mpr ⟨"", h, rfl⟩
  simp only [walkNames, hnames, if_true]

theorem walkNames_eq_ok {path : String} {names : List String} (h : walkNames path = .ok names) :
    Filled path ∧ names = Text.segments path := by
  by_cases hempty : "" ∈ Text.segments path
  · cases (walkNames_of_mem hempty).symm.trans h
  · cases (walkNames_filled hempty).symm.trans h
    exact ⟨hempty, rfl⟩

theorem Filled.append {p q : String} (hp : Filled p) (hq : Filled q) : Filled (p ++ "." ++ q) := by
  intro h
  rw [Text.segments_append] at h
  rcases List.mem_append.mp h with h | h
  · exact hp h
  · exact hq h

theorem collect_filled {path : String} (h : Filled path) (roots : List (Record M)) :
    F.collect path roots = F.reach (Text.segments path) roots := by
  simp only [collect, walkNames_filled h]

theorem collect_of_mem {path : String} (h : "" ∈ Text.segments path) (roots : List (Record M)) :
    F.collect path roots = .error (.fieldNotFound "" path) := by
  simp only [collect, walkNames_of_mem h]

theorem values_of_mem {path : String} (h : "" ∈ Text.segments path) (roots : List (Record M)) :
    F.values path roots = .error (.fieldNotFound "" path) := by
  simp only [values, walkNames_of_mem h]

theorem filled_of_collect {path : String} {roots leaves : List (Record M)}
    (h : F.collect path roots = .ok leaves) : Filled path := by
  intro hempty
  cases (collect_of_mem hempty roots).symm.trans h

/-- Collecting a path in two stretches is collecting it at once, also where it fails, and roots may
be taken in two parts. What is collected are the records at the addresses along the path, each
address once and from left to right. A path with an empty segment is refused whatever the roots
are, and neither reads nor changes any of them. -/
theorem collect_along [DecidableEq M] (F : Family M) :
    (∀ p q roots, Filled p → Filled q →
      F.collect (p ++ "." ++ q) roots = (F.collect p roots).bind (F.collect q)) ∧
    (∀ path rs ts found more, F.collect path rs = .ok found → F.collect path ts = .ok more →
      F.collect path (rs ++ ts) = .ok (found ++ more)) ∧
    (∀ path roots leaves, F.collect path roots = .ok leaves →
      ∃ found : List (List Nat × Record M), found.map Prod.snd = leaves ∧
        found.Pairwise (fun x y => x.1 < y.1) ∧
        ∀ ks leaf, (ks, leaf) ∈ found ↔ F.HasAddress (Text.segments path) roots leaf ks) ∧
    ∀ path roots, "" ∈ Text.segments path →
      F.collect path roots = .error (.fieldNotFound "" path) ∧
      F.values path roots = .error (.fieldNotFound "" path) ∧
      (∀ v, F.push path v roots = .failed roots (.fieldNotFound "" path)) ∧
      ∀ op, F.find path op roots = ⟨none, .failed roots (.fieldNotFound "" path)⟩ := by
  refine ⟨fun p q roots hp hq => ?_, fun path rs ts found more hrs hts => ?_,
    fun path roots leaves h => ?_, fun path roots h => ?_⟩
  · have hcollect : F.collect q = F.reach (Text.segments q) := funext (collect_filled hq)
    rw [collect_filled (hp.append hq), collect_filled hp, hcollect, Text.segments_append,
      reach_append_names]
  · have hpath := filled_of_collect hrs
    rw [collect_filled hpath] at hrs hts ⊢
    exact reach_append.mpr ⟨found, more, hrs, hts, rfl⟩
  · have hpath := filled_of_collect h
    rw [collect_filled hpath] at h
    refine ⟨numbered (F.addressed (Text.segments path)) roots, ?_, ?_, fun ks leaf => ?_⟩
    · exact (map_snd_numbered roots).trans (reach_eq_addressed h)
    · exact pairwise_numbered (pairwise_addressed _) roots
    · exact mem_numbered_iff_hasAddress (mem_addressed _)
  · refine ⟨collect_of_mem h roots, values_of_mem h roots, fun v => ?_, fun op => ?_⟩
    · simp only [push, walkNames_of_mem h]
    · simp only [find, walkNames_of_mem h]

end Family

/-! ### Authors of books of authors -/

namespace Registry

def bookBy (writer : Option (Record Shelf)) : Record Shelf :=
  (shelf.blank .book).setSlot 2 (.reference .author writer)

def authorOf (books : List (Record Shelf)) : Record Shelf :=
  (shelf.blank .author).setSlot 2 (.collection .book books)

/-- An author with two books, of which the second one refers to its author, and an author without
books. -/
def writers : List (Record Shelf) :=
  [authorOf [bookBy none, bookBy (some (authorOf []))], authorOf []]

/-- The one author of a book stands at the second book of the first writer. -/
theorem collect_along_writers :
    shelf.collect "books.author" writers =
      (shelf.collect "books" writers).bind (shelf.collect "author") ∧
    shelf.collect "books.author" (writers ++ writers) = .ok [authorOf [], authorOf []] ∧
    (∃ found : List (List Nat × Record Shelf), found.map Prod.snd = [authorOf []] ∧
      ([0, 1, 0], authorOf []) ∈ found) ∧
    shelf.collect "books..author" writers = .error (.fieldNotFound "" "books..author") ∧
    ∀ op, shelf.find "books..author" op writers =
      ⟨none, .failed writers (.fieldNotFound "" "books..author")⟩ := by
  obtain ⟨stretches, parts, addresses, refuses⟩ := Family.collect_along shelf
  have hcollect : shelf.collect "books.author" writers = .ok [authorOf []] := rfl
  obtain ⟨found, hfound, -, hmem⟩ := addresses _ _ _ hcollect
  have haddress : shelf.HasAddress ["books", "author"] writers (authorOf []) [0, 1, 0] :=
    ⟨_, rfl, .step rfl rfl rfl (.step rfl rfl rfl (.here _))⟩
  obtain ⟨hrefused, -, -, hunvisited⟩ := refuses "books..author" writers (by decide)
  exact ⟨stretches "books" "author" writers (by decide) (by decide),
    parts _ _ _ _ _ hcollect hcollect, ⟨found, hfound, (hmem _ _).mpr haddress⟩, hrefused,
    hunvisited⟩

end Registry

end RecordGraph
