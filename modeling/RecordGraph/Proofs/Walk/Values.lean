import RecordGraph.Proofs.Walk.Addresses
import RecordGraph.Proofs.Walk.Failing

/-!
# Values at the end of a path

The field that a path ends with belongs to the records that the part before its last dot leads to. If
it is an association of all of them, then reading it there and walking on come to the same: the
records that the values hold are those that are collected, in the same order, and both fail alike. A
visitor that goes down in place meets these records too.
-/

namespace RecordGraph

variable {M : Type}

namespace Text

/-- The part of a path before its last dot; there is none before a single segment. -/
def parentPath? (path : String) : Option String :=
  match (segments path).dropLast with
  | [] => none
  | names => some (joinDots names)

theorem parentPath?_append (p : String) {name : String} (h : Undotted name) :
    parentPath? (p ++ "." ++ name) = some p := by
  have hnames : (segments (p ++ "." ++ name)).dropLast = segments p := by
    rw [segments_append, segments_of_undotted h, List.dropLast_concat]
  simp only [parentPath?, hnames]
  split
  · rename_i hnil
    exact absurd hnil (segments_ne_nil p)
  · rw [joinDots_segments]

theorem getLast?_segments (path : String) :
    (segments path).getLast?.getD "" = bareName path := by
  rw [segments_eq_concat path, List.getLast?_concat, Option.getD_some]

end Text

namespace Family

variable {F : Family M}

/-- The records whose field a path ends with. -/
def ownersAt (F : Family M) (path : String) (roots : List (Record M)) :
    Except Error (List (Record M)) :=
  match Text.parentPath? path with
  | none => .ok roots
  | some parent => F.collect parent roots

theorem ownersAt_append (p : String) {name : String} (h : Text.Undotted name)
    (roots : List (Record M)) : F.ownersAt (p ++ "." ++ name) roots = F.collect p roots := by
  simp only [ownersAt, Text.parentPath?_append p h]

theorem ownersAt_eq {path : String} (h : Filled path) (roots : List (Record M)) :
    F.ownersAt path roots = F.reach (Text.segments path).dropLast roots := by
  have hnames : ∀ name ∈ (Text.segments path).dropLast, name ∈ Text.segments path :=
    fun name hname => List.dropLast_subset _ hname
  simp only [ownersAt, Text.parentPath?]
  cases hparent : (Text.segments path).dropLast with
  | nil => rfl
  | cons name names =>
    rw [hparent] at hnames
    have hsegments : Text.segments (Text.joinDots (name :: names)) = name :: names :=
      Text.segments_joinDots (List.cons_ne_nil name names)
        fun x hx => Text.undotted_of_mem_segments (hnames x hx)
    have hfilled : Filled (Text.joinDots (name :: names)) := by
      rw [Filled, hsegments]
      exact fun hempty => h (hnames "" hempty)
    show F.collect (Text.joinDots (name :: names)) roots = F.reach (name :: names) roots
    rw [collect_filled hfilled, hsegments]

theorem values_filled {path : String} (h : Filled path)
    (roots : List (Record M)) :
    F.values path roots = (F.ownersAt path roots).bind (F.readAll (Text.bareName path)) := by
  simp only [values, walkNames_filled h, Text.getLast?_segments, ownersAt_eq h]
  cases F.reach (Text.segments path).dropLast roots <;> rfl

theorem collect_eq_follow {path : String} (h : Filled path) (roots : List (Record M)) :
    F.collect path roots = (F.ownersAt path roots).bind (F.follow (Text.bareName path)) := by
  have hlast : F.reach [Text.bareName path] = F.follow (Text.bareName path) := by
    funext owners
    simp only [reach]
    cases F.follow (Text.bareName path) owners <;> rfl
  rw [collect_filled h, ownersAt_eq h, ← hlast, ← reach_append_names, ← Text.segments_eq_concat]

/-! ### Reading an association -/

theorem records_read {R : Type} {s : Slot M R} {rs : List R} (h : s.records? = some rs) :
    s.read.records = rs := by
  cases s with
  | column T x => cases h
  | reference target record =>
    cases h
    rfl
  | collection target records =>
    cases h
    rfl

theorem exists_children {r : Record M} {name : String} (hr : F.Conforms r)
    (h : (F.target? r.model name).isSome) :
    ∃ cs, F.children name r = .ok cs ∧ ∃ v, F.getField r name = .ok v ∧ v.records = cs := by
  obtain ⟨t, ht⟩ := Option.isSome_iff_exists.mp h
  obtain ⟨i, hi, ht⟩ := Option.bind_eq_some_iff.mp ht
  obtain ⟨d, hd, ht⟩ := Option.bind_eq_some_iff.mp ht
  obtain ⟨s, hs⟩ := hr.exists_slot hd
  obtain ⟨cs, hcs, -⟩ := (hr.suits hd hs).records ht
  have hlocate := locate_of hi hd hs
  exact ⟨cs, children_of_locate hlocate hcs, s.read, getField_of_locate hlocate, records_read hcs⟩

theorem reach_conforms {names : List String} {rs owners : List (Record M)}
    (hrs : ∀ r ∈ rs, F.Conforms r) (h : F.reach names rs = .ok owners) :
    ∀ r ∈ owners, F.Conforms r := by
  replace h := reaches_of_reach h
  induction h with
  | here rs => exact hrs
  | none name names => exact hrs
  | @step name names r rs cs first second children below others ihbelow ihothers =>
    obtain ⟨t, -, hcs⟩ := children_allConform (hrs r List.mem_cons_self) children
    intro x hx
    rcases List.mem_append.mp hx with hx | hx
    · exact ihbelow (fun c hc => (hcs c hc).2) x hx
    · exact ihothers (fun y hy => hrs y (List.mem_cons_of_mem r hy)) x hx

theorem readAll_follow {name : String} {owners : List (Record M)}
    (howners : ∀ r ∈ owners, F.Conforms r)
    (h : ∀ r ∈ owners, (F.target? r.model name).isSome) :
    ∃ vs, F.readAll name owners = .ok vs ∧ vs.length = owners.length ∧
      F.follow name owners = .ok (vs.flatMap FieldValue.records) := by
  induction owners with
  | nil => exact ⟨[], rfl, rfl, rfl⟩
  | cons r owners ih =>
    obtain ⟨cs, hcs, v, hv, rfl⟩ :=
      exists_children (howners r List.mem_cons_self) (h r List.mem_cons_self)
    obtain ⟨vs, hvs, hlength, hfollow⟩ := ih
      (fun x hx => howners x (List.mem_cons_of_mem r hx))
      fun x hx => h x (List.mem_cons_of_mem r hx)
    refine ⟨v :: vs, ?_, ?_, ?_⟩
    · simp only [readAll, hv, hvs]
    · rw [List.length_cons, List.length_cons, hlength]
    · simp only [follow, hcs, hfollow, List.flatMap_cons]

/-! ### Records that are met -/

/-- The records that a visitor meets at the end of the names, in the order in which it goes. -/
def met (F : Family M) (names : List String) (roots : List (Record M)) : List (Record M) :=
  (visitList (F.visitAt (fun seen r => (seen ++ [r], r)) names) [] roots).1

theorem visitList_gather {R : Type} (seen rs : List R) :
    (visitList (fun seen r => (seen ++ [r], r)) seen rs).1 = seen ++ rs := by
  induction rs generalizing seen with
  | nil => exact (List.append_nil seen).symm
  | cons r rs ih => simp only [visitList, ih, List.append_assoc, List.singleton_append]

theorem met_eq {names : List String} {roots leaves : List (Record M)}
    (h : F.reach names roots = .ok leaves) : F.met names roots = leaves := by
  rw [met, visitList_eq_refill _ h, visitList_gather, List.nil_append]

/-! ### Values and records -/

section

variable {path : String} {roots owners : List (Record M)}

theorem values_of_owners (hfilled : Filled path) (hroots : ∀ r ∈ roots, F.Conforms r)
    (howners : F.ownersAt path roots = .ok owners)
    (h : ∀ r ∈ owners, (F.target? r.model (Text.bareName path)).isSome) :
    ∃ vs, F.values path roots = .ok vs ∧ vs.length = owners.length ∧
      F.collect path roots = .ok (vs.flatMap FieldValue.records) := by
  have hreach := (ownersAt_eq hfilled roots).symm.trans howners
  obtain ⟨vs, hvs, hlength, hfollow⟩ := readAll_follow (reach_conforms hroots hreach) h
  refine ⟨vs, ?_, hlength, ?_⟩
  · rw [values_filled hfilled, howners, Except.bind, hvs]
  · rw [collect_eq_follow hfilled, howners, Except.bind, hfollow]

theorem values_of_error {e : Error} (hfilled : Filled path)
    (howners : F.ownersAt path roots = .error e) :
    F.values path roots = .error e ∧ F.collect path roots = .error e := by
  rw [values_filled hfilled, collect_eq_follow hfilled, howners]
  exact ⟨rfl, rfl⟩

/-- Where a path ends with an association of all records that it comes to, collecting it gives the
records that its values hold, or the error of reading them, and there is one value for each of those
records. Visiting in place comes to the collected records too. -/
theorem collect_eq_values (hroots : ∀ r ∈ roots, F.Conforms r)
    (hlast : ∀ owners, F.ownersAt path roots = .ok owners →
      ∀ r ∈ owners, (F.target? r.model (Text.bareName path)).isSome) :
    F.collect path roots =
      (F.values path roots).map (fun vs => vs.flatMap FieldValue.records) ∧
    (∀ vs, F.values path roots = .ok vs →
      ∃ owners, F.ownersAt path roots = .ok owners ∧ vs.length = owners.length) ∧
    ∀ leaves, F.collect path roots = .ok leaves → F.met (Text.segments path) roots = leaves := by
  by_cases hfilled : Filled path
  · have hmet : ∀ leaves, F.collect path roots = .ok leaves →
        F.met (Text.segments path) roots = leaves :=
      fun leaves h => met_eq ((collect_filled hfilled roots).symm.trans h)
    cases howners : F.ownersAt path roots with
    | error e =>
      obtain ⟨hvalues, hcollect⟩ := values_of_error hfilled howners
      refine ⟨by rw [hcollect, hvalues, Except.map], fun vs hvs => ?_, hmet⟩
      cases hvalues.symm.trans hvs
    | ok owners =>
      obtain ⟨vs, hvalues, hlength, hcollect⟩ :=
        values_of_owners hfilled hroots howners (hlast owners howners)
      refine ⟨by rw [hcollect, hvalues, Except.map], fun vs' hvs => ?_, hmet⟩
      cases hvalues.symm.trans hvs
      exact ⟨owners, rfl, hlength⟩
  · have hcollect : F.collect path roots = _ := collect_of_mem (not_not.mp hfilled) roots
    have hvalues : F.values path roots = _ := values_of_mem (not_not.mp hfilled) roots
    refine ⟨by rw [hcollect, hvalues, Except.map], fun vs hvs => ?_, fun leaves h => ?_⟩
    · cases hvalues.symm.trans hvs
    · cases hcollect.symm.trans h

end

end Family

namespace Registry

theorem conforms_bookBy {writer : Option (Record Shelf)}
    (h : ∀ r ∈ writer.toList, r.model = .author ∧ shelf.Conforms r) :
    shelf.Conforms (bookBy writer) := by
  refine (Family.conforms_blank Shelf.book).setSlot (d := ⟨"author", "", .reference .author false⟩)
    rfl ⟨rfl, fun cs hcs c hc => ?_⟩
  cases hcs
  obtain ⟨hmodel, hconforms⟩ := h c hc
  exact ⟨congrArg some hmodel.symm, hconforms⟩

theorem conforms_authorOf {books : List (Record Shelf)} (h : shelf.AllConform .book books) :
    shelf.Conforms (authorOf books) := by
  refine (Family.conforms_blank Shelf.author).setSlot (d := ⟨"books", "", .collection .book none⟩)
    rfl ⟨rfl, fun cs hcs c hc => ?_⟩
  cases hcs
  obtain ⟨hmodel, hconforms⟩ := h c hc
  exact ⟨congrArg some hmodel.symm, hconforms⟩

theorem writers_conform : shelf.AllConform .author writers := by
  have hnone : shelf.Conforms (authorOf []) := conforms_authorOf fun r hr => nomatch hr
  have hbooks : shelf.AllConform .book [bookBy none, bookBy (some (authorOf []))] := by
    refine List.forall_mem_cons.mpr ⟨⟨rfl, ?_⟩, List.forall_mem_singleton.mpr ⟨rfl, ?_⟩⟩
    · exact conforms_bookBy fun r hr => nomatch hr
    · exact conforms_bookBy (List.forall_mem_singleton.mpr ⟨rfl, hnone⟩)
  exact List.forall_mem_cons.mpr ⟨⟨rfl, conforms_authorOf hbooks⟩,
    List.forall_mem_singleton.mpr ⟨rfl, hnone⟩⟩

/-- The two books have one author between them. -/
theorem collect_writers_values :
    shelf.collect "books.author" writers = (shelf.values "books.author" writers).map
      (fun vs => vs.flatMap FieldValue.records) ∧
    (∃ vs, shelf.values "books.author" writers = .ok vs ∧ vs.length = 2) ∧
    shelf.met ["books", "author"] writers = [authorOf []] := by
  have hname : Text.Undotted "author" := by decide +kernel
  have howners : shelf.ownersAt "books.author" writers =
      .ok [bookBy none, bookBy (some (authorOf []))] :=
    Family.ownersAt_append "books" hname writers
  have hlast : ∀ owners, shelf.ownersAt "books.author" writers = .ok owners →
      ∀ r ∈ owners, (shelf.target? r.model (Text.bareName "books.author")).isSome := by
    intro owners h r hr
    cases howners.symm.trans h
    simp only [List.mem_cons, List.not_mem_nil, or_false] at hr
    rcases hr with rfl | rfl <;> rfl
  obtain ⟨hvalues, hlength, hmet⟩ :=
    Family.collect_eq_values (fun r hr => (writers_conform r hr).2) hlast
  refine ⟨hvalues, ?_, hmet _ rfl⟩
  have hread : shelf.values "books.author" writers = .ok [.one none, .one (some (authorOf []))] :=
    rfl
  obtain ⟨owners, h, heq⟩ := hlength _ hread
  cases howners.symm.trans h
  exact ⟨_, hread, heq⟩

end Registry

end RecordGraph
