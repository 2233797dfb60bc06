import RecordGraph.Proofs.Preload.Answering
import RecordGraph.Proofs.Preload.Running

/-!
# Joining owner by owner

The records that some paths lead to can be attached without a plan: every association on a path gets
the join of its owner, and the records in it are treated the same way for the rest of the path. A
step for one more path turns the records joined for the paths before it into those joined for this
path too.
-/

namespace RecordGraph

open Store (Tables)

variable {M : Type}

/-! ### The reference -/

/-- Which paths are loaded, and which of them with deleted records. -/
structure Wishes where
  loads : List String → Bool
  unscoped : List String → Bool

def relationAt? (F : Family M) (schemas : M → Schema M) (m : M) (i : Nat) : Option (Relation M) :=
  (F.model m).fields[i]?.bind fun d => (schemas m).relation? d.name

/-- The slot of an owner in some place, with the join of its association if the path is loaded. The
names lead to the owner, and `below` treats the joined records. -/
def joinedSlot (F : Family M) (schemas : M → Schema M) (tables : Tables) (w : Wishes)
    (below : List String → Record M → Record M) (names : List String) (owner : Record M) (i : Nat)
    (slot : Slot M (Record M)) : Slot M (Record M) :=
  match relationAt? F schemas owner.model i with
  | none => slot
  | some r =>
    if w.loads (names ++ [r.name]) then
      Family.slotOf r ((related F tables (schemas r.target) r (w.unscoped (names ++ [r.name]))
        owner).map (below (names ++ [r.name])))
    else slot

/-- An owner with its associations joined, down to a number of levels. -/
def joined (F : Family M) (schemas : M → Schema M) (tables : Tables) (w : Wishes) :
    Nat → List String → Record M → Record M
  | 0, _, owner => owner
  | n + 1, names, owner => owner.withSlots (owner.slots.mapIdx
      (joinedSlot F schemas tables w (joined F schemas tables w n) names owner))

section

variable {F : Family M} {schemas : M → Schema M} {tables : Tables} {w w' : Wishes} {n : Nat}
  {names : List String} {x : Record M}

@[simp] theorem model_joined : (joined F schemas tables w n names x).model = x.model := by
  cases n <;> rfl

theorem slots_joined (i : Nat) : (joined F schemas tables w (n + 1) names x).slots[i]? =
    x.slots[i]?.map (joinedSlot F schemas tables w (joined F schemas tables w n) names x i) := by
  rw [joined, Record.slots_withSlots, List.getElem?_mapIdx]

theorem record_ext {x y : Record M} (hm : x.model = y.model)
    (hs : ∀ i : Nat, x.slots[i]? = y.slots[i]?) : x = y := by
  cases x with
  | mk m ss =>
    cases y with
    | mk m' ss' =>
      cases hm
      exact congrArg (Record.mk m) (List.ext_getElem? hs)

theorem joinedSlot_congr {below below' : List String → Record M → Record M} {i : Nat}
    (hu : w.unscoped = w'.unscoped)
    (h : ∀ r, relationAt? F schemas x.model i = some r →
      w.loads (names ++ [r.name]) = w'.loads (names ++ [r.name]) ∧
        ∀ y, below (names ++ [r.name]) y = below' (names ++ [r.name]) y)
    (slot : Slot M (Record M)) :
    joinedSlot F schemas tables w below names x i slot =
      joinedSlot F schemas tables w' below' names x i slot := by
  simp only [joinedSlot]
  cases hr : relationAt? F schemas x.model i with
  | none => rfl
  | some r =>
    obtain ⟨hloads, hbelow⟩ := h r hr
    have hsame : below (names ++ [r.name]) = below' (names ++ [r.name]) := funext hbelow
    simp only [hloads, hu, hsame]

/-- The join depends only on the paths below the owner. -/
theorem joined_congr (hu : w.unscoped = w'.unscoped)
    (h : ∀ more, names <+: more → more ≠ names → w.loads more = w'.loads more) :
    joined F schemas tables w n names x = joined F schemas tables w' n names x := by
  induction n generalizing names x with
  | zero => rfl
  | succ n ih =>
    refine record_ext (by rw [model_joined, model_joined]) fun i => ?_
    rw [slots_joined, slots_joined]
    refine congrArg (fun f => Option.map f x.slots[i]?) (funext fun slot => ?_)
    refine joinedSlot_congr hu (fun r _ => ⟨?_, fun y => ih fun more hmore _ => ?_⟩) slot
    · exact h _ (List.prefix_append names [r.name]) (by simp)
    · have hlength := hmore.length_le
      refine h more ((List.prefix_append names [r.name]).trans hmore) ?_
      rintro rfl
      rw [List.length_append, List.length_singleton] at hlength
      omega

theorem joined_eq_self (h : ∀ more, names <+: more → more ≠ names → w.loads more = false) :
    joined F schemas tables w n names x = x := by
  cases n with
  | zero => rfl
  | succ n =>
    refine record_ext (by rw [model_joined]) fun i => ?_
    have hslot : joinedSlot F schemas tables w (joined F schemas tables w n) names x i = id := by
      funext slot
      simp only [joinedSlot]
      cases relationAt? F schemas x.model i with
      | none => rfl
      | some r =>
        have hnone := h (names ++ [r.name]) (List.prefix_append names [r.name]) (by simp)
        simp only [hnone, Bool.false_eq_true, if_false, id]
    rw [slots_joined, hslot, Option.map_id_fun, id]

end

theorem mapRecords_slotOf (r : Relation M) (f : Record M → Record M) (rs : List (Record M)) :
    (Family.slotOf r rs).mapRecords f = Family.slotOf r (rs.map f) := by
  cases hk : r.kind.isToOne with
  | true => simp [Family.slotOf, hk, Slot.mapRecords]
  | false => simp [Family.slotOf, hk, Slot.mapRecords]

/-! ### Places of relations -/

section

variable {W : Workshop M} {schemas : M → Schema M} {m : M} {r : Relation M} {name : String}

theorem declared_unique (hF : W.family.DistinctNames) {i j : Nat} {d e : FieldDecl M}
    (hd : (W.family.model m).fields[i]? = some d) (he : (W.family.model m).fields[j]? = some e)
    (hname : d.name = e.name) : i = j := by
  have hi := Family.position?_of_declared hF hd
  rw [hname, Family.position?_of_declared hF he] at hi
  exact (Option.some_inj.mp hi).symm

theorem declared_relation (hdirect : ∀ m, W.direct m = .ok (schemas m))
    (hr : (schemas m).relation? name = some r) :
    ∃ d, (W.family.model m).fields[r.index]? = some d ∧ d.name = name ∧
      d.type.target? = some r.target := by
  obtain ⟨hmem, hname⟩ := Schema.relation?_cases hr
  obtain ⟨d, hd, hfield, htarget⟩ := (Workshop.grounded_of_direct (hdirect m) hmem).declared
  rw [Workshop.owner_of_direct (hdirect m) hmem] at hd
  exact ⟨d, hd, hfield.trans hname, htarget⟩

theorem relationAt?_index (hdirect : ∀ m, W.direct m = .ok (schemas m))
    (hr : (schemas m).relation? name = some r) :
    relationAt? W.family schemas m r.index = some r := by
  obtain ⟨d, hd, hname, -⟩ := declared_relation hdirect hr
  simp only [relationAt?, hd, Option.bind_some, hname, hr]

theorem name_ne_of_relationAt? (hF : W.family.DistinctNames)
    (hdirect : ∀ m, W.direct m = .ok (schemas m)) (hr : (schemas m).relation? name = some r)
    {i : Nat} (hi : i ≠ r.index) {q : Relation M}
    (hq : relationAt? W.family schemas m i = some q) : q.name ≠ name := by
  obtain ⟨d, hd, hname, -⟩ := declared_relation hdirect hr
  obtain ⟨e, he, hq⟩ := Option.bind_eq_some_iff.mp hq
  rintro rfl
  have hsame : e.name = d.name := (Schema.relation?_cases hq).2.symm.trans hname.symm
  exact hi (declared_unique hF he hd hsame)

theorem relationAt?_column (hF : W.family.DistinctNames)
    (hdirect : ∀ m, W.direct m = .ok (schemas m)) {i : Nat} {d : FieldDecl M} {T : ColumnType}
    (hd : (W.family.model m).fields[i]? = some d) (hT : d.type = .column T) :
    relationAt? W.family schemas m i = none := by
  cases hq : relationAt? W.family schemas m i with
  | none => rfl
  | some q =>
    obtain ⟨e, he, hq⟩ := Option.bind_eq_some_iff.mp hq
    cases hd.symm.trans he
    obtain ⟨f, hf, hname, htarget⟩ := declared_relation hdirect hq
    have hsame := declared_unique hF hf hd hname
    rw [hsame, hd] at hf
    cases hf
    rw [hT] at htarget
    cases htarget

variable {tables : Tables} {w : Wishes} {n : Nat} {names : List String} {x : Record M}

theorem keyOf_joined (hF : W.family.DistinctNames) (hdirect : ∀ m, W.direct m = .ok (schemas m))
    (hr : W.family.Grounded r) (hm : x.model = r.owner) :
    W.family.keyOf r (joined W.family schemas tables w n names x) = W.family.keyOf r x := by
  cases n with
  | zero => rfl
  | succ n =>
    obtain ⟨d, hd, hname, T, hT⟩ := hr.source
    obtain ⟨i, hi⟩ := List.mem_iff_getElem?.mp hd
    rw [← hm] at hi
    have hposition := Family.position?_of_declared hF hi
    rw [hname] at hposition
    have hslot : joinedSlot W.family schemas tables w (joined W.family schemas tables w n) names
        x i = id := by
      funext slot
      simp only [joinedSlot, relationAt?_column hF hdirect hi hT, id]
    have hsame : (joined W.family schemas tables w (n + 1) names x).slots[i]? = x.slots[i]? := by
      rw [slots_joined, hslot, Option.map_id_fun, id]
    simp only [Family.keyOf, Family.getField, Family.locate, model_joined, hposition, hi, hsame]

theorem related_joined (hF : W.family.DistinctNames) (hdirect : ∀ m, W.direct m = .ok (schemas m))
    (hr : W.family.Grounded r) (hm : x.model = r.owner) (target : Schema M) (unscoped : Bool) :
    related W.family tables target r unscoped (joined W.family schemas tables w n names x) =
      related W.family tables target r unscoped x := by
  simp only [related, keyOf_joined hF hdirect hr hm]

end

end RecordGraph
