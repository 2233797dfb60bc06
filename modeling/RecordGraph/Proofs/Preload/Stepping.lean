import RecordGraph.Proofs.Preload.Growing

/-!
# Steps and joins

A step whose owners are joined already, and below which nothing is joined yet, adds its path to the
paths that are joined. The steps of a plan come in such an order, so the plan as a whole joins all
its paths.
-/

namespace RecordGraph

open Store (Tables)

variable {M : Type}

/-- An owner with its join attached. -/
def withRelated (F : Family M) (tables : Tables) (target : Schema M) (r : Relation M)
    (unscoped : Bool) (owner : Record M) : Record M :=
  owner.setSlot r.index (Family.slotOf r (related F tables target r unscoped owner))

/-- The wishes with one more path. -/
def Wishes.with (w : Wishes) (names : List String) : Wishes :=
  { w with loads := fun more => w.loads more || more = names }

namespace Family

variable {F : Family M} {names : List String} {g g' : Record M → Record M}

theorem mapAt_congr {rs leaves : List (Record M)} (h : F.reach names rs = .ok leaves)
    (hg : ∀ r ∈ leaves, g r = g' r) : rs.map (F.mapAt g names) = rs.map (F.mapAt g' names) := by
  replace h := reaches_of_reach h
  induction h with
  | here rs => exact List.map_congr_left hg
  | none name names => rfl
  | @step name names r rs cs first second children below others ihbelow ihothers =>
    obtain ⟨i, d, s, hlocate, hs⟩ := children_cases children
    have hmap := ihbelow fun x hx => hg x (List.mem_append_left second hx)
    have hslot : s.mapRecords (F.mapAt g names) = s.mapRecords (F.mapAt g' names) := by
      refine Slot.mapRecords_congr fun cs' hcs c hc => ?_
      cases hs.symm.trans hcs
      exact List.map_inj_left.mp hmap c hc
    rw [List.map_cons, List.map_cons, ihothers fun x hx => hg x (List.mem_append_right first hx)]
    simp only [mapAt, hlocate, hslot]

end Family

/-! ### One more path -/

section

variable {W : Workshop M} {schemas : M → Schema M} {tables : Tables} {w : Wishes}

theorem related_conform {F : Family M} {target : Schema M} {r : Relation M} {unscoped : Bool}
    {owner : Record M} (hrows : ∀ row ∈ tables.rows target.table, F.Stores target row) :
    F.AllConform target.model (related F tables target r unscoped owner) := by
  intro c hc
  simp only [related] at hc
  split at hc
  · cases hc
  · obtain ⟨row, hrow, hc⟩ := List.mem_flatMap.mp hc
    rw [List.eq_of_mem_replicate hc]
    exact Family.recordOf_conforms (hrows row (List.mem_filter.mp hrow).1)

/-- A new path changes nothing below a relation that it does not lead through. -/
theorem joined_with_ne (F : Family M) (schemas : M → Schema M) (tables : Tables) (w : Wishes)
    (pre below : List String) {name : String} {q : Relation M} (hne : q.name ≠ name) (n : Nat) :
    (w.with (pre ++ name :: below)).loads (pre ++ [q.name]) = w.loads (pre ++ [q.name]) ∧
      ∀ y, joined F schemas tables (w.with (pre ++ name :: below)) n (pre ++ [q.name]) y =
        joined F schemas tables w n (pre ++ [q.name]) y := by
  have hother : ∀ more, pre ++ [q.name] <+: more → more ≠ pre ++ name :: below := by
    rintro more hmore rfl
    rw [List.prefix_append_right_inj, List.cons_prefix_cons] at hmore
    exact hne hmore.1
  have hloads : ∀ more, pre ++ [q.name] <+: more →
      (w.with (pre ++ name :: below)).loads more = w.loads more := by
    intro more hmore
    simp only [Wishes.with, hother more hmore, decide_false, Bool.or_false]
  exact ⟨hloads _ List.prefix_rfl, fun y => joined_congr rfl fun more hmore _ => hloads more hmore⟩

theorem locate_joined (hF : W.family.DistinctNames) (hdirect : ∀ m, W.direct m = .ok (schemas m))
    (tables : Tables)
    {x : Record M} (hx : W.family.Conforms x) {name : String} {r : Relation M}
    (hr : (schemas x.model).relation? name = some r) {pre : List String}
    (hloads : w.loads (pre ++ [name]) = true) (n : Nat) :
    ∃ d s, x.slots[r.index]? = some s ∧
      W.family.locate (joined W.family schemas tables w (n + 1) pre x) name =
        .ok (r.index, d, Family.slotOf r
          ((related W.family tables (schemas r.target) r (w.unscoped (pre ++ [name])) x).map
            (joined W.family schemas tables w n (pre ++ [name])))) := by
  obtain ⟨d, hd, hname, -⟩ := declared_relation hdirect hr
  obtain ⟨s, hs⟩ := hx.exists_slot hd
  have hposition := Family.position?_of_declared hF hd
  rw [hname] at hposition
  refine ⟨d, s, hs, Family.locate_of ?_ ?_ ?_⟩
  · rw [model_joined]
    exact hposition
  · rw [model_joined]
    exact hd
  · have hrname : r.name = name := (Schema.relation?_cases hr).2
    rw [slots_joined, hs, Option.map_some]
    simp only [joinedSlot, relationAt?_index hdirect hr, hrname, hloads, if_true]

theorem setSlot_joined (hF : W.family.DistinctNames) (hdirect : ∀ m, W.direct m = .ok (schemas m))
    {x : Record M} (hx : W.family.Conforms x) {name : String} {r : Relation M}
    (hr : (schemas x.model).relation? name = some r) {pre below new : List String}
    (hnew : new = pre ++ name :: below) (hloads : (w.with new).loads (pre ++ [name]) = true)
    {n : Nat} {rs : List (Record M)}
    (hrs : rs = (related W.family tables (schemas r.target) r (w.unscoped (pre ++ [name])) x).map
      (joined W.family schemas tables (w.with new) n (pre ++ [name]))) :
    (joined W.family schemas tables w (n + 1) pre x).setSlot r.index (Family.slotOf r rs) =
      joined W.family schemas tables (w.with new) (n + 1) pre x := by
  have hrname : r.name = name := (Schema.relation?_cases hr).2
  have hu : w.unscoped = (w.with new).unscoped := rfl
  obtain ⟨d, hd, -, -⟩ := declared_relation hdirect hr
  obtain ⟨s, hs⟩ := hx.exists_slot hd
  refine record_ext (by simp only [Record.model_setSlot, model_joined]) fun i => ?_
  rw [Record.slots_setSlot]
  by_cases hi : i = r.index
  · subst hi
    have hlt : r.index < (joined W.family schemas tables w (n + 1) pre x).slots.length := by
      have hsome : (joined W.family schemas tables w (n + 1) pre x).slots[r.index]? = _ :=
        slots_joined r.index
      rw [hs, Option.map_some] at hsome
      exact (List.getElem?_eq_some_iff.mp hsome).1
    rw [List.getElem?_set_self hlt, slots_joined, hs, Option.map_some, hrs]
    simp only [joinedSlot, relationAt?_index hdirect hr, hrname, hloads, if_true]
    rfl
  · rw [List.getElem?_set_ne (fun he => hi he.symm), slots_joined, slots_joined]
    refine congrArg (fun f => Option.map f x.slots[i]?) (funext fun slot => ?_)
    refine joinedSlot_congr hu (fun q hq => ?_) slot
    have hne := name_ne_of_relationAt? hF hdirect hr hi hq
    obtain ⟨hloads, hsame⟩ := joined_with_ne W.family schemas tables w pre below hne n
    rw [hnew]
    exact ⟨hloads.symm, fun y => (hsame y).symm⟩

theorem joined_with_self (F : Family M) (schemas : M → Schema M) (tables : Tables)
    {new : List String} (hbelow : ∀ more, new <+: more → w.loads more = false) (n : Nat)
    (y : Record M) : joined F schemas tables (w.with new) n new y = y := by
  refine joined_eq_self fun more hmore hne => ?_
  simp only [Wishes.with, hbelow more hmore, hne, decide_false, Bool.or_false]

/-- Attaching the join of every owner at the end of a way joins one more path. -/
theorem mapAt_joined (hF : W.family.DistinctNames) (hdirect : ∀ m, W.direct m = .ok (schemas m))
    (hrows : ∀ m, ∀ row ∈ tables.rows (schemas m).table, W.family.Stores (schemas m) row)
    {pre rest : List String} {x : Record M} (hx : W.family.Conforms x) {owner : Schema M}
    (hchain : W.Chain (schemas x.model) rest owner) {name : String} {r : Relation M}
    (hr : owner.relation? name = some r) {new : List String} (hnew : new = pre ++ (rest ++ [name]))
    (hloaded : ∀ more, more ≠ [] → more <+: rest → w.loads (pre ++ more) = true)
    (hbelow : ∀ more, new <+: more → w.loads more = false) {n : Nat} (hn : rest.length < n) :
    W.family.mapAt (withRelated W.family tables (schemas r.target) r (w.unscoped new)) rest
        (joined W.family schemas tables w n pre x) =
      joined W.family schemas tables (w.with new) n pre x := by
  -- The names still to go are those of `rest`; `pre` are those that led to `x`.
  induction rest generalizing pre x n with
  | nil =>
    cases hchain
    obtain ⟨n, rfl⟩ := Nat.exists_eq_succ_of_ne_zero (Nat.ne_of_gt hn)
    rw [List.nil_append] at hnew
    have hgrounded := Workshop.grounded_of_direct (hdirect x.model) (Schema.relation?_cases hr).1
    have howner := Workshop.owner_of_direct (hdirect x.model) (Schema.relation?_cases hr).1
    have hloads : (w.with new).loads (pre ++ [name]) = true := by
      simp only [Wishes.with, ← hnew, decide_true, Bool.or_true]
    simp only [Family.mapAt, withRelated, related_joined hF hdirect hgrounded howner.symm]
    refine setSlot_joined hF hdirect hx hr hnew hloads ?_
    rw [← hnew, List.map_congr_left fun y _ => joined_with_self W.family schemas tables hbelow n y,
      List.map_id']
  | cons first rest ih =>
    obtain ⟨n, rfl⟩ := Nat.exists_eq_succ_of_ne_zero (Nat.ne_of_gt (Nat.zero_lt_of_lt hn))
    obtain ⟨q, mid, hq, hmid, hchain⟩ := hchain
    cases (hdirect q.target).symm.trans hmid
    have htarget : (schemas q.target).model = q.target := Workshop.model_of_direct hmid
    have hloads : w.loads (pre ++ [first]) = true := by
      refine hloaded [first] (List.cons_ne_nil first []) ?_
      exact List.cons_prefix_cons.mpr ⟨rfl, List.nil_prefix⟩
    have hloads' : (w.with new).loads (pre ++ [first]) = true := by
      simp only [Wishes.with, hloads, Bool.true_or]
    have hnew' : new = pre ++ [first] ++ (rest ++ [name]) := by
      rw [hnew, List.append_assoc, List.singleton_append, List.cons_append]
    have hdeeper : ∀ y ∈ related W.family tables (schemas q.target) q
          (w.unscoped (pre ++ [first])) x,
        W.family.mapAt (withRelated W.family tables (schemas r.target) r (w.unscoped new)) rest
          (joined W.family schemas tables w n (pre ++ [first]) y) =
            joined W.family schemas tables (w.with new) n (pre ++ [first]) y := by
      intro y hy
      obtain ⟨hmodel, hconforms⟩ := related_conform (hrows q.target) y hy
      have hchain : W.Chain (schemas y.model) rest owner := by
        rw [hmodel, htarget]
        exact hchain
      refine ih hconforms hchain hnew' (fun more hne hmore => ?_) ?_
      · rw [List.append_assoc, List.singleton_append]
        exact hloaded (first :: more) (List.cons_ne_nil first more)
          (List.cons_prefix_cons.mpr ⟨rfl, hmore⟩)
      · rw [List.length_cons] at hn
        omega
    obtain ⟨d, s, hs, hlocate⟩ := locate_joined hF hdirect tables hx hq hloads n
    simp only [Family.mapAt, hlocate, mapRecords_slotOf, List.map_map]
    exact setSlot_joined hF hdirect hx hq hnew hloads' (List.map_congr_left hdeeper)

end

end RecordGraph
