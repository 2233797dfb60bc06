import Mathlib.Data.Finset.Basic
import Mathlib.Data.Finset.Dedup
import RecordGraph.Proofs.Schema.History

/-!
# The recursion as a machine

Building a schema asks for the models that its associations lead to, and so builds further ones.
Here these calls are taken one at a time. A stack holds the buildings under way, the innermost one
first. Beside it stands the set of models in progress, which is all that is looked at to notice a
cycle: beginning a building puts its model into the set, and ending one, well or not, takes it out.
Whatever is cached, the machine gets from every call to where `build` gets to, with the same answer.
-/

open Relation (ReflTransGen)

namespace RecordGraph

variable {M : Type}

/-- A building that has analysed its model. -/
structure Frame (M : Type) where
  analysis : Analysis M
  /-- The relations of the associations that are dealt with. -/
  relations : List (Relation M)
  /-- The other associations, the one in hand first. -/
  left : List (Association M)
  /-- What tells the keys of the target in hand, while its join model is asked for. -/
  target? : Option (KeySource M)

def Frame.model (f : Frame M) : M := f.analysis.model

/-- What a machine does next. -/
inductive Task (M : Type) where
  /-- A schema is asked for. -/
  | build (m : M)
  /-- The building of a schema was begun, and its model is analysed. -/
  | analyze (m : M)
  /-- The keys of a model are asked for. -/
  | target (m : M)
  /-- The innermost building turns to its next association. -/
  | resume
  | found (k : KeySource M)
  | failed (e : Error)

structure Machine (M : Type) where
  staging : Staging M
  inProgress : Finset M
  /-- The buildings that wait for an answer or have the next task, the innermost one first. -/
  frames : List (Frame M)
  task : Task M

namespace Task

/-- The model of the building that was begun last and has no frame yet. -/
def entered : Task M → List M
  | analyze m => [m]
  | _ => []

/-- The model whose schema is asked for. -/
def asked : Task M → List M
  | build m => [m]
  | _ => []

def hasFailed : Task M → Bool
  | failed _ => true
  | _ => false

def answer : Except Error (KeySource M) → Task M
  | .ok k => found k
  | .error e => failed e

end Task

namespace Machine

/-- The models of all buildings under way, the innermost one first. -/
def stack (σ : Machine M) : List M := σ.task.entered ++ σ.frames.map Frame.model

def start (m : M) : Machine M := ⟨.empty, ∅, [], .build m⟩

/-- No building is under way and there is an answer. -/
def ended (a : Attempt (Staging M) (Schema M)) : Machine M :=
  ⟨a.state, ∅, [], .answer (a.result.map .built)⟩

variable [DecidableEq M]

/- A building begins with `enter` and ends with `abandon` or `complete`; nothing else changes which
models are in progress. -/
def enter (σ : Machine M) (m : M) : Machine M :=
  ⟨{ σ.staging with begun := σ.staging.begun ++ [m] }, insert m σ.inProgress, σ.frames, .analyze m⟩

def abandon (σ : Machine M) (m : M) (frames : List (Frame M)) (e : Error) : Machine M :=
  ⟨σ.staging, σ.inProgress.erase m, frames, .failed e⟩

def complete (σ : Machine M) (m : M) (frames : List (Frame M)) (s : Schema M) : Machine M :=
  ⟨{ σ.staging with schemas := σ.staging.schemas ++ [(m, s)] }, σ.inProgress.erase m, frames,
    .found (.built s)⟩

end Machine

namespace Workshop

section

variable [DecidableEq M] (W : Workshop M)

/-- The innermost building resolves its association in hand. -/
def relate (σ : Machine M) (f : Frame M) (frames : List (Frame M)) (x : Association M)
    (left : List (Association M)) (target : KeySource M) (join : Option (KeySource M)) :
    Machine M :=
  match W.family.resolve f.analysis.keys x target.keys (join.map KeySource.keys) with
  | .ok r =>
    { σ with frames := ⟨f.analysis, f.relations ++ [r], left, none⟩ :: frames, task := .resume }
  | .error e => { σ with task := .failed e }

/-- The innermost building is told the keys that it asked for. -/
def receive (σ : Machine M) (f : Frame M) (frames : List (Frame M)) (k : KeySource M) :
    Option (Machine M) :=
  match f.left, f.target? with
  | [], _ => none
  | x :: left, some target => some (W.relate σ f frames x left target (some k))
  | x :: left, none =>
    match x.through with
    | none => some (W.relate σ f frames x left k none)
    | some join =>
      some { σ with frames := { f with target? := some k } :: frames, task := .target join }

/-- One step; none when there is an answer and no building that waits for it. -/
def step (σ : Machine M) : Option (Machine M) :=
  match σ.task, σ.frames with
  | .build m, _ =>
    match W.lookup? σ.staging m with
    | some s => some { σ with task := .found (.built s) }
    | none => some (σ.enter m)
  | .analyze m, frames =>
    match W.analyze m with
    | .ok a => some { σ with frames := ⟨a, [], a.associations, none⟩ :: frames, task := .resume }
    | .error e => some (σ.abandon m frames e)
  | .target m, _ =>
    match W.lookup? σ.staging m with
    | some s => some { σ with task := .found (.built s) }
    | none =>
      if m ∈ σ.inProgress then
        match W.analyze m with
        | .ok a => some { σ with task := .found (.analysed a) }
        | .error e => some { σ with task := .failed e }
      else some { σ with task := .build m }
  | .resume, f :: frames =>
    match f.left with
    | x :: _ => some { σ with task := .target x.target }
    | [] =>
      let s := Schema.ofAnalysis W.family f.analysis f.relations
      some (σ.complete f.model frames s)
  | .found k, f :: frames => W.receive σ f frames k
  | .failed e, f :: frames => some (σ.abandon f.model frames e)
  | _, [] => none

/-- Where the machine is that was asked for a schema, after a number of steps. -/
def after (m : M) : ℕ → Machine M
  | 0 => .start m
  | n + 1 => (W.step (after m n)).getD (after m n)

def Reaches : Machine M → Machine M → Prop := ReflTransGen fun σ τ => W.step σ = some τ

/-- A builder answers, and the machine that is asked for the same schema comes to the answer, with
the models in progress and the frames that it had before. -/
def CarriedOut (busy : List M) (next : Builder M) : Prop :=
  ∀ st m frames, m ∉ busy → W.lookup? st m = none →
    ∃ a, next st m = some a ∧ W.Reaches ⟨st, busy.toFinset, frames, .build m⟩
      ⟨a.state, busy.toFinset, frames, .answer (a.result.map .built)⟩

end

/-- Where a machine is after some work on the associations of its innermost building: this goes on
in the frame of the result, or it ends. -/
def worked [DecidableEq M] {α : Type} (busy : List M) (m : M) (frame : α → Frame M)
    (frames : List (Frame M)) (a : Attempt (Staging M) α) : Machine M :=
  match a.result with
  | .ok x => ⟨a.state, busy.toFinset, frame x :: frames, .resume⟩
  | .error e => ⟨a.state, busy.toFinset.erase m, frames, .failed e⟩

variable [DecidableEq M] {W : Workshop M} {busy : List M} {m : M} {next : Builder M}
  {σ τ : Machine M}

theorem Reaches.of_step (h : W.step σ = some τ) : W.Reaches σ τ := ReflTransGen.single h

theorem Reaches.trans {υ : Machine M} (h : W.Reaches σ τ) (h' : W.Reaches τ υ) :
    W.Reaches σ υ := ReflTransGen.trans h h'

/-! ### Keys -/

theorem keysOf_carried (hnext : W.CarriedOut busy next) (st : Staging M) (n : M)
    (frames : List (Frame M)) :
    ∃ a, W.keysOf next busy st n = some a ∧ W.Reaches ⟨st, busy.toFinset, frames, .target n⟩
      ⟨a.state, busy.toFinset, frames, .answer a.result⟩ := by
  simp only [keysOf]
  cases hk : W.lookup? st n with
  | some s => exact ⟨_, rfl, .of_step (by simp only [step, hk]; rfl)⟩
  | none =>
    by_cases hb : n ∈ busy
    · simp only [hb, if_true]
      cases ha : W.analyze n with
      | ok a =>
        exact ⟨_, rfl, .of_step (by simp only [step, hk, List.mem_toFinset, hb, if_true, ha]; rfl)⟩
      | error e =>
        exact ⟨_, rfl, .of_step (by simp only [step, hk, List.mem_toFinset, hb, if_true, ha]; rfl)⟩
    · simp only [hb, if_false]
      obtain ⟨⟨st', result⟩, ha, hr⟩ := hnext st n frames hb hk
      have hasks : W.Reaches ⟨st, busy.toFinset, frames, .target n⟩
          ⟨st, busy.toFinset, frames, .build n⟩ :=
        .of_step (by simp only [step, hk, List.mem_toFinset, hb, if_false])
      rw [ha]
      cases result with
      | ok s => exact ⟨_, rfl, hasks.trans hr⟩
      | error e => exact ⟨_, rfl, hasks.trans hr⟩

/-! ### Relations -/

theorem relate_reaches (st : Staging M) (f : Frame M) (x : Association M)
    (left : List (Association M)) (target : KeySource M) (join : Option (KeySource M))
    (frames : List (Frame M)) (task : Task M) :
    W.Reaches (W.relate ⟨st, busy.toFinset, f :: frames, task⟩ f frames x left target join)
      (worked busy f.model (fun r => ⟨f.analysis, f.relations ++ [r], left, none⟩) frames
        ⟨st, W.family.resolve f.analysis.keys x target.keys (join.map KeySource.keys)⟩) := by
  simp only [relate, worked]
  cases W.family.resolve f.analysis.keys x target.keys (join.map KeySource.keys) with
  | ok r => exact ReflTransGen.refl
  | error e => exact .of_step rfl

theorem relationOf_carried (hnext : W.CarriedOut busy next) (st : Staging M) (a : Analysis M)
    (relations : List (Relation M)) (x : Association M) (left : List (Association M))
    (frames : List (Frame M)) : ∃ b, W.relationOf next busy a.keys st x = some b ∧
      W.Reaches ⟨st, busy.toFinset, ⟨a, relations, x :: left, none⟩ :: frames, .resume⟩
        (worked busy a.model (fun r => ⟨a, relations ++ [r], left, none⟩) frames b) := by
  obtain ⟨⟨st₁, target⟩, h₁, hr₁⟩ :=
    keysOf_carried hnext st x.target (⟨a, relations, x :: left, none⟩ :: frames)
  have hasks : W.Reaches ⟨st, busy.toFinset, ⟨a, relations, x :: left, none⟩ :: frames, .resume⟩
      ⟨st, busy.toFinset, ⟨a, relations, x :: left, none⟩ :: frames, .target x.target⟩ :=
    .of_step rfl
  have hr₁ := hasks.trans hr₁
  simp only [relationOf, h₁]
  cases target with
  | error e => exact ⟨_, rfl, hr₁.trans (.of_step rfl)⟩
  | ok target =>
    cases hthrough : x.through with
    | none =>
      simp only [joinKeysOf]
      have htold : W.step ⟨st₁, busy.toFinset, ⟨a, relations, x :: left, none⟩ :: frames,
          .found target⟩ = some (W.relate ⟨st₁, busy.toFinset, ⟨a, relations, x :: left, none⟩ ::
          frames, .found target⟩ ⟨a, relations, x :: left, none⟩ frames x left target none) := by
        simp only [step, receive, hthrough]
      exact ⟨_, rfl, (hr₁.trans (.of_step htold)).trans (relate_reaches ..)⟩
    | some join =>
      obtain ⟨⟨st₂, k⟩, h₂, hr₂⟩ :=
        keysOf_carried hnext st₁ join (⟨a, relations, x :: left, some target⟩ :: frames)
      have htold : W.step ⟨st₁, busy.toFinset, ⟨a, relations, x :: left, none⟩ :: frames,
          .found target⟩ = some ⟨st₁, busy.toFinset, ⟨a, relations, x :: left, some target⟩ ::
          frames, .target join⟩ := by
        simp only [step, receive, hthrough]
      have hr₂ := (hr₁.trans (.of_step htold)).trans hr₂
      simp only [joinKeysOf, h₂]
      cases k with
      | error e => exact ⟨_, rfl, hr₂.trans (.of_step rfl)⟩
      | ok k => exact ⟨_, rfl, (hr₂.trans (.of_step rfl)).trans (relate_reaches ..)⟩

theorem relationsOf_carried (hnext : W.CarriedOut busy next) (st : Staging M) (a : Analysis M)
    (relations : List (Relation M)) (left : List (Association M)) (frames : List (Frame M)) :
    ∃ b, W.relationsOf next busy a.keys st left = some b ∧
      W.Reaches ⟨st, busy.toFinset, ⟨a, relations, left, none⟩ :: frames, .resume⟩
        (worked busy a.model (fun rs => ⟨a, relations ++ rs, [], none⟩) frames b) := by
  induction left generalizing st relations with
  | nil =>
    refine ⟨_, rfl, ?_⟩
    simp only [worked, Attempt.done, List.append_nil]
    exact ReflTransGen.refl
  | cons x left ih =>
    obtain ⟨⟨st₁, first⟩, h₁, hr₁⟩ := relationOf_carried hnext st a relations x left frames
    simp only [relationsOf, h₁]
    cases first with
    | error e => exact ⟨_, rfl, hr₁⟩
    | ok r =>
      obtain ⟨⟨st₂, others⟩, h₂, hr₂⟩ := ih st₁ (relations ++ [r])
      simp only [h₂]
      cases others with
      | error e => exact ⟨_, rfl, hr₁.trans hr₂⟩
      | ok rs =>
        refine ⟨_, rfl, hr₁.trans ?_⟩
        simp only [worked, List.append_assoc, List.singleton_append] at hr₂ ⊢
        exact hr₂

/-! ### Building -/

theorem toFinset_cons_erase (hm : m ∉ busy) : (m :: busy).toFinset.erase m = busy.toFinset := by
  rw [List.toFinset_cons, Finset.erase_insert (mt List.mem_toFinset.mp hm)]

/-- With fuel for all models that are not being built, the machine does what `build` does. -/
theorem build_carried (fuel : ℕ) (busy : List M)
    (hfuel : W.family.all.length ≤ fuel + busy.length) (hbusy : busy.Nodup) :
    W.CarriedOut busy (W.build fuel busy) := by
  induction fuel generalizing busy with
  | zero =>
    intro st m frames hm
    have := length_lt_of_not_mem W.family hbusy hm
    omega
  | succ fuel ih =>
    intro st m frames hm hst
    have hnext := ih (m :: busy) (by simp only [List.length_cons]; omega)
      (List.nodup_cons.mpr ⟨hm, hbusy⟩)
    have hbegins : W.Reaches ⟨st, busy.toFinset, frames, .build m⟩
        ⟨{ st with begun := st.begun ++ [m] }, (m :: busy).toFinset, frames, .analyze m⟩ :=
      .of_step (by simp only [step, hst, Machine.enter, List.toFinset_cons])
    simp only [build, hst]
    cases ha : W.analyze m with
    | error e =>
      refine ⟨_, rfl, hbegins.trans (.of_step ?_)⟩
      simp only [step, ha, Machine.abandon, toFinset_cons_erase hm]
      rfl
    | ok a =>
      have hmodel : a.model = m := Family.analyze_model ha
      have hanalyzed : W.Reaches ⟨st, busy.toFinset, frames, .build m⟩
          ⟨{ st with begun := st.begun ++ [m] }, (m :: busy).toFinset,
            ⟨a, [], a.associations, none⟩ :: frames, .resume⟩ :=
        hbegins.trans (.of_step (by simp only [step, ha]))
      obtain ⟨⟨st', result⟩, hb, hr⟩ := relationsOf_carried hnext
        { st with begun := st.begun ++ [m] } a [] a.associations frames
      have hr := hanalyzed.trans hr
      simp only [hb]
      cases result with
      | error e =>
        refine ⟨_, rfl, ?_⟩
        simp only [worked, hmodel, toFinset_cons_erase hm] at hr
        exact hr
      | ok rs =>
        refine ⟨_, rfl, hr.trans (.of_step ?_)⟩
        simp only [worked, step, Machine.complete, Frame.model, hmodel, toFinset_cons_erase hm]
        rfl

/-- Whatever is cached, a lookup answers, and the machine ends with its answer. -/
theorem run_carried (W : Workshop M) (m : M) :
    ∃ a, W.run m = some a ∧ W.Reaches (.start m) (.ended a) := by
  cases hk : W.lookup? .empty m with
  | some s =>
    refine ⟨_, run_cached ((lookup?_empty m).symm.trans hk), .of_step ?_⟩
    simp only [Machine.start, step, hk]
    rfl
  | none =>
    exact build_carried W.family.all.length [] (by simp) List.nodup_nil .empty m []
      List.not_mem_nil hk

theorem exists_after (h : W.Reaches (.start m) σ) : ∃ n, W.after m n = σ := by
  induction h with
  | refl => exact ⟨0, rfl⟩
  | tail _ hstep ih =>
    obtain ⟨n, rfl⟩ := ih
    exact ⟨n + 1, by rw [after, hstep, Option.getD_some]⟩

end Workshop

end RecordGraph
