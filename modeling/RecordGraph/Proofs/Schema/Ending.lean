import RecordGraph.Proofs.Schema.Machine
import RecordGraph.Proofs.Schema.Staging

/-!
# Every lookup ends

However models refer to one another and whatever is cached, the recursion that builds schemas ends.
It begins the building of a model at most once and never for a cached one, its models in progress
are those on its stack, each once, and a model in progress always has its analysis. One step is told
by `Moves`; what every step preserves, also one that leaves a building after an error, is `Orderly`.
-/

namespace RecordGraph

variable {M : Type} [DecidableEq M]

namespace Workshop

/-! ### One step -/

/-- What a step does: it begins a building, hands work on within the buildings under way, or ends
the innermost one. -/
inductive Moves (W : Workshop M) (σ : Machine M) : Machine M → Prop where
  | enter {m : M} (htask : σ.task = .build m) (hm : W.lookup? σ.staging m = none) :
      Moves W σ (σ.enter m)
  | turn {frames : List (Frame M)} {task : Task M} (hσ : σ.task.hasFailed = false)
      (hentered : task.entered = []) (hstack : σ.stack = frames.map Frame.model)
      (hframes : ∀ f ∈ frames, W.analyze f.model = .ok f.analysis ∨
        ∃ g ∈ σ.frames, g.analysis = f.analysis)
      (hfresh : ∀ m ∈ task.asked, m ∉ σ.inProgress) :
      Moves W σ ⟨σ.staging, σ.inProgress, frames, task⟩
  | complete {m : M} {frames : List (Frame M)} (s : Schema M) (hσ : σ.task.hasFailed = false)
      (hstack : σ.stack = m :: frames.map Frame.model) (hframes : ∀ f ∈ frames, f ∈ σ.frames) :
      Moves W σ (σ.complete m frames s)
  | abandon {m : M} {frames : List (Frame M)} (e : Error)
      (hstack : σ.stack = m :: frames.map Frame.model) (hframes : ∀ f ∈ frames, f ∈ σ.frames) :
      Moves W σ (σ.abandon m frames e)

variable {W : Workshop M} {σ τ : Machine M} {m : M} {frames : List (Frame M)}

omit [DecidableEq M] in
theorem stack_of_found {f : Frame M} {k : KeySource M} (htask : σ.task = .found k)
    (hframes : σ.frames = f :: frames) : σ.stack = f.model :: frames.map Frame.model := by
  simp only [Machine.stack, htask, hframes, Task.entered, List.nil_append, List.map_cons]

omit [DecidableEq M] in
theorem exists_frame_of_mem {f f' g : Frame M} (hframes : σ.frames = f :: frames)
    (hg : g ∈ f' :: frames) (hf : f.analysis = f'.analysis) :
    ∃ g' ∈ σ.frames, g'.analysis = g.analysis := by
  rw [hframes]
  rcases List.mem_cons.mp hg with rfl | hg
  · exact ⟨f, List.mem_cons_self, hf⟩
  · exact ⟨g, List.mem_cons_of_mem f hg, rfl⟩

theorem moves_relate {f : Frame M} {k : KeySource M} (htask : σ.task = .found k)
    (hframes : σ.frames = f :: frames) (x : Association M) (left : List (Association M))
    (target : KeySource M) (join : Option (KeySource M)) :
    W.Moves σ (W.relate σ f frames x left target join) := by
  have hσ : σ.task.hasFailed = false := by rw [htask]; rfl
  have hstack := stack_of_found htask hframes
  simp only [relate]
  cases W.family.resolve f.analysis.keys x target.keys (join.map KeySource.keys) with
  | ok r =>
    exact .turn hσ rfl hstack (fun g hg => Or.inr (exists_frame_of_mem hframes hg rfl))
      (List.forall_mem_nil _)
  | error e =>
    refine .turn hσ rfl ?_ (fun g hg => Or.inr ⟨g, hg, rfl⟩) (List.forall_mem_nil _)
    rw [hstack, hframes, List.map_cons]

theorem moves_receive {f : Frame M} {k : KeySource M} (htask : σ.task = .found k)
    (hframes : σ.frames = f :: frames) (hτ : W.receive σ f frames k = some τ) : W.Moves σ τ := by
  simp only [receive] at hτ
  split at hτ
  · cases hτ
  · cases hτ
    exact moves_relate htask hframes ..
  · split at hτ
    · cases hτ
      exact moves_relate htask hframes ..
    · cases hτ
      have hstack := stack_of_found htask hframes
      exact .turn (by rw [htask]; rfl) rfl hstack
        (fun g hg => Or.inr (exists_frame_of_mem hframes hg rfl)) (List.forall_mem_nil _)

theorem moves_step (hτ : W.step σ = some τ) : W.Moves σ τ := by
  obtain ⟨st, inProgress, frames, task⟩ := σ
  have kept : ∀ f ∈ frames, W.analyze f.model = .ok f.analysis ∨
      ∃ g ∈ frames, g.analysis = f.analysis := fun f hf => Or.inr ⟨f, hf, rfl⟩
  cases task with
  | build m =>
    simp only [step] at hτ
    cases hk : W.lookup? st m with
    | some s =>
      rw [hk] at hτ
      cases hτ
      exact .turn rfl rfl rfl kept (List.forall_mem_nil _)
    | none =>
      rw [hk] at hτ
      cases hτ
      exact .enter rfl hk
  | analyze m =>
    simp only [step] at hτ
    cases ha : W.analyze m with
    | ok a =>
      rw [ha] at hτ
      cases hτ
      have hmodel : a.model = m := Family.analyze_model ha
      refine .turn rfl rfl ?_ ?_ (List.forall_mem_nil _)
      · simp only [Machine.stack, Task.entered, List.map_cons, Frame.model, hmodel,
          List.singleton_append]
      · refine List.forall_mem_cons.mpr ⟨Or.inl ?_, kept⟩
        rw [Frame.model, hmodel, ha]
    | error e =>
      rw [ha] at hτ
      cases hτ
      exact .abandon e rfl fun _ hf => hf
  | target m =>
    simp only [step] at hτ
    cases hk : W.lookup? st m with
    | some s =>
      rw [hk] at hτ
      cases hτ
      exact .turn rfl rfl rfl kept (List.forall_mem_nil _)
    | none =>
      simp only [hk] at hτ
      by_cases hm : m ∈ inProgress
      · simp only [hm, if_true] at hτ
        cases ha : W.analyze m with
        | ok a =>
          rw [ha] at hτ
          cases hτ
          exact .turn rfl rfl rfl kept (List.forall_mem_nil _)
        | error e =>
          rw [ha] at hτ
          cases hτ
          exact .turn rfl rfl rfl kept (List.forall_mem_nil _)
      · simp only [hm, if_false] at hτ
        cases hτ
        exact .turn rfl rfl rfl kept (List.forall_mem_singleton.mpr hm)
  | resume =>
    cases frames with
    | nil => cases hτ
    | cons f frames =>
      simp only [step] at hτ
      split at hτ
      · cases hτ
        exact .turn rfl rfl rfl kept (List.forall_mem_nil _)
      · cases hτ
        exact .complete _ rfl rfl fun _ hf => List.mem_cons_of_mem f hf
  | found k =>
    cases frames with
    | nil => cases hτ
    | cons f frames => exact moves_receive rfl rfl hτ
  | failed e =>
    cases frames with
    | nil => cases hτ
    | cons f frames =>
      cases hτ
      exact .abandon e rfl fun _ hf => List.mem_cons_of_mem f hf

theorem Moves.begun_eq (h : W.Moves σ τ) :
    τ.staging.begun = σ.staging.begun ++ τ.task.entered := by
  cases h with
  | enter htask hm => rfl
  | turn hσ hentered hstack hframes hfresh => simp only [hentered, List.append_nil]
  | complete s hσ hstack hframes => exact (List.append_nil _).symm
  | abandon e hstack hframes => exact (List.append_nil _).symm

/-! ### What every step preserves -/

structure Orderly (W : Workshop M) (σ : Machine M) : Prop where
  stack_nodup : σ.stack.Nodup
  inProgress_eq : σ.inProgress = σ.stack.toFinset
  analysed : ∀ f ∈ σ.frames, W.analyze f.model = .ok f.analysis
  once : σ.staging.begun.Nodup
  uncached : ∀ k ∈ σ.staging.begun, schemaIn? k W.cache = none
  /-- Until something fails, what was begun is completed or under way. -/
  accounted : σ.task.hasFailed = false → ∀ k ∈ σ.staging.begun,
    k ∈ σ.staging.schemas.map Prod.fst ∨ k ∈ σ.stack
  fresh : ∀ m ∈ σ.task.asked, m ∉ σ.stack

theorem orderly_start (m : M) : W.Orderly (.start m) where
  stack_nodup := List.nodup_nil
  inProgress_eq := rfl
  analysed := List.forall_mem_nil _
  once := List.nodup_nil
  uncached := List.forall_mem_nil _
  accounted _ := List.forall_mem_nil _
  fresh _ _ := List.not_mem_nil

theorem Orderly.mem_inProgress (h : W.Orderly σ) : m ∈ σ.inProgress ↔ m ∈ σ.stack := by
  rw [h.inProgress_eq, List.mem_toFinset]

theorem Orderly.enter (h : W.Orderly σ) (htask : σ.task = .build m)
    (hm : W.lookup? σ.staging m = none) : W.Orderly (σ.enter m) := by
  obtain ⟨hcache, hnew⟩ := lookup?_eq_none.mp hm
  have hstack : (σ.enter m).stack = m :: σ.stack := by
    simp only [Machine.stack, Machine.enter, htask, Task.entered, List.nil_append,
      List.singleton_append]
  have hfresh : m ∉ σ.stack := h.fresh m (by rw [htask]; exact List.mem_singleton_self m)
  have hrunning : σ.task.hasFailed = false := by rw [htask]; rfl
  have hunbegun : m ∉ σ.staging.begun := fun hb =>
    (h.accounted hrunning m hb).elim (schemaIn?_eq_none.mp hnew) hfresh
  refine ⟨?_, ?_, h.analysed, ?_, fun k hk => ?_, fun _ k hk => ?_, List.forall_mem_nil _⟩
  · rw [hstack]
    exact List.nodup_cons.mpr ⟨hfresh, h.stack_nodup⟩
  · rw [hstack, List.toFinset_cons, ← h.inProgress_eq]
    rfl
  · exact List.nodup_append.mpr ⟨h.once, List.nodup_singleton m, fun k hk l hl hkl =>
      hunbegun (List.mem_singleton.mp hl ▸ hkl ▸ hk)⟩
  · rcases List.mem_append.mp hk with hk | hk
    · exact h.uncached k hk
    · rw [List.mem_singleton.mp hk]
      exact hcache
  · rw [hstack]
    rcases List.mem_append.mp hk with hk | hk
    · exact (h.accounted hrunning k hk).imp id (List.mem_cons_of_mem m)
    · exact Or.inr (List.mem_singleton.mp hk ▸ List.mem_cons_self)

theorem Orderly.inProgress_erase (h : W.Orderly σ) {rest : List M} (hstack : σ.stack = m :: rest) :
    rest.Nodup ∧ σ.inProgress.erase m = rest.toFinset := by
  obtain ⟨hm, hrest⟩ := List.nodup_cons.mp (hstack ▸ h.stack_nodup)
  exact ⟨hrest, by rw [h.inProgress_eq, hstack, toFinset_cons_erase hm]⟩

theorem Orderly.complete (h : W.Orderly σ) (hσ : σ.task.hasFailed = false)
    (hstack : σ.stack = m :: frames.map Frame.model) (hframes : ∀ f ∈ frames, f ∈ σ.frames)
    (s : Schema M) : W.Orderly (σ.complete m frames s) := by
  obtain ⟨hrest, herase⟩ := h.inProgress_erase hstack
  refine ⟨hrest, herase, fun f hf => h.analysed f (hframes f hf), h.once, h.uncached,
    fun _ k hk => ?_, List.forall_mem_nil _⟩
  simp only [Machine.complete, List.map_append, List.map_cons, List.map_nil, List.mem_append,
    List.mem_singleton]
  rcases h.accounted hσ k hk with hstaged | hbusy
  · exact Or.inl (Or.inl hstaged)
  · rw [hstack] at hbusy
    rcases List.mem_cons.mp hbusy with rfl | hbusy
    · exact Or.inl (Or.inr rfl)
    · exact Or.inr hbusy

theorem Orderly.moves (h : W.Orderly σ) (hτ : W.Moves σ τ) : W.Orderly τ := by
  cases hτ with
  | enter htask hm => exact h.enter htask hm
  | @turn frames task hσ hentered hstack hframes hfresh =>
    have hsame : Machine.stack ⟨σ.staging, σ.inProgress, frames, task⟩ = σ.stack := by
      rw [hstack, Machine.stack, hentered, List.nil_append]
    refine ⟨hsame ▸ h.stack_nodup, hsame ▸ h.inProgress_eq, fun f hf => ?_, h.once, h.uncached,
      fun _ => hsame ▸ h.accounted hσ, fun k hk => ?_⟩
    · rcases hframes f hf with hanalysed | ⟨g, hg, heq⟩
      · exact hanalysed
      · have hanalysed := h.analysed g hg
        rw [Frame.model, heq] at hanalysed
        exact hanalysed
    · rw [hsame, ← h.mem_inProgress]
      exact hfresh k hk
  | complete s hσ hstack hframes => exact h.complete hσ hstack hframes s
  | abandon e hstack hframes =>
    obtain ⟨hrest, herase⟩ := h.inProgress_erase hstack
    exact ⟨hrest, herase, fun f hf => h.analysed f (hframes f hf), h.once, h.uncached,
      fun hrunning => absurd hrunning Bool.noConfusion, List.forall_mem_nil _⟩

/-- A target in progress is on the stack, so its model was analysed. -/
theorem Orderly.analyze_ok (h : W.Orderly σ) (htask : σ.task = .target m)
    (hm : m ∈ σ.inProgress) : ∃ a, W.analyze m = .ok a := by
  rw [h.mem_inProgress] at hm
  simp only [Machine.stack, htask, Task.entered, List.nil_append, List.mem_map] at hm
  obtain ⟨f, hf, rfl⟩ := hm
  exact ⟨f.analysis, h.analysed f hf⟩

/-! ### All steps -/

theorem orderly_after (W : Workshop M) (m : M) (n : ℕ) : W.Orderly (W.after m n) := by
  induction n with
  | zero => exact orderly_start m
  | succ n ih =>
    rw [after]
    cases hτ : W.step (W.after m n) with
    | none => exact ih
    | some τ => exact ih.moves (moves_step hτ)

theorem entered_of_halted (h : W.step σ = none) : σ.task.entered = [] := by
  obtain ⟨st, inProgress, frames, task⟩ := σ
  cases task with
  | analyze m =>
    simp only [step] at h
    split at h <;> cases h
  | _ => rfl

theorem begun_after (W : Workshop M) (m : M) (n : ℕ) : (W.after m (n + 1)).staging.begun =
    (W.after m n).staging.begun ++ (W.after m (n + 1)).task.entered := by
  rw [after]
  cases hτ : W.step (W.after m n) with
  | none => rw [Option.getD_none, entered_of_halted hτ, List.append_nil]
  | some τ => exact (moves_step hτ).begun_eq

theorem step_ended (a : Attempt (Staging M) (Schema M)) : W.step (.ended a) = none := by
  obtain ⟨st, result⟩ := a
  cases result <;> rfl

/-- A lookup ends on every family of models and with everything that may be cached: after finitely
many steps the machine halts with no building under way, no model in progress, and the answer that
`run` gives, be it a schema or an error. At every moment of it, the models whose building was begun,
which a model joins when it is entered and not otherwise, are told apart and none is cached; the
models in progress are those of the buildings under way, and each stands on the stack once; and if
the keys of a model in progress are asked for, its analysis goes well. -/
theorem building_ends (W : Workshop M) (m : M) :
    (∃ a n, W.run m = some a ∧ W.after m n = .ended a ∧ W.step (W.after m n) = none) ∧
    ∀ n, ((W.after m n).staging.begun.Nodup ∧
        (∀ k ∈ (W.after m n).staging.begun, schemaIn? k W.cache = none) ∧
        (W.after m (n + 1)).staging.begun =
          (W.after m n).staging.begun ++ (W.after m (n + 1)).task.entered) ∧
      ((W.after m n).stack.Nodup ∧ (W.after m n).inProgress = (W.after m n).stack.toFinset) ∧
      ∀ k, (W.after m n).task = .target k → k ∈ (W.after m n).inProgress →
        ∃ a, W.analyze k = .ok a := by
  constructor
  · obtain ⟨a, ha, hreaches⟩ := run_carried W m
    obtain ⟨n, hn⟩ := exists_after hreaches
    exact ⟨a, n, ha, hn, hn ▸ step_ended a⟩
  · intro n
    have h := orderly_after W m n
    exact ⟨⟨h.once, h.uncached, begun_after W m n⟩, ⟨h.stack_nodup, h.inProgress_eq⟩,
      fun _ => h.analyze_ok⟩

/-- Authors lead to books and books to authors: both are in progress when authors are asked for
again, and there is one building of each. -/
example : ((ofConfig Registry.shelf .standard).after .author 7).stack = [.book, .author] ∧
    ((ofConfig Registry.shelf .standard).after .author 12).stack = [] ∧
    ((ofConfig Registry.shelf .standard).after .author 12).staging.begun = [.author, .book] := by
  decide +kernel

end Workshop

end RecordGraph
