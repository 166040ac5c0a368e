import Mathlib.Data.List.Basic
import Mathlib.Data.List.Infix

/-!
# Machines that emit events

An `EventMachine` is a partial transition function: an action taken in a state either is not
enabled (`none`) or leads to one next state and a list of events.  All nondeterminism sits in the
choice of the actions, so an interleaving is just a list of them.

`RunsUnder C tr s` says that the machine can reach `s` from its initial state with trace `tr`, all
of whose steps meet the condition `C` on (trace so far, state, action).  `Runs` is the case without
a condition.

* `RunsUnder.invariant` is the induction rule: what holds initially and is kept by every step that
  meets the condition holds of every trace and state reached.
* `RunsUnder.project` carries runs of a composed machine to runs of one of its components.
* `runUnder` executes a list of actions, and `runUnder_sound` turns such an execution into a run.
-/

/-- A machine with states `σ`, actions `α` and observable events `ε`. -/
structure EventMachine (σ α ε : Type*) where
  /-- The state every run starts in. -/
  init : σ
  /-- The effect of an action, or `none` where it is not enabled. -/
  step : σ → α → Option (σ × List ε)

namespace EventMachine

variable {σ α ε : Type*}

/-! ### Runs -/

/-- The machine reaches `s` with trace `tr` by steps that all meet `C`. -/
inductive RunsUnder (M : EventMachine σ α ε) (C : List ε → σ → α → Prop) : List ε → σ → Prop where
  | init : RunsUnder M C [] M.init
  | step {tr s a s' es} (run : RunsUnder M C tr s) (meets : C tr s a)
      (taken : M.step s a = some (s', es)) : RunsUnder M C (tr ++ es) s'

/-- The machine reaches `s` with trace `tr`. -/
abbrev Runs (M : EventMachine σ α ε) : List ε → σ → Prop := M.RunsUnder fun _ _ _ => True

variable {M : EventMachine σ α ε} {C D : List ε → σ → α → Prop}

theorem RunsUnder.mono (h : ∀ tr s a, C tr s a → D tr s a) {tr : List ε} {s : σ}
    (run : M.RunsUnder C tr s) : M.RunsUnder D tr s := by
  induction run with
  | init => exact .init
  | step _ meets taken ih => exact .step ih (h _ _ _ meets) taken

theorem RunsUnder.runs {tr : List ε} {s : σ} (run : M.RunsUnder C tr s) : M.Runs tr s :=
  run.mono fun _ _ _ _ => trivial

/-- **The invariant rule.**  The step premise may use that the state before it was reached. -/
theorem RunsUnder.invariant {I : List ε → σ → Prop} (hinit : I [] M.init)
    (hstep : ∀ tr s a s' es, M.RunsUnder C tr s → I tr s → C tr s a →
      M.step s a = some (s', es) → I (tr ++ es) s')
    {tr : List ε} {s : σ} (run : M.RunsUnder C tr s) : I tr s := by
  induction run with
  | init => exact hinit
  | step run meets taken ih => exact hstep _ _ _ _ _ run ih meets taken

/-- A property of the state alone. -/
theorem RunsUnder.invariant_state {I : σ → Prop} (hinit : I M.init)
    (hstep : ∀ s a s' es, I s → M.step s a = some (s', es) → I s')
    {tr : List ε} {s : σ} (run : M.RunsUnder C tr s) : I s :=
  run.invariant (I := fun _ s => I s) hinit fun _ _ _ _ _ _ hI _ taken => hstep _ _ _ _ hI taken

/-- An event of the trace was emitted by some step of the run, in a state reached before it. -/
theorem RunsUnder.exists_step_of_split {tr : List ε} {s : σ} (run : M.RunsUnder C tr s)
    {pre post : List ε} {e : ε} (h : tr = pre ++ e :: post) :
    ∃ tr₀ s₀ a s₁ es before after, M.RunsUnder C tr₀ s₀ ∧ C tr₀ s₀ a ∧
      M.step s₀ a = some (s₁, es) ∧ es = before ++ e :: after ∧ pre = tr₀ ++ before := by
  induction run generalizing post with
  | init => simp at h
  | @step tr s a s' es run meets taken ih =>
    rcases List.append_eq_append_iff.mp h with ⟨mid, hpre, hes⟩ | ⟨mid, htr, hpost⟩
    · exact ⟨tr, s, a, s', es, mid, post, run, meets, taken, hes, hpre⟩
    · cases mid with
      | nil =>
        refine ⟨tr, s, a, s', es, [], post, run, meets, taken, ?_, ?_⟩
        · simpa using hpost.symm
        · simpa using htr.symm
      | cons x mid =>
        obtain ⟨rfl, hpost⟩ := List.cons.inj hpost
        exact ih htr

/-- An event that is always alone in its step was emitted just after the events before it. -/
theorem RunsUnder.exists_step_of_alone {tr : List ε} {s : σ} (run : M.RunsUnder C tr s)
    {pre post : List ε} {e : ε} (h : tr = pre ++ e :: post)
    (halone : ∀ s a s' es, M.step s a = some (s', es) → e ∈ es → es = [e]) :
    ∃ s₀ a s₁, M.RunsUnder C pre s₀ ∧ C pre s₀ a ∧ M.step s₀ a = some (s₁, [e]) := by
  obtain ⟨tr₀, s₀, a, s₁, es, before, after, run₀, meets, taken, hes, hpre⟩ :=
    run.exists_step_of_split h
  have hmem : e ∈ es := by
    rw [hes]
    exact List.mem_append_right _ List.mem_cons_self
  have hone : es = [e] := halone s₀ a s₁ es taken hmem
  have hbefore : before = [] := by
    rw [hes] at hone
    exact ((List.append_eq_singleton_iff.mp hone).resolve_right (by simp)).1
  rw [hbefore, List.append_nil] at hpre
  subst hpre
  rw [hone] at taken
  exact ⟨s₀, a, s₁, run₀, meets, taken⟩

/-! ### Components -/

/-- **Projection.**  Where every step of `M` is, seen through `π` and `f`, either one step of `N` that
meets `D` or nothing at all, every run of `M` is a run of `N`. -/
theorem RunsUnder.project {τ β ζ : Type*} {N : EventMachine τ β ζ} {D : List ζ → τ → β → Prop}
    (π : σ → τ) (f : ε → Option ζ) (hinit : π M.init = N.init)
    (hstep : ∀ tr s a s' es, C tr s a → M.step s a = some (s', es) →
      (∃ b, D (tr.filterMap f) (π s) b ∧ N.step (π s) b = some (π s', es.filterMap f)) ∨
        (π s' = π s ∧ es.filterMap f = []))
    {tr : List ε} {s : σ} (run : M.RunsUnder C tr s) : N.RunsUnder D (tr.filterMap f) (π s) := by
  induction run with
  | init => rw [hinit]; exact .init
  | @step tr s a s' es _ meets taken ih =>
    rw [List.filterMap_append]
    rcases hstep _ _ _ _ _ meets taken with ⟨b, hD, hb⟩ | ⟨hs, hes⟩
    · exact .step ih hD hb
    · rw [hs, hes, List.append_nil]; exact ih

/-! ### Labels -/

/-- The same machine, with every event labelled by the action that emitted it. -/
def labelled (M : EventMachine σ α ε) : EventMachine σ α (α × ε) where
  init := M.init
  step s a := (M.step s a).map fun (s', es) => (s', es.map (Prod.mk a))

theorem labelled_step_eq_some {s s' : σ} {a : α} {les : List (α × ε)}
    (h : M.labelled.step s a = some (s', les)) :
    ∃ es, M.step s a = some (s', es) ∧ les = es.map (Prod.mk a) := by
  obtain ⟨⟨t, es⟩, hstep, heq⟩ := Option.map_eq_some_iff.mp h
  obtain ⟨rfl, rfl⟩ := Prod.mk.inj heq
  exact ⟨es, hstep, rfl⟩

/-- The same machine, with every event stamped with what `stamp` reads off the state before its step. -/
def stamped {τ : Type*} (M : EventMachine σ α ε) (stamp : σ → τ) : EventMachine σ α (τ × ε) where
  init := M.init
  step s a := (M.step s a).map fun (s', es) => (s', es.map (Prod.mk (stamp s)))

theorem stamped_step_eq_some {τ : Type*} {stamp : σ → τ} {s s' : σ} {a : α} {tes : List (τ × ε)}
    (h : (M.stamped stamp).step s a = some (s', tes)) :
    ∃ es, M.step s a = some (s', es) ∧ tes = es.map (Prod.mk (stamp s)) := by
  obtain ⟨⟨t, es⟩, hstep, heq⟩ := Option.map_eq_some_iff.mp h
  obtain ⟨rfl, rfl⟩ := Prod.mk.inj heq
  exact ⟨es, hstep, rfl⟩

/-- A stamped event was emitted by a step from a state with its stamp. -/
theorem RunsUnder.exists_stamped_step_of_split {τ : Type*} {stamp : σ → τ}
    {C : List (τ × ε) → σ → α → Prop} {tr : List (τ × ε)} {s : σ}
    (run : (M.stamped stamp).RunsUnder C tr s) {pre post : List (τ × ε)} {t : τ} {e : ε}
    (h : tr = pre ++ (t, e) :: post) :
    ∃ tr₀ s₀ a s₁ es before after, (M.stamped stamp).RunsUnder C tr₀ s₀ ∧ M.step s₀ a = some (s₁, es) ∧
      stamp s₀ = t ∧ e ∈ es ∧ es.map (Prod.mk t) = before ++ (t, e) :: after ∧ pre = tr₀ ++ before := by
  obtain ⟨tr₀, s₀, a, s₁, tes, before, after, run₀, -, hstep, hes, hpre⟩ := run.exists_step_of_split h
  obtain ⟨es, htaken, rfl⟩ := stamped_step_eq_some hstep
  have hmem : (t, e) ∈ es.map (Prod.mk (stamp s₀)) := by
    rw [hes]
    exact List.mem_append_right _ List.mem_cons_self
  obtain ⟨event, hevent, heq⟩ := List.mem_map.mp hmem
  obtain ⟨rfl, rfl⟩ := Prod.mk.inj heq
  exact ⟨tr₀, s₀, a, s₁, es, before, after, run₀, htaken, rfl, hevent, hes, hpre⟩

/-! ### Splitting a trace -/

/-- An event of a trace that has grown by one event is the new one, or was there before. -/
theorem split_of_append_singleton {tr pre post : List ε} {x e : ε} (h : tr ++ [x] = pre ++ e :: post) :
    (tr = pre ∧ x = e ∧ post = []) ∨ ∃ mid, post = mid ++ [x] ∧ tr = pre ++ e :: mid := by
  induction post using List.reverseRecOn with
  | nil =>
    obtain ⟨htr, hx⟩ := List.append_singleton_inj.mp h
    exact .inl ⟨htr, hx, rfl⟩
  | append_singleton mid last _ =>
    rw [← List.cons_append, ← List.append_assoc] at h
    obtain ⟨htr, hx⟩ := List.append_singleton_inj.mp h
    rw [hx]
    exact .inr ⟨mid, rfl, htr⟩

/-- The last event that `f` sees, with what comes before and after it. -/
theorem exists_split_of_getLast?_filterMap {β : Type*} {f : ε → Option β} {tr : List ε} {b : β}
    (h : (tr.filterMap f).getLast? = some b) :
    ∃ pre e post, tr = pre ++ e :: post ∧ f e = some b ∧ ∀ e' ∈ post, f e' = none := by
  induction tr using List.reverseRecOn with
  | nil => cases h
  | append_singleton tr e ih =>
    rcases he : f e with _ | b'
    · have hsame : (tr ++ [e]).filterMap f = tr.filterMap f := by
        rw [List.filterMap_append]
        simp [he]
      rw [hsame] at h
      obtain ⟨pre, e', post, rfl, hb, hpost⟩ := ih h
      refine ⟨pre, e', post ++ [e], by simp, hb, fun e'' hmem => ?_⟩
      rcases List.mem_append.mp hmem with hmem | hmem
      · exact hpost e'' hmem
      · exact List.mem_singleton.mp hmem ▸ he
    · have hlast : (tr ++ [e]).filterMap f = tr.filterMap f ++ [b'] := by
        rw [List.filterMap_append]
        simp [he]
      rw [hlast, List.getLast?_append_cons, List.getLast?_singleton, Option.some.injEq] at h
      exact ⟨tr, e, [], rfl, he.trans (congrArg some h), nofun⟩

/-! ### Executing a list of actions -/

/-- Execute `as` from `s` with trace so far `tr`, checking the condition before each step. -/
def runUnder (M : EventMachine σ α ε) (C : List ε → σ → α → Prop)
    [∀ tr s a, Decidable (C tr s a)] : List ε → σ → List α → Option (List ε × σ)
  | tr, s, [] => some (tr, s)
  | tr, s, a :: as =>
    if C tr s a then
      match M.step s a with
      | some (s', es) => M.runUnder C (tr ++ es) s' as
      | none => none
    else none

theorem runUnder_cons [∀ tr s a, Decidable (C tr s a)] {tr es : List ε} {s s' : σ} {a : α}
    (meets : C tr s a) (taken : M.step s a = some (s', es)) (as : List α) :
    M.runUnder C tr s (a :: as) = M.runUnder C (tr ++ es) s' as := by
  rw [runUnder, if_pos meets, taken]

theorem runUnder_sound_from [∀ tr s a, Decidable (C tr s a)] {as : List α} {tr tr' : List ε}
    {s s' : σ} (run : M.RunsUnder C tr s) (h : M.runUnder C tr s as = some (tr', s')) :
    M.RunsUnder C tr' s' := by
  induction as generalizing tr s with
  | nil =>
    simp only [runUnder, Option.some.injEq, Prod.mk.injEq] at h
    obtain ⟨rfl, rfl⟩ := h
    exact run
  | cons a as ih =>
    rw [runUnder] at h
    split_ifs at h with hC
    split at h
    · exact ih (.step run hC ‹_›) h
    · cases h

/-- A successful execution from the initial state is a run. -/
theorem runUnder_sound [∀ tr s a, Decidable (C tr s a)] {as : List α} {tr : List ε} {s : σ}
    (h : M.runUnder C [] M.init as = some (tr, s)) : M.RunsUnder C tr s :=
  runUnder_sound_from .init h

/-- Execution without a condition. -/
abbrev run (M : EventMachine σ α ε) (as : List α) : Option (List ε × σ) :=
  M.runUnder (fun _ _ _ => True) [] M.init as

/-- An execution that goes through gives a run with its trace. -/
theorem exists_runsUnder_of_map_eq [∀ tr s a, Decidable (C tr s a)] {as : List α} {tr : List ε}
    (h : (M.runUnder C [] M.init as).map Prod.fst = some tr) : ∃ s, M.RunsUnder C tr s ∧
      M.runUnder C [] M.init as = some (tr, s) := by
  obtain ⟨⟨tr', s⟩, hrun, rfl⟩ := Option.map_eq_some_iff.mp h
  exact ⟨s, runUnder_sound hrun, hrun⟩

end EventMachine
