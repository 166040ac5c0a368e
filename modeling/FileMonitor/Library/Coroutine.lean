import Mathlib.Init

/-!
# Coroutines

A `Coroutine` returns a value, raises an exception, or asks its environment for an effect and goes on
with the answer.  Code written once as a coroutine can be read in two ways:

* `run handler` answers every effect at once, so that a whole call becomes a function of the state of
  the environment; `run_bind` composes such calls.
* A machine that keeps the coroutine in its state answers one effect in each step, so that other
  steps can come between any two effects.

`Uses P` says that every effect the coroutine can ask for, whatever the answers before it, satisfies
`P`.  It is kept by resuming, so it is an invariant of the second reading.  `effects handler` lists the
effects that one run asks for; `effects_bind` composes them, and `Uses.of_mem_effects` says that they
satisfy `P`.

`Resumes` relates a coroutine to what an answer leaves of it; `wellFounded_resumes` says that there is an
end to answering.
-/

/-- A computation with effects `e : ε` answered in `Answer e`, exceptions `χ` and result `α`. -/
inductive Coroutine {ε : Type} (Answer : ε → Type) (χ α : Type) : Type
  | ret (a : α)
  | raise (x : χ)
  | ask (e : ε) (resume : Answer e → Coroutine Answer χ α)

namespace Coroutine

variable {ε : Type} {Answer : ε → Type} {χ α β σ : Type}

/-! ### Composition -/

/-- Go on with `f` after a return; an exception is passed on. -/
def bind (c : Coroutine Answer χ α) (f : α → Coroutine Answer χ β) : Coroutine Answer χ β :=
  match c with
  | ret a => f a
  | raise x => .raise x
  | ask e resume => .ask e fun answer => (resume answer).bind f

instance : Monad (Coroutine Answer χ) where
  pure := ret
  bind := bind

/-- Ask for one effect and return its answer. -/
def perform (e : ε) : Coroutine Answer χ (Answer e) := .ask e .ret

/-- A computation without effects. -/
def ofExcept (x : Except χ α) : Coroutine Answer χ α :=
  match x with
  | .ok a => .ret a
  | .error e => .raise e

@[simp] theorem pure_eq_ret (a : α) : (pure a : Coroutine Answer χ α) = ret a := rfl

@[simp] theorem ret_bind (a : α) (f : α → Coroutine Answer χ β) : (ret a >>= f) = f a := rfl

@[simp] theorem raise_bind (x : χ) (f : α → Coroutine Answer χ β) : (raise x >>= f) = raise x := rfl

@[simp] theorem ask_bind (e : ε) (resume : Answer e → Coroutine Answer χ α)
    (f : α → Coroutine Answer χ β) : (ask e resume >>= f) = ask e fun answer => resume answer >>= f :=
  rfl

@[simp] theorem perform_bind (e : ε) (f : Answer e → Coroutine Answer χ β) :
    (perform e >>= f) = ask e f := rfl

@[simp] theorem ofExcept_ok (a : α) : (ofExcept (.ok a) : Coroutine Answer χ α) = ret a := rfl

@[simp] theorem ofExcept_error (x : χ) : (ofExcept (.error x) : Coroutine Answer χ α) = raise x := rfl

/-! ### Running to the end -/

/-- Answer every effect by `handler`, which may read and change a state. -/
def run (handler : (e : ε) → σ → Answer e × σ) : Coroutine Answer χ α → σ → Except χ α × σ
  | ret a, s => (.ok a, s)
  | raise x, s => (.error x, s)
  | ask e resume, s => run handler (resume (handler e s).1) (handler e s).2

section Run

variable (handler : (e : ε) → σ → Answer e × σ)

@[simp] theorem run_ret (a : α) (s : σ) :
    run handler (ret a : Coroutine Answer χ α) s = (.ok a, s) := rfl

@[simp] theorem run_raise (x : χ) (s : σ) :
    run handler (raise x : Coroutine Answer χ α) s = (.error x, s) := rfl

@[simp] theorem run_ask (e : ε) (resume : Answer e → Coroutine Answer χ α) (s : σ) :
    run handler (ask e resume) s = run handler (resume (handler e s).1) (handler e s).2 := rfl

/-- A composed call runs its parts one after the other. -/
theorem run_bind (c : Coroutine Answer χ α) (f : α → Coroutine Answer χ β) (s : σ) :
    run handler (c >>= f) s =
      match run handler c s with
      | (.ok a, s') => run handler (f a) s'
      | (.error x, s') => (.error x, s') := by
  induction c generalizing s with
  | ret a => rfl
  | raise x => rfl
  | ask e resume ih =>
    rw [ask_bind, run_ask, run_ask]
    exact ih _ _

end Run

/-- The effects asked for when every one is answered by `handler`. -/
def effects (handler : (e : ε) → σ → Answer e × σ) : Coroutine Answer χ α → σ → List ε
  | ret _, _ => []
  | raise _, _ => []
  | ask e resume, s => e :: effects handler (resume (handler e s).1) (handler e s).2

section Effects

variable (handler : (e : ε) → σ → Answer e × σ)

@[simp] theorem effects_ret (a : α) (s : σ) :
    effects handler (ret a : Coroutine Answer χ α) s = [] := rfl

@[simp] theorem effects_raise (x : χ) (s : σ) :
    effects handler (raise x : Coroutine Answer χ α) s = [] := rfl

@[simp] theorem effects_ask (e : ε) (resume : Answer e → Coroutine Answer χ α) (s : σ) :
    effects handler (ask e resume) s
      = e :: effects handler (resume (handler e s).1) (handler e s).2 := rfl

/-- A composed call asks for the effects of its parts. -/
theorem effects_bind (c : Coroutine Answer χ α) (f : α → Coroutine Answer χ β) (s : σ) :
    effects handler (c >>= f) s = effects handler c s ++
      match run handler c s with
      | (.ok a, s') => effects handler (f a) s'
      | (.error _, _) => [] := by
  induction c generalizing s with
  | ret a => rfl
  | raise x => rfl
  | ask e resume ih =>
    rw [ask_bind, effects_ask, effects_ask, run_ask, List.cons_append]
    exact congrArg _ (ih _ _)

variable {handler}

/-- A composed call that returns has run its first part to a return. -/
theorem exists_of_run_bind_ok {c : Coroutine Answer χ α} {f : α → Coroutine Answer χ β} {s s' : σ}
    {b : β} (h : run handler (c >>= f) s = (.ok b, s')) :
    ∃ a s₁, run handler c s = (.ok a, s₁) ∧ run handler (f a) s₁ = (.ok b, s') := by
  rw [run_bind] at h
  rcases hrun : run handler c s with ⟨x | a, s₁⟩
  · rw [hrun] at h
    cases h
  · rw [hrun] at h
    exact ⟨a, s₁, rfl, h⟩

theorem run_perform_eq_ok_iff {e : ε} {s s' : σ} {answer : Answer e} :
    run handler (perform e : Coroutine Answer χ (Answer e)) s = (.ok answer, s') ↔
      handler e s = (answer, s') := by
  show (Except.ok (handler e s).1, (handler e s).2) = _ ↔ _
  rw [Prod.mk.injEq, Except.ok.injEq, ← Prod.mk.injEq]

theorem run_ofExcept_eq_ok_iff {x : Except χ α} {s s' : σ} {a : α} :
    run handler (ofExcept x : Coroutine Answer χ α) s = (.ok a, s') ↔ x = .ok a ∧ s = s' := by
  cases x with
  | error x => exact ⟨nofun, nofun⟩
  | ok a' => rw [ofExcept_ok, run_ret, Prod.mk.injEq]

theorem mem_effects_perform_bind {e e' : ε} {f : Answer e' → Coroutine Answer χ β} {s : σ} :
    e ∈ effects handler (perform e' >>= f) s ↔
      e = e' ∨ e ∈ effects handler (f (handler e' s).1) (handler e' s).2 := by
  rw [perform_bind, effects_ask, List.mem_cons]

theorem mem_effects_ofExcept_bind {e : ε} {x : Except χ α} {f : α → Coroutine Answer χ β} {s : σ} :
    e ∈ effects handler (ofExcept x >>= f) s ↔ ∃ a, x = .ok a ∧ e ∈ effects handler (f a) s := by
  cases x with
  | error x => exact ⟨nofun, nofun⟩
  | ok a =>
    rw [ofExcept_ok, ret_bind]
    constructor
    · intro h
      exact ⟨a, rfl, h⟩
    · rintro ⟨_, ⟨⟩, h⟩
      exact h

theorem mem_effects_bind_left {c : Coroutine Answer χ α} (f : α → Coroutine Answer χ β) {s : σ} {e : ε}
    (h : e ∈ effects handler c s) : e ∈ effects handler (c >>= f) s := by
  rw [effects_bind]
  exact List.mem_append_left _ h

theorem mem_effects_bind_right {c : Coroutine Answer χ α} {f : α → Coroutine Answer χ β} {s s₁ : σ}
    {a : α} {e : ε} (hrun : run handler c s = (.ok a, s₁)) (h : e ∈ effects handler (f a) s₁) :
    e ∈ effects handler (c >>= f) s := by
  rw [effects_bind, hrun]
  exact List.mem_append_right _ h

end Effects

/-! ### The effects a coroutine can ask for -/

/-- Every effect asked for, whatever the answers before it, satisfies `P`. -/
def Uses (P : ε → Prop) : Coroutine Answer χ α → Prop
  | ret _ => True
  | raise _ => True
  | ask e resume => P e ∧ ∀ answer, Uses P (resume answer)

variable {P : ε → Prop}

@[simp] theorem uses_ret (a : α) : Uses P (ret a : Coroutine Answer χ α) := trivial

@[simp] theorem uses_raise (x : χ) : Uses P (raise x : Coroutine Answer χ α) := trivial

@[simp] theorem uses_ask {e : ε} {resume : Answer e → Coroutine Answer χ α} :
    Uses P (ask e resume) ↔ P e ∧ ∀ answer, Uses P (resume answer) := Iff.rfl

@[simp] theorem uses_ofExcept (x : Except χ α) : Uses P (ofExcept x : Coroutine Answer χ α) := by
  cases x <;> trivial

theorem Uses.bind {c : Coroutine Answer χ α} {f : α → Coroutine Answer χ β} (hc : Uses P c)
    (hf : ∀ a, Uses P (f a)) : Uses P (c >>= f) := by
  induction c with
  | ret a => exact hf a
  | raise x => trivial
  | ask e resume ih =>
    rw [ask_bind, uses_ask]
    exact ⟨hc.1, fun answer => ih answer (hc.2 answer)⟩

theorem Uses.of_mem_effects {handler : (e : ε) → σ → Answer e × σ} {c : Coroutine Answer χ α}
    (hc : Uses P c) {s : σ} {e : ε} (h : e ∈ effects handler c s) : P e := by
  induction c generalizing s with
  | ret a => cases h
  | raise x => cases h
  | ask e' resume ih =>
    rcases List.mem_cons.mp h with rfl | h
    · exact hc.1
    · exact ih _ (hc.2 _) h

/-! ### Answering comes to an end -/

/-- `c'` is what some answer leaves of `c`. -/
inductive Resumes : Coroutine Answer χ α → Coroutine Answer χ α → Prop where
  | answered (e : ε) (resume : Answer e → Coroutine Answer χ α) (answer : Answer e) :
    Resumes (resume answer) (ask e resume)

theorem wellFounded_resumes : WellFounded (@Resumes ε Answer χ α) := by
  refine ⟨fun c => ?_⟩
  induction c with
  | ret a => exact ⟨_, nofun⟩
  | raise x => exact ⟨_, nofun⟩
  | ask e resume ih =>
    refine ⟨_, fun c' h => ?_⟩
    cases h with
    | answered _ _ answer => exact ih answer

end Coroutine
