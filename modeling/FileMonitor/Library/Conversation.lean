import FileMonitor.Library.Coroutine

/-!
# Conversations

What a coroutine has asked for so far, with the answers it was given, is a conversation.  A machine that
answers one effect in each step leads one; a run to the end leads the one whose answers are those of its
handler.

`Converses.run_eq` is what the two readings have in common: where a handler gives the answers of a
conversation (`Agrees`), a run with it goes through the point that the conversation has come to.
-/

namespace Coroutine

variable {ε : Type} {Answer : ε → Type} {χ α σ : Type}

/-- An effect and its answer. -/
abbrev Exchange (Answer : ε → Type) := (e : ε) × Answer e

/-- The coroutine comes to `c'` by these exchanges. -/
inductive Converses (c : Coroutine Answer χ α) : List (Exchange Answer) → Coroutine Answer χ α → Prop where
  | start : Converses c [] c
  | answered {xs e resume} (conversation : Converses c xs (ask e resume)) (answer : Answer e) :
    Converses c (xs ++ [⟨e, answer⟩]) (resume answer)

variable (handler : (e : ε) → σ → Answer e × σ)

/-- The state a handler is left in by the effects of a conversation. -/
def afterExchanges : List (Exchange Answer) → σ → σ
  | [], s => s
  | x :: xs, s => afterExchanges xs (handler x.1 s).2

/-- The handler gives the answers of a conversation. -/
def Agrees : List (Exchange Answer) → σ → Prop
  | [], _ => True
  | x :: xs, s => (handler x.1 s).1 = x.2 ∧ Agrees xs (handler x.1 s).2

@[simp] theorem afterExchanges_nil (s : σ) : afterExchanges handler [] s = s := rfl

@[simp] theorem afterExchanges_cons (x : Exchange Answer) (xs : List (Exchange Answer)) (s : σ) :
    afterExchanges handler (x :: xs) s = afterExchanges handler xs (handler x.1 s).2 := rfl

@[simp] theorem agrees_nil (s : σ) : Agrees handler [] s := trivial

@[simp] theorem agrees_cons {x : Exchange Answer} {xs : List (Exchange Answer)} {s : σ} :
    Agrees handler (x :: xs) s ↔ (handler x.1 s).1 = x.2 ∧ Agrees handler xs (handler x.1 s).2 := Iff.rfl

theorem afterExchanges_append (xs ys : List (Exchange Answer)) (s : σ) :
    afterExchanges handler (xs ++ ys) s = afterExchanges handler ys (afterExchanges handler xs s) := by
  induction xs generalizing s with
  | nil => rfl
  | cons x xs ih => exact ih _

theorem agrees_append {xs ys : List (Exchange Answer)} {s : σ} :
    Agrees handler (xs ++ ys) s ↔ Agrees handler xs s ∧ Agrees handler ys (afterExchanges handler xs s) := by
  induction xs generalizing s with
  | nil => simp
  | cons x xs ih => rw [List.cons_append, agrees_cons, agrees_cons, ih, and_assoc, afterExchanges_cons]

variable {handler} {c c' : Coroutine Answer χ α} {xs : List (Exchange Answer)}

/-- An answer that a handler agrees with is its own, in some state. -/
theorem Agrees.exists_answer_eq {s : σ} (h : Agrees handler xs s) {x : Exchange Answer} (hmem : x ∈ xs) :
    ∃ s', (handler x.1 s').1 = x.2 := by
  induction xs generalizing s with
  | nil => cases hmem
  | cons y xs ih =>
    rcases List.mem_cons.mp hmem with rfl | hmem
    · exact ⟨s, h.1⟩
    · exact ih h.2 hmem

/-- **A run goes through every conversation that its handler agrees with.** -/
theorem Converses.run_eq (h : Converses c xs c') {s : σ} (hagrees : Agrees handler xs s) :
    run handler c s = run handler c' (afterExchanges handler xs s) := by
  induction h with
  | start => rfl
  | @answered xs e resume _ answer ih =>
    obtain ⟨hxs, hanswer, -⟩ := (agrees_append handler).mp hagrees
    calc run handler c s
        = run handler (ask e resume) (afterExchanges handler xs s) := ih hxs
      _ = run handler (resume answer) (handler e (afterExchanges handler xs s)).2 := by
        rw [run_ask, hanswer]
      _ = run handler (resume answer) (afterExchanges handler (xs ++ [⟨e, answer⟩]) s) := by
        rw [afterExchanges_append]
        rfl

/-- What a coroutine can ask for is what its conversations are about. -/
theorem Converses.uses {P : ε → Prop} (h : Converses c xs c') (hc : c.Uses P) :
    (∀ x ∈ xs, P x.1) ∧ c'.Uses P := by
  induction h with
  | start => exact ⟨nofun, hc⟩
  | answered _ answer ih =>
    obtain ⟨hxs, he, hresume⟩ := ih
    refine ⟨fun x hmem => ?_, hresume answer⟩
    rcases List.mem_append.mp hmem with hmem | hmem
    · exact hxs x hmem
    · rw [List.mem_singleton.mp hmem]
      exact he

end Coroutine
