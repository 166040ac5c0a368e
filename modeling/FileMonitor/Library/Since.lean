import Mathlib.Data.List.Basic
import Mathlib.Data.List.TakeDrop

/-!
# Since

`Since A B tr` is the past-time operator on a trace: it has an event of `A`, and none of `B` after that
one.  It says that something is still due, as in "a request, and no answer since".

* `since_append`: what holds after more events, so that it can be carried along a run.
* `Since.of_split`, `Since.exists_mem`: from an event of the trace to the operator, and back.
* `Since.trans`: what is settled in stages.
* `Since.filterMap`: the events seen through a partial function, as a component of a machine sees them.
-/

variable {ε ζ : Type*}

/-- An event of `A`, and none of `B` since. -/
def Since (A B : ε → Prop) (tr : List ε) : Prop :=
  ∃ pre e post, tr = pre ++ e :: post ∧ A e ∧ ∀ e' ∈ post, ¬ B e'

namespace Since

variable {A B : ε → Prop} {tr es : List ε}

theorem of_split {pre post : List ε} {e : ε} (htr : tr = pre ++ e :: post) (he : A e)
    (hpost : ∀ e' ∈ post, ¬ B e') : Since A B tr := ⟨pre, e, post, htr, he, hpost⟩

@[simp] theorem not_since_nil : ¬ Since A B [] := by
  rintro ⟨pre, e, post, htr, -⟩
  simp at htr

/-- **More events**: something is due after them if it became due by one of them, or was due before and
none of them settles it. -/
theorem since_append : Since A B (tr ++ es) ↔ Since A B es ∨ Since A B tr ∧ ∀ e ∈ es, ¬ B e := by
  constructor
  · rintro ⟨pre, e, post, htr, he, hpost⟩
    rcases List.append_eq_append_iff.mp htr with ⟨mid, -, hes⟩ | ⟨mid, hold, hnew⟩
    · exact .inl ⟨mid, e, post, hes, he, hpost⟩
    · cases mid with
      | nil => exact .inl ⟨[], e, post, hnew.symm, he, hpost⟩
      | cons x mid =>
        obtain ⟨rfl, rfl⟩ := List.cons.inj hnew
        refine .inr ⟨⟨pre, e, mid, hold, he, fun e' hmem => ?_⟩, fun e' hmem => ?_⟩
        · exact hpost e' (List.mem_append_left _ hmem)
        · exact hpost e' (List.mem_append_right _ hmem)
  · rintro (⟨pre, e, post, rfl, he, hpost⟩ | ⟨⟨pre, e, post, rfl, he, hpost⟩, hes⟩)
    · exact ⟨tr ++ pre, e, post, by simp, he, hpost⟩
    · refine ⟨pre, e, post ++ es, by simp, he, fun e' hmem => ?_⟩
      exact (List.mem_append.mp hmem).elim (hpost e') (hes e')

theorem since_singleton {e : ε} : Since A B [e] ↔ A e := by
  constructor
  · rintro ⟨pre, e', post, htr, he, -⟩
    have hlength := congrArg List.length htr
    obtain rfl : pre = [] := List.length_eq_zero_iff.mp (by simp at hlength; omega)
    obtain ⟨rfl, -⟩ := List.cons.inj htr
    exact he
  · exact fun he => ⟨[], e, [], rfl, he, nofun⟩

/-- The second event settles the first one. -/
theorem not_since_pair {e e' : ε} (hA : ¬ A e') (hB : B e') : ¬ Since A B [e, e'] := by
  intro h
  rcases since_append.mp (show Since A B ([e] ++ [e']) from h) with h | ⟨-, hnone⟩
  · exact hA (since_singleton.mp h)
  · exact hnone e' List.mem_cons_self hB

/-- Something that is due became due by some event. -/
theorem exists_event (h : Since A B tr) : ∃ e ∈ tr, A e := by
  obtain ⟨pre, e, post, rfl, he, -⟩ := h
  exact ⟨e, by simp, he⟩

/-- What is not due any more has been settled. -/
theorem exists_mem {pre post : List ε} {e : ε} (h : ¬ Since A B tr) (htr : tr = pre ++ e :: post)
    (he : A e) : ∃ e' ∈ post, B e' := by
  by_contra hnone
  push Not at hnone
  exact h (of_split htr he hnone)

/-- **Stages.**  Where each `A` is settled by a `B` or a `D` after it, and each `B` by a `C`, each `A` is
settled by a `C` or a `D`. -/
theorem trans {C D : ε → Prop} (hAB : ¬ Since A (fun e => B e ∨ D e) tr) (hBC : ¬ Since B C tr) :
    ¬ Since A (fun e => C e ∨ D e) tr := by
  rintro ⟨pre, e, post, rfl, he, hpost⟩
  obtain ⟨e₁, hmem₁, hB | hD⟩ := exists_mem hAB rfl he
  · obtain ⟨mid, rest, rfl⟩ := List.append_of_mem hmem₁
    obtain ⟨e₂, hmem₂, hC⟩ := exists_mem hBC
      (show pre ++ e :: (mid ++ e₁ :: rest) = (pre ++ e :: mid) ++ e₁ :: rest by simp) hB
    exact hpost e₂ (by simp [hmem₂]) (.inl hC)
  · exact hpost e₁ hmem₁ (.inr hD)

/-- The events seen through a partial function. -/
theorem filterMap {A' B' : ζ → Prop} {f : ε → Option ζ} (h : Since A B tr)
    (hA : ∀ e, A e → ∃ x, f e = some x ∧ A' x) (hB : ∀ e x, f e = some x → B' x → B e) :
    Since A' B' (tr.filterMap f) := by
  obtain ⟨pre, e, post, rfl, he, hpost⟩ := h
  obtain ⟨x, hx, hAx⟩ := hA e he
  refine ⟨pre.filterMap f, x, post.filterMap f, ?_, hAx, fun x' hmem hBx => ?_⟩
  · rw [List.filterMap_append, List.filterMap_cons_some hx]
  · obtain ⟨e', hmem, hx'⟩ := List.mem_filterMap.mp hmem
    exact hpost e' hmem (hB e' x' hx' hBx)

end Since
