import FileMonitor.Library.EventMachine

/-!
# Settling

The steps of a machine fall into its own and those of its surroundings.  `Settles P Q s` says what the
steps of `P` come to from `s` while nothing else happens: however they are scheduled, there is an end to
them, and no state outside `Q` is left without one.

* `settles_of_wellFounded` is the rule: an invariant that the steps keep, a well-founded order that they
  go down in, and a step where `Q` does not hold yet.
* `Settles.and_kept` adds what the steps keep to where they come to.
-/

namespace EventMachine

variable {σ α ε : Type*}

/-- However the steps of `P` are scheduled, they come to an end, and not outside `Q`. -/
inductive Settles (M : EventMachine σ α ε) (P : α → Prop) (Q : σ → Prop) : σ → Prop where
  | intro {s} (progress : Q s ∨ ∃ a, P a ∧ (M.step s a).isSome)
      (next : ∀ a s' es, P a → M.step s a = some (s', es) → Settles M P Q s') : Settles M P Q s

variable {M : EventMachine σ α ε} {P : α → Prop} {Q : σ → Prop}

/-- **The rule.**  The steps keep `I` and go down in `r`, and while `Q` does not hold there is one. -/
theorem settles_of_wellFounded {r : σ → σ → Prop} (hwf : WellFounded r) {I : σ → Prop}
    (hkeep : ∀ s a s' es, I s → P a → M.step s a = some (s', es) → I s' ∧ r s' s)
    (hprogress : ∀ s, I s → Q s ∨ ∃ a, P a ∧ (M.step s a).isSome) {s : σ} (hs : I s) :
    M.Settles P Q s := by
  induction s using hwf.induction with
  | _ s ih =>
    refine .intro (hprogress s hs) fun a s' es own taken => ?_
    obtain ⟨hs', hless⟩ := hkeep s a s' es hs own taken
    exact ih s' hless hs'

/-- The rule for a measure. -/
theorem settles_of_measure (measure : σ → ℕ) {I : σ → Prop}
    (hkeep : ∀ s a s' es, I s → P a → M.step s a = some (s', es) → I s' ∧ measure s' < measure s)
    (hprogress : ∀ s, I s → Q s ∨ ∃ a, P a ∧ (M.step s a).isSome) {s : σ} (hs : I s) :
    M.Settles P Q s :=
  settles_of_wellFounded (InvImage.wf measure Nat.lt_wfRel.wf) hkeep hprogress hs

/-- What the steps keep holds where they come to. -/
theorem Settles.and_kept {I : σ → Prop} {s : σ} (h : M.Settles P Q s) (hs : I s)
    (hkeep : ∀ s a s' es, I s → P a → M.step s a = some (s', es) → I s') :
    M.Settles P (fun s => Q s ∧ I s) s := by
  induction h with
  | intro progress _ ih =>
    exact .intro (progress.imp_left fun hQ => ⟨hQ, hs⟩)
      fun a s' es own taken => ih a s' es own taken (hkeep _ a s' es hs own taken)

theorem Settles.mono {R : σ → Prop} {s : σ} (h : M.Settles P Q s) (himp : ∀ s, Q s → R s) :
    M.Settles P R s := by
  induction h with
  | intro progress _ ih => exact .intro (progress.imp_left (himp _)) ih

end EventMachine
