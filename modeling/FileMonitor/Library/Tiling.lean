import Mathlib.Data.List.Basic
import Mathlib.Order.Lattice

/-!
# Tilings of an interval

`Tiles a c pieces` says that the half-open pieces follow each other without a gap, none of them empty,
from `a` to `c`.

* `Tiles.countP_eq_one`: every point of `[a, c)` lies in exactly one piece.
* `tiles_range`: the pieces between the values of a strictly increasing sequence are a tiling.
-/

/-- The pieces `[x, y)`, one after the other, make up `[a, c)`. -/
inductive Tiles {α : Type*} [LinearOrder α] : α → α → List (α × α) → Prop
  | nil (a : α) : Tiles a a []
  | cons {a b c : α} {pieces : List (α × α)} (nonempty : a < b) (rest : Tiles b c pieces) :
      Tiles a c ((a, b) :: pieces)

namespace Tiles

variable {α : Type*} [LinearOrder α] {a b c : α} {pieces pieces' : List (α × α)}

theorem le (h : Tiles a c pieces) : a ≤ c := by
  induction h with
  | nil => exact le_rfl
  | cons nonempty _ ih => exact nonempty.le.trans ih

theorem append (h : Tiles a b pieces) (h' : Tiles b c pieces') : Tiles a c (pieces ++ pieces') := by
  induction h with
  | nil => exact h'
  | cons nonempty _ ih => exact .cons nonempty (ih h')

/-- Below the tiled interval there is no piece. -/
theorem countP_eq_zero (h : Tiles a c pieces) {x : α} (hx : x < a) :
    pieces.countP (fun piece => piece.1 ≤ x ∧ x < piece.2) = 0 := by
  induction h with
  | nil => rfl
  | @cons a b c pieces nonempty _ ih =>
    rw [List.countP_cons_of_neg, ih (hx.trans nonempty)]
    simp [not_le.mpr hx]

/-- **Every point lies in exactly one piece.** -/
theorem countP_eq_one (h : Tiles a c pieces) {x : α} (hle : a ≤ x) (hlt : x < c) :
    pieces.countP (fun piece => piece.1 ≤ x ∧ x < piece.2) = 1 := by
  induction h with
  | nil => exact absurd hlt (not_lt.mpr hle)
  | @cons a b c pieces _ rest ih =>
    by_cases hx : x < b
    · rw [List.countP_cons_of_pos, rest.countP_eq_zero hx]
      simp [hle, hx]
    · rw [List.countP_cons_of_neg, ih (not_lt.mp hx) hlt]
      simp [hx]

/-- A tiling starts where the interval does. -/
theorem fst_eq_of_head? (h : Tiles a c pieces) {piece : α × α} (hhead : pieces.head? = some piece) :
    piece.1 = a := by
  cases h with
  | nil => cases hhead
  | cons => exact congrArg Prod.fst (Option.some.inj hhead).symm

/-- A tiling ends where the interval does. -/
theorem snd_eq_of_getLast? (h : Tiles a c pieces) {piece : α × α}
    (hlast : pieces.getLast? = some piece) : piece.2 = c := by
  induction h with
  | nil => cases hlast
  | @cons a b c pieces _ rest ih =>
    cases rest with
    | nil =>
      rw [List.getLast?_singleton, Option.some.injEq] at hlast
      rw [← hlast]
    | cons _ _ =>
      rw [List.getLast?_cons_cons] at hlast
      exact ih hlast

/-- Each piece starts where the one before it ends. -/
theorem fst_succ (h : Tiles a c pieces) {i : ℕ} {piece next : α × α} (hi : pieces[i]? = some piece)
    (hnext : pieces[i + 1]? = some next) : next.1 = piece.2 := by
  induction h generalizing i with
  | nil => cases hi
  | @cons a b c pieces _ rest ih =>
    cases i with
    | zero =>
      obtain rfl : (a, b) = piece := Option.some.inj hi
      rw [List.getElem?_cons_succ, ← List.head?_eq_getElem?] at hnext
      exact rest.fst_eq_of_head? hnext
    | succ i => exact ih hi hnext

/-- No piece is empty. -/
theorem fst_lt_snd (h : Tiles a c pieces) {piece : α × α} (hmem : piece ∈ pieces) :
    piece.1 < piece.2 := by
  induction h with
  | nil => cases hmem
  | cons nonempty _ ih =>
    rcases List.mem_cons.mp hmem with rfl | hmem
    · exact nonempty
    · exact ih hmem

end Tiles

/-- **Cutting at an increasing sequence.** -/
theorem tiles_range {α : Type*} [LinearOrder α] {g : ℕ → α} {n : ℕ} (h : ∀ i < n, g i < g (i + 1)) :
    Tiles (g 0) (g n) ((List.range n).map fun i => (g i, g (i + 1))) := by
  induction n with
  | zero => exact .nil _
  | succ n ih =>
    rw [List.range_succ, List.map_append]
    exact (ih fun i hi => h i (by omega)).append (.cons (h n (by omega)) (.nil _))
