import Mathlib.Algebra.Order.Floor.Ring
import Mathlib.Algebra.Order.Floor.Semiring
import Mathlib.Algebra.Order.Archimedean.Basic
import Mathlib.Data.Int.Log
import Mathlib.Data.Rat.Floor
import Mathlib.Tactic.FieldSimp
import Mathlib.Tactic.Linarith
import Mathlib.Tactic.NormNum
import Mathlib.Tactic.Positivity
import Mathlib.Tactic.Ring

/-!
# Rounding a rational to `p` significant bits

`halfEven x` is the integer nearest to `x`, a tie going to the even one.  `toPrecision p x` is the
number with a `p`-bit significand nearest to `x`, again with ties to even: `x` is measured in units
of `ulp p x = 2 ^ (⌊log₂ |x|⌋ + 1 - p)`, so that the scaled value has exactly `p` bits before the
point.  The exponent is unbounded, so there is neither overflow nor underflow.

The main results are that rounding is monotone, and when it keeps the ceiling of a quotient of natural
numbers.

* `toPrecision_mono`: of two nonnegative numbers the larger one is not rounded to less.
* `ceil_toPrecision_div`: as long as the numerator is at most `2 ^ p`, rounding to `p` bits does not
  change the ceiling, whatever the denominator.  A fractional part of `a / b` is at least `1 / b`, and
  `b · 2 ^ ⌊log₂ (a / b)⌋ < a ≤ 2 ^ p` says that this is more than half a unit in the last place.
* `ceil_toPrecision_div_eq_iff`: for a numerator of any size, `KeepsCeil` says in integer arithmetic
  when the ceiling is the same.
-/

namespace RoundNearest

/-! ### Rounding to an integer -/

/-- The integer nearest to `x`, ties to even. -/
def halfEven (x : ℚ) : ℤ :=
  if x - ⌊x⌋ < 1 / 2 then ⌊x⌋
  else if 1 / 2 < x - ⌊x⌋ then ⌊x⌋ + 1
  else if ⌊x⌋ % 2 = 0 then ⌊x⌋ else ⌊x⌋ + 1

theorem halfEven_eq_or (x : ℚ) :
    (halfEven x = ⌊x⌋ ∧ x - ⌊x⌋ ≤ 1 / 2) ∨ (halfEven x = ⌊x⌋ + 1 ∧ 1 / 2 ≤ x - ⌊x⌋) := by
  unfold halfEven
  split_ifs with h₁ h₂ h₃
  · exact Or.inl ⟨rfl, h₁.le⟩
  · exact Or.inr ⟨rfl, h₂.le⟩
  · exact Or.inl ⟨rfl, not_lt.mp h₂⟩
  · exact Or.inr ⟨rfl, not_lt.mp h₁⟩

@[simp] theorem halfEven_intCast (k : ℤ) : halfEven k = k := by
  simp [halfEven]

theorem halfEven_le {x : ℚ} {k : ℤ} (h : x ≤ k) : halfEven x ≤ k := by
  have hfloor : ⌊x⌋ ≤ k := by
    have := Int.floor_le x
    exact_mod_cast this.trans h
  rcases halfEven_eq_or x with ⟨heq, -⟩ | ⟨heq, hfrac⟩
  · rw [heq]; exact hfloor
  · -- rounding up happens strictly between two integers
    rw [heq]
    have hlt : (⌊x⌋ : ℚ) < k := by linarith
    exact_mod_cast hlt

theorem le_halfEven {x : ℚ} {k : ℤ} (h : (k : ℚ) ≤ x) : k ≤ halfEven x := by
  have hfloor : k ≤ ⌊x⌋ := Int.le_floor.mpr h
  rcases halfEven_eq_or x with ⟨heq, -⟩ | ⟨heq, -⟩ <;> omega

/-- Passing the middle between two integers, or sitting on it above an odd one, is what rounds up. -/
theorem lt_halfEven_iff {x : ℚ} {k : ℤ} :
    k < halfEven x ↔ k + 1 / 2 < x ∨ (x = k + 1 / 2 ∧ k % 2 = 1) := by
  have hfloor := Int.floor_le x
  have hlt := Int.lt_floor_add_one x
  rcases lt_trichotomy ⌊x⌋ k with hk | rfl | hk
  · -- the whole of `x` is below `k`
    have hle : x ≤ k := hlt.le.trans (by exact_mod_cast hk)
    constructor
    · intro h
      exact absurd (halfEven_le hle) (not_le.mpr h)
    · rintro (h | ⟨h, -⟩) <;> linarith
  · unfold halfEven
    split_ifs with h₁ h₂ h₃
    · constructor
      · intro h
        exact absurd h (lt_irrefl _)
      · rintro (h | ⟨h, -⟩) <;> linarith
    · exact ⟨fun _ => .inl (by linarith), fun _ => by omega⟩
    · constructor
      · intro h
        exact absurd h (lt_irrefl _)
      · rintro (h | ⟨-, h⟩)
        · linarith
        · omega
    · exact ⟨fun _ => .inr ⟨by linarith, by omega⟩, fun _ => by omega⟩
  · have hle : ((k + 1 : ℤ) : ℚ) ≤ x := (Int.cast_le.mpr hk).trans hfloor
    constructor
    · intro _
      left
      push_cast at hle
      linarith
    · intro _
      have := le_halfEven hle
      omega

theorem halfEven_mono {x y : ℚ} (h : x ≤ y) : halfEven x ≤ halfEven y := by
  by_contra hlt
  have hy := lt_irrefl (halfEven y)
  rw [lt_halfEven_iff] at hy
  rcases lt_halfEven_iff.mp (not_le.mp hlt) with hx | ⟨hx, hodd⟩
  · exact hy (.inl (hx.trans_le h))
  · -- `x` is a middle that is rounded up, and `y` is the same one or further up
    rcases h.eq_or_lt with rfl | h
    · exact hy (.inr ⟨hx, hodd⟩)
    · exact hy (.inl (hx ▸ h))

theorem sub_half_le_halfEven (x : ℚ) : x - 1 / 2 ≤ halfEven x := by
  have hlt := Int.lt_floor_add_one x
  rcases halfEven_eq_or x with ⟨heq, hfrac⟩ | ⟨heq, hfrac⟩
  · rw [heq]; linarith
  · rw [heq]; push_cast; linarith

/-! ### Rounding to `p` significant bits -/

/-- The unit in the last place of a `p`-bit significand at the magnitude of `x`. -/
def ulp (p : ℕ) (x : ℚ) : ℚ := 2 ^ (Int.log 2 |x| + 1 - (p : ℤ))

/-- The number with a `p`-bit significand nearest to `x`, ties to even. -/
def toPrecision (p : ℕ) (x : ℚ) : ℚ :=
  if x = 0 then 0 else halfEven (x / ulp p x) * ulp p x

theorem ulp_pos (p : ℕ) (x : ℚ) : 0 < ulp p x := zpow_pos (by norm_num) _

@[simp] theorem toPrecision_zero (p : ℕ) : toPrecision p 0 = 0 := if_pos rfl

theorem toPrecision_of_ne_zero (p : ℕ) {x : ℚ} (hx : x ≠ 0) :
    toPrecision p x = halfEven (x / ulp p x) * ulp p x := if_neg hx

/-- Rounding does not pass a multiple of the unit in the last place. -/
theorem toPrecision_le {p : ℕ} {x : ℚ} (hx : x ≠ 0) {k : ℤ} (h : x ≤ k * ulp p x) :
    toPrecision p x ≤ k * ulp p x := by
  rw [toPrecision_of_ne_zero p hx]
  have hk : halfEven (x / ulp p x) ≤ k := halfEven_le ((div_le_iff₀ (ulp_pos p x)).mpr h)
  exact mul_le_mul_of_nonneg_right (by exact_mod_cast hk) (ulp_pos p x).le

theorem le_toPrecision {p : ℕ} {x : ℚ} (hx : x ≠ 0) {k : ℤ} (h : k * ulp p x ≤ x) :
    k * ulp p x ≤ toPrecision p x := by
  rw [toPrecision_of_ne_zero p hx]
  have hk : k ≤ halfEven (x / ulp p x) := le_halfEven ((le_div_iff₀ (ulp_pos p x)).mpr h)
  exact mul_le_mul_of_nonneg_right (by exact_mod_cast hk) (ulp_pos p x).le

/-- A multiple of the unit in the last place is kept. -/
theorem toPrecision_eq_self {p : ℕ} {x : ℚ} (hx : x ≠ 0) {k : ℤ} (h : x = k * ulp p x) :
    toPrecision p x = x := by
  apply le_antisymm
  · calc toPrecision p x ≤ k * ulp p x := toPrecision_le hx h.le
      _ = x := h.symm
  · calc x = k * ulp p x := h
      _ ≤ toPrecision p x := le_toPrecision hx h.symm.le

/-- Rounding down loses at most half a unit in the last place. -/
theorem sub_half_ulp_le_toPrecision {p : ℕ} {x : ℚ} (hx : x ≠ 0) :
    x - ulp p x / 2 ≤ toPrecision p x := by
  rw [toPrecision_of_ne_zero p hx]
  have hu := ulp_pos p x
  have h := mul_le_mul_of_nonneg_right (sub_half_le_halfEven (x / ulp p x)) hu.le
  have heq : (x / ulp p x - 1 / 2) * ulp p x = x - ulp p x / 2 := by field_simp
  rwa [heq] at h

/-! ### Magnitudes -/

theorem two_zpow_log_le {x : ℚ} (hx : 0 < x) : (2 : ℚ) ^ Int.log 2 |x| ≤ x := by
  have h := Int.zpow_log_le_self (b := 2) (by norm_num) hx
  rw [abs_of_pos hx]
  exact_mod_cast h

/-- Below `2 ^ p` the unit in the last place is at most `1`, so it divides every integer. -/
theorem exists_mul_ulp_eq {p : ℕ} {x : ℚ} (h : Int.log 2 |x| < p) (k : ℤ) :
    ∃ m : ℤ, (k : ℚ) = m * ulp p x := by
  obtain ⟨d, hd⟩ : ∃ d : ℕ, (p : ℤ) = Int.log 2 |x| + 1 + d :=
    ⟨(p - (Int.log 2 |x| + 1)).toNat, by omega⟩
  refine ⟨k * 2 ^ d, ?_⟩
  have hulp : ulp p x = ((2 : ℚ) ^ d)⁻¹ := by
    unfold ulp
    rw [hd, show Int.log 2 |x| + 1 - (Int.log 2 |x| + 1 + (d : ℤ)) = -(d : ℤ) by ring, zpow_neg,
      zpow_natCast]
  rw [hulp]
  push_cast
  field_simp

theorem log_lt_of_lt_two_pow {p : ℕ} {x : ℚ} (hx : 0 < x) (h : x < 2 ^ p) :
    Int.log 2 |x| < p := by
  by_contra hge
  have h₁ : (2 : ℚ) ^ (p : ℤ) ≤ 2 ^ Int.log 2 |x| :=
    zpow_le_zpow_right₀ (by norm_num) (not_lt.mp hge)
  rw [zpow_natCast] at h₁
  linarith [two_zpow_log_le hx]

/-- A positive number stays positive: it has at least one bit before the scaled point. -/
theorem toPrecision_pos {p : ℕ} (hp : 0 < p) {x : ℚ} (hx : 0 < x) : 0 < toPrecision p x := by
  have hle : ((1 : ℤ) : ℚ) * ulp p x ≤ x := by
    have h₁ : ulp p x ≤ 2 ^ Int.log 2 |x| := zpow_le_zpow_right₀ (by norm_num) (by omega)
    push_cast
    linarith [two_zpow_log_le hx]
  have h₂ := le_toPrecision hx.ne' hle
  have h₃ := ulp_pos p x
  push_cast at h₂
  linarith

/-- Rounding at most doubles. -/
theorem toPrecision_le_two_mul {p : ℕ} (hp : 0 < p) {x : ℚ} (hx : 0 < x) : toPrecision p x ≤ 2 * x := by
  have hulp : ulp p x ≤ x := by
    calc ulp p x ≤ 2 ^ Int.log 2 |x| := zpow_le_zpow_right₀ (by norm_num) (by omega)
      _ ≤ x := two_zpow_log_le hx
  have hround : (halfEven (x / ulp p x) : ℚ) ≤ x / ulp p x + 1 := by
    have hfloor := Int.floor_le (x / ulp p x)
    rcases halfEven_eq_or (x / ulp p x) with ⟨heq, -⟩ | ⟨heq, -⟩
    · rw [heq]; linarith
    · rw [heq]; push_cast; linarith
  rw [toPrecision_of_ne_zero p hx.ne']
  calc (halfEven (x / ulp p x) : ℚ) * ulp p x
      ≤ (x / ulp p x + 1) * ulp p x := mul_le_mul_of_nonneg_right hround (ulp_pos p x).le
    _ = x + ulp p x := by rw [add_mul, div_mul_cancel₀ _ (ulp_pos p x).ne', one_mul]
    _ ≤ 2 * x := by linarith

theorem toPrecision_nonneg {p : ℕ} {x : ℚ} (hx : 0 ≤ x) : 0 ≤ toPrecision p x := by
  rcases hx.eq_or_lt with rfl | hpos
  · simp
  · simpa using le_toPrecision (p := p) hpos.ne' (k := 0) (by simpa using hpos.le)

/-- A power of two as a multiple of the unit in the last place. -/
theorem two_pow_mul_ulp (p d : ℕ) (x : ℚ) :
    ((2 ^ d : ℤ) : ℚ) * ulp p x = 2 ^ (Int.log 2 |x| + 1 - p + d) := by
  unfold ulp
  push_cast
  rw [← zpow_natCast, ← zpow_add₀ (by norm_num)]
  congr 1
  omega

/-- **Rounding is monotone.** -/
theorem toPrecision_mono {p : ℕ} (hp : 0 < p) {x y : ℚ} (hx : 0 ≤ x) (h : x ≤ y) :
    toPrecision p x ≤ toPrecision p y := by
  rcases hx.eq_or_lt with rfl | hx
  · rw [toPrecision_zero]
    exact toPrecision_nonneg h
  have hy : 0 < y := hx.trans_le h
  have hlog : Int.log 2 |x| ≤ Int.log 2 |y| := by
    rw [abs_of_pos hx, abs_of_pos hy]
    exact Int.log_mono_right hx h
  rcases hlog.eq_or_lt with hlog | hlog
  · -- the same unit in the last place
    have hulp : ulp p x = ulp p y := by
      unfold ulp
      rw [hlog]
    have hdiv : x / ulp p y ≤ y / ulp p y := div_le_div_of_nonneg_right h (ulp_pos p y).le
    rw [toPrecision_of_ne_zero p hx.ne', toPrecision_of_ne_zero p hy.ne', hulp]
    exact mul_le_mul_of_nonneg_right (Int.cast_le.mpr (halfEven_mono hdiv)) (ulp_pos p y).le
  · -- a power of two lies in between
    have hupper : x ≤ ((2 ^ p : ℤ) : ℚ) * ulp p x := by
      rw [two_pow_mul_ulp, sub_add_cancel, abs_of_pos hx]
      exact (Int.lt_zpow_succ_log_self (by norm_num) x).le
    have hexponent : Int.log 2 |y| + 1 - p + (p - 1 : ℕ) = Int.log 2 |y| := by omega
    have hlower : ((2 ^ (p - 1) : ℤ) : ℚ) * ulp p y ≤ y := by
      rw [two_pow_mul_ulp, hexponent]
      exact two_zpow_log_le hy
    calc toPrecision p x ≤ ((2 ^ p : ℤ) : ℚ) * ulp p x := toPrecision_le hx.ne' hupper
      _ = 2 ^ (Int.log 2 |x| + 1) := by rw [two_pow_mul_ulp, sub_add_cancel]
      _ ≤ 2 ^ Int.log 2 |y| := zpow_le_zpow_right₀ (by norm_num) hlog
      _ = ((2 ^ (p - 1) : ℤ) : ℚ) * ulp p y := by rw [two_pow_mul_ulp, hexponent]
      _ ≤ toPrecision p y := le_toPrecision hy.ne' hlower

/-- **Integers up to `2 ^ p` are kept.** -/
theorem toPrecision_natCast {p : ℕ} (hp : 0 < p) {N : ℕ} (hN : N ≤ 2 ^ p) :
    toPrecision p N = N := by
  rcases Nat.eq_zero_or_pos N with rfl | hpos
  · simp
  have hN0 : (N : ℚ) ≠ 0 := by exact_mod_cast hpos.ne'
  rcases hN.lt_or_eq with hlt | rfl
  · have hlog := log_lt_of_lt_two_pow (p := p) (x := N) (by exact_mod_cast hpos)
      (by exact_mod_cast hlt)
    obtain ⟨m, hm⟩ := exists_mul_ulp_eq hlog N
    exact toPrecision_eq_self hN0 (by exact_mod_cast hm)
  · -- at `2 ^ p` the unit in the last place is `2`
    obtain ⟨q, rfl⟩ : ∃ q, p = q + 1 := ⟨p - 1, by omega⟩
    refine toPrecision_eq_self hN0 (k := 2 ^ q) ?_
    have habs : |((2 ^ (q + 1) : ℕ) : ℚ)| = (((2 : ℕ) : ℚ) ^ ((q + 1 : ℕ) : ℤ)) := by
      rw [abs_of_pos (by positivity), zpow_natCast]; push_cast; rfl
    unfold ulp
    rw [habs, Int.log_zpow (by norm_num),
      show ((q + 1 : ℕ) : ℤ) + 1 - ((q + 1 : ℕ) : ℤ) = 1 by ring, zpow_one]
    push_cast
    ring

/-! ### The ceiling of a rounded quotient -/

/-- The fractional part of a quotient with numerator at most `2 ^ p` is more than half a unit in
the last place, unless the quotient is below `1` or an integer. -/
theorem half_ulp_lt_sub {p a b : ℕ} (hb : 0 < b) (ha : a ≤ 2 ^ p) {n : ℕ} (hn : 1 ≤ n)
    (hlo : n * b < a) (hint : ¬ b ∣ a) :
    ulp p ((a : ℚ) / b) / 2 < (a : ℚ) / b - n := by
  set x : ℚ := (a : ℚ) / b with hx
  have hbq : (0 : ℚ) < b := by exact_mod_cast hb
  have haq : x * b = a := div_mul_cancel₀ _ hbq.ne'
  have hxpos : 0 < x := div_pos (by exact_mod_cast (Nat.zero_le _).trans_lt hlo) hbq
  have hx1 : 1 ≤ x := by
    rw [hx, le_div_iff₀ hbq, one_mul]
    exact_mod_cast (Nat.le_mul_of_pos_left b hn).trans hlo.le
  -- the exponent is a natural number `L`, and `b * 2 ^ L < a`
  obtain ⟨L, hL⟩ : ∃ L : ℕ, Int.log 2 |x| = L := by
    rw [abs_of_pos hxpos, Int.log_of_one_le_right 2 hx1]
    exact ⟨_, rfl⟩
  have hle := two_zpow_log_le hxpos
  rw [hL, zpow_natCast] at hle
  have hmul : (b : ℚ) * 2 ^ L ≤ a := by
    calc (b : ℚ) * 2 ^ L ≤ b * x := mul_le_mul_of_nonneg_left hle hbq.le
      _ = a := by rw [mul_comm]; exact haq
  have hlt : b * 2 ^ L < 2 ^ p := by
    have h₁ : b * 2 ^ L ≤ a := by exact_mod_cast hmul
    rcases h₁.lt_or_eq with h | h
    · omega
    · exact absurd ⟨2 ^ L, h.symm⟩ hint
  have hfrac : 1 / (b : ℚ) ≤ x - n := by
    have h₁ : (n : ℚ) * b + 1 ≤ a := by exact_mod_cast hlo
    rw [div_le_iff₀ hbq, sub_mul, haq]
    linarith
  have hhalf : ulp p x / 2 = (2 : ℚ) ^ L / 2 ^ p := by
    unfold ulp
    rw [hL, show (L : ℤ) + 1 - (p : ℤ) = (L : ℤ) - (p : ℤ) + 1 by ring,
      zpow_add_one₀ (by norm_num), zpow_sub₀ (by norm_num), zpow_natCast, zpow_natCast]
    ring
  have hulp : (2 : ℚ) ^ L / 2 ^ p < 1 / b := by
    rw [div_lt_div_iff₀ (by positivity) hbq, one_mul, mul_comm]
    exact_mod_cast hlt
  linarith

/-- **Rounding keeps the ceiling.**  For a numerator of at most `2 ^ p` the quotient rounded to `p`
bits has the same ceiling as the exact one. -/
theorem ceil_toPrecision_div {p : ℕ} (hp : 0 < p) {a b : ℕ} (hb : 0 < b) (ha : a ≤ 2 ^ p) :
    ⌈toPrecision p ((a : ℚ) / b)⌉ = ⌈(a : ℚ) / b⌉ := by
  have hbq : (0 : ℚ) < b := by exact_mod_cast hb
  by_cases hint : b ∣ a
  · obtain ⟨q, rfl⟩ := hint
    have hq : ((b * q : ℕ) : ℚ) / b = (q : ℕ) := by push_cast; field_simp
    rw [hq, toPrecision_natCast hp ((Nat.le_mul_of_pos_left q hb).trans ha)]
  have hapos : 0 < a := Nat.pos_of_ne_zero (by rintro rfl; exact hint (dvd_zero b))
  have hxpos : (0 : ℚ) < (a : ℚ) / b := div_pos (by exact_mod_cast hapos) hbq
  have hxlt : (a : ℚ) / b < 2 ^ p := by
    have hb1 : b ≠ 1 := by rintro rfl; exact hint (one_dvd a)
    rw [div_lt_iff₀ hbq]
    have : 2 ^ p < 2 ^ p * b := lt_mul_of_one_lt_right (Nat.two_pow_pos p) (by omega)
    exact_mod_cast ha.trans_lt this
  -- `n < a / b < n + 1` for `n = a / b` in the natural numbers
  set n := a / b with hn
  have hlo : n * b < a := by
    rcases (Nat.div_mul_le_self a b).lt_or_eq with h | h
    · exact h
    · exact absurd ⟨n, by rw [mul_comm]; exact h.symm⟩ hint
  have hhi : a < (n + 1) * b := by
    rw [hn, mul_comm]; exact Nat.lt_mul_div_succ a hb
  have hloq : (n : ℚ) < (a : ℚ) / b := by
    rw [lt_div_iff₀ hbq]; exact_mod_cast hlo
  have hhiq : (a : ℚ) / b ≤ ((n + 1 : ℤ) : ℚ) := by
    rw [div_le_iff₀ hbq]; exact_mod_cast hhi.le
  have hceil : ⌈(a : ℚ) / b⌉ = (n + 1 : ℤ) := by
    rw [Int.ceil_eq_iff]
    exact ⟨by push_cast; linarith, hhiq⟩
  rw [hceil, Int.ceil_eq_iff]
  constructor
  · -- below: a quotient under `1` stays positive, a larger one loses less than its fraction
    push_cast
    rcases Nat.eq_zero_or_pos n with h0 | hpos
    · have := toPrecision_pos hp hxpos
      rw [h0]; push_cast; linarith
    · have h₁ := half_ulp_lt_sub hb ha hpos hlo hint
      have h₂ := sub_half_ulp_le_toPrecision (p := p) hxpos.ne'
      linarith
  · -- above: `n + 1` is a multiple of the unit in the last place
    obtain ⟨m, hm⟩ := exists_mul_ulp_eq (log_lt_of_lt_two_pow hxpos hxlt) (n + 1)
    rw [hm] at hhiq ⊢
    exact toPrecision_le hxpos.ne' hhiq

/-! ### When the ceiling is kept -/

/-- Rounding `a / b` to `p` bits keeps the ceiling.  With quotient `n`, remainder `r` and `L` the
exponent of `n`: as long as `n` has at most `p` bits, this fails only where the remainder is so small
that the quotient is rounded down to `n`; beyond that, only multiples of the unit in the last place are
left, and the ceiling has to be one. -/
def KeepsCeil (p a b : ℕ) : Prop :=
  let n := a / b
  let r := a % b
  let L := Nat.log 2 n
  n = 0 ∨ (L < p ∧ (r = 0 ∨ b < r * 2 ^ (p - L) ∨ (b = r * 2 ^ (p - L) ∧ L + 1 = p ∧ n % 2 = 1))) ∨
    (p ≤ L ∧ 2 ^ (L + 1 - p) ∣ (a + b - 1) / b)

instance (p a b : ℕ) : Decidable (KeepsCeil p a b) := by
  unfold KeepsCeil
  infer_instance

section KeepsCeil

variable {p a b : ℕ}

/-- The exponent of a quotient is that of its whole part. -/
theorem log_div_eq (hb : 0 < b) (hn : a / b ≠ 0) :
    Int.log 2 |(a : ℚ) / b| = Nat.log 2 (a / b) := by
  have hbq : (0 : ℚ) < b := by exact_mod_cast hb
  have hle : b ≤ a := by
    by_contra h
    exact hn (Nat.div_eq_of_lt (not_le.mp h))
  have hone : (1 : ℚ) ≤ (a : ℚ) / b := by
    rw [le_div_iff₀ hbq, one_mul]
    exact_mod_cast hle
  rw [abs_of_nonneg (by positivity), Int.log_of_one_le_right 2 hone, Rat.natFloor_natCast_div_natCast]

/-- A quotient of a whole part and a remainder. -/
theorem natCast_div_eq (hb : 0 < b) : (a : ℚ) / b = (a / b : ℕ) + (a % b : ℕ) / b := by
  have hbq : (b : ℚ) ≠ 0 := by exact_mod_cast hb.ne'
  have hdiv : (a : ℚ) = (a / b : ℕ) * b + (a % b : ℕ) := by exact_mod_cast (Nat.div_add_mod' a b).symm
  rw [div_eq_iff hbq, add_mul, div_mul_cancel₀ _ hbq]
  exact hdiv

/-- **When the rounded quotient stays above the whole part**, as long as the whole part has at most `p`
bits. -/
theorem lt_toPrecision_div_iff (hb : 0 < b) (hn : a / b ≠ 0) (hlog : Nat.log 2 (a / b) < p) :
    ((a / b : ℕ) : ℚ) < toPrecision p ((a : ℚ) / b) ↔
      b < a % b * 2 ^ (p - Nat.log 2 (a / b)) ∨
        (b = a % b * 2 ^ (p - Nat.log 2 (a / b)) ∧ Nat.log 2 (a / b) + 1 = p ∧ a / b % 2 = 1) := by
  have hbq : (0 : ℚ) < b := by exact_mod_cast hb
  have hx : (a : ℚ) / b ≠ 0 := by
    rw [natCast_div_eq hb]
    have : (0 : ℚ) < (a / b : ℕ) := by exact_mod_cast Nat.pos_of_ne_zero hn
    positivity
  -- `d` bits of the significand come after the point
  obtain ⟨d, hd⟩ : ∃ d, p - Nat.log 2 (a / b) = d + 1 := ⟨p - Nat.log 2 (a / b) - 1, by omega⟩
  have hulp : ulp p ((a : ℚ) / b) = ((2 : ℚ) ^ d)⁻¹ := by
    unfold ulp
    rw [log_div_eq hb hn, show (Nat.log 2 (a / b) : ℤ) + 1 - p = -(d : ℤ) by omega, zpow_neg,
      zpow_natCast]
  have hscaled : (a : ℚ) / b / ulp p ((a : ℚ) / b)
      = ((a / b * 2 ^ d : ℕ) : ℤ) + (a % b : ℕ) * 2 ^ d / b := by
    rw [hulp, div_inv_eq_mul, natCast_div_eq hb, Int.cast_natCast, Nat.cast_mul, Nat.cast_pow,
      Nat.cast_two]
    ring
  have hfrac : (1 : ℚ) / 2 < (a % b : ℕ) * 2 ^ d / b ↔ b < a % b * 2 ^ (d + 1) := by
    rw [lt_div_iff₀ hbq, pow_succ, ← Nat.cast_lt (α := ℚ)]
    push_cast
    constructor <;> intro h <;> linarith
  have htie : (a % b : ℕ) * 2 ^ d / b = (1 : ℚ) / 2 ↔ b = a % b * 2 ^ (d + 1) := by
    rw [div_eq_iff hbq.ne', pow_succ, ← Nat.cast_inj (R := ℚ)]
    push_cast
    constructor <;> intro h <;> linarith
  have hodd : ((a / b * 2 ^ d : ℕ) : ℤ) % 2 = 1 ↔ Nat.log 2 (a / b) + 1 = p ∧ a / b % 2 = 1 := by
    rcases Nat.eq_zero_or_pos d with rfl | hpos
    · rw [pow_zero, mul_one]
      omega
    · obtain ⟨e, rfl⟩ : ∃ e, d = e + 1 := ⟨d - 1, by omega⟩
      rw [pow_succ, ← mul_assoc]
      omega
  rw [toPrecision_of_ne_zero p hx, hd, ← hfrac, ← htie, ← hodd]
  have hpow : (0 : ℚ) < 2 ^ d := by positivity
  have hlt : ((a / b : ℕ) : ℚ) < halfEven ((a : ℚ) / b / ulp p ((a : ℚ) / b)) * ulp p ((a : ℚ) / b) ↔
      ((a / b * 2 ^ d : ℕ) : ℤ) < halfEven ((a : ℚ) / b / ulp p ((a : ℚ) / b)) := by
    rw [hulp, ← div_eq_mul_inv, lt_div_iff₀ hpow, ← Int.cast_lt (R := ℚ), Int.cast_natCast,
      Nat.cast_mul, Nat.cast_pow, Nat.cast_two]
  rw [hlt, lt_halfEven_iff, hscaled, add_lt_add_iff_left, add_right_inj]

/-- A quotient rounded above its whole part goes no further than the next integer. -/
theorem toPrecision_div_le (hb : 0 < b) (hlog : Int.log 2 |(a : ℚ) / b| < p) (ha : 0 < a) :
    toPrecision p ((a : ℚ) / b) ≤ ((a / b : ℕ) : ℚ) + 1 := by
  have hbq : (0 : ℚ) < b := by exact_mod_cast hb
  have hx : (a : ℚ) / b ≠ 0 := by positivity
  obtain ⟨m, hm⟩ := exists_mul_ulp_eq hlog ((a / b : ℕ) + 1)
  have hle : (a : ℚ) / b ≤ (((a / b : ℕ) + 1 : ℤ) : ℚ) := by
    rw [div_le_iff₀ hbq]
    exact_mod_cast (Nat.lt_mul_of_div_lt (Nat.lt_succ_self (a / b)) hb).le
  rw [hm] at hle
  have := toPrecision_le hx hle
  rw [← hm] at this
  exact_mod_cast this

/-- The exact ceiling of a quotient, in natural numbers. -/
theorem ceil_natCast_div (hb : 0 < b) : ⌈(a : ℚ) / b⌉ = ((a + b - 1) / b : ℕ) := by
  have hbq : (0 : ℚ) < b := by exact_mod_cast hb
  rw [Int.ceil_eq_iff, lt_div_iff₀ hbq, div_le_iff₀ hbq]
  have hdiv := Nat.div_add_mod' (a + b - 1) b
  have hmod := Nat.mod_lt (a + b - 1) hb
  have hlt : (a + b - 1) / b * b < a + b := by omega
  have hle : a ≤ (a + b - 1) / b * b := by omega
  have hltq : (((a + b - 1) / b : ℕ) : ℚ) * b < a + b := by exact_mod_cast hlt
  have hleq : (a : ℚ) ≤ ((a + b - 1) / b : ℕ) * b := by exact_mod_cast hle
  rw [Int.cast_natCast]
  constructor <;> linarith

/-- A number up to `n + 1` has that ceiling if it is above `n`. -/
theorem ceil_eq_succ_iff {x : ℚ} {n : ℕ} (h : x ≤ n + 1) : ⌈x⌉ = (n : ℤ) + 1 ↔ (n : ℚ) < x := by
  rw [Int.ceil_eq_iff]
  push_cast
  rw [add_sub_cancel_right]
  exact and_iff_left h

/-- With more bits before the point than there are, the rounded quotient is the exact ceiling where that
is a multiple of the unit in the last place. -/
theorem ceil_toPrecision_div_of_le_log (hb : 0 < b) (hn : a / b ≠ 0) (hlog : p ≤ Nat.log 2 (a / b)) :
    ⌈toPrecision p ((a : ℚ) / b)⌉ = ⌈(a : ℚ) / b⌉ ↔
      2 ^ (Nat.log 2 (a / b) + 1 - p) ∣ (a + b - 1) / b := by
  have hbq : (0 : ℚ) < b := by exact_mod_cast hb
  have hapos : 0 < a := Nat.pos_of_ne_zero (by rintro rfl; exact hn (Nat.zero_div b))
  have hx : (a : ℚ) / b ≠ 0 := by positivity
  set s := Nat.log 2 (a / b) + 1 - p with hs
  set c := (a + b - 1) / b with hc
  have hceil : ⌈(a : ℚ) / b⌉ = (c : ℤ) := ceil_natCast_div hb
  have hulp : ulp p ((a : ℚ) / b) = ((2 ^ s : ℤ) : ℚ) := by
    unfold ulp
    rw [log_div_eq hb hn, show (Nat.log 2 (a / b) : ℤ) + 1 - p = (s : ℤ) by omega, zpow_natCast]
    push_cast
    rfl
  have hrounded : ⌈toPrecision p ((a : ℚ) / b)⌉ = halfEven ((a : ℚ) / b / (2 ^ s : ℤ)) * 2 ^ s := by
    rw [toPrecision_of_ne_zero p hx, hulp, ← Int.cast_mul, Int.ceil_intCast]
  rw [hrounded, hceil]
  constructor
  · intro h
    have hdvd : ((2 ^ s : ℕ) : ℤ) ∣ (c : ℤ) := by
      push_cast
      exact ⟨_, by rw [mul_comm]; exact h.symm⟩
    exact_mod_cast hdvd
  · rintro ⟨k, hk⟩
    obtain ⟨hlo, hhi⟩ := Int.ceil_eq_iff.mp hceil
    have hpow : (2 : ℚ) ≤ 2 ^ s := by
      calc (2 : ℚ) = 2 ^ 1 := (pow_one 2).symm
        _ ≤ 2 ^ s := pow_le_pow_right₀ (by norm_num) (by omega)
    have hpos : (0 : ℚ) < 2 ^ s := by positivity
    have hcq : ((c : ℤ) : ℚ) = k * 2 ^ s := by
      rw [hk]
      push_cast
      ring
    rw [hcq] at hlo hhi
    have heq : halfEven ((a : ℚ) / b / (2 ^ s : ℤ)) = k := by
      apply le_antisymm
      · apply halfEven_le
        push_cast
        rwa [div_le_iff₀ hpos]
      · -- the exact ceiling is less than half a unit away
        apply Int.lt_add_one_iff.mp
        rw [← sub_lt_iff_lt_add, lt_halfEven_iff]
        left
        push_cast
        rw [lt_div_iff₀ hpos]
        linarith
    rw [heq, hk]
    push_cast
    ring

/-- **When rounding keeps the ceiling.** -/
theorem ceil_toPrecision_div_eq_iff (hp : 0 < p) (hb : 0 < b) :
    ⌈toPrecision p ((a : ℚ) / b)⌉ = ⌈(a : ℚ) / b⌉ ↔ KeepsCeil p a b := by
  have hbq : (0 : ℚ) < b := by exact_mod_cast hb
  rcases Nat.eq_zero_or_pos a with rfl | hapos
  · simp [KeepsCeil]
  have hxpos : (0 : ℚ) < (a : ℚ) / b := by positivity
  unfold KeepsCeil
  dsimp only
  by_cases hn : a / b = 0
  · -- a quotient below `1` is rounded to a positive number that is at most `1`
    refine iff_of_true ?_ (.inl hn)
    have hlt : a < b := (Nat.div_eq_zero_iff_lt hb).mp hn
    have hone : (a : ℚ) / b < 1 := by
      rw [div_lt_one hbq]
      exact_mod_cast hlt
    have hle := toPrecision_div_le hb
      (log_lt_of_lt_two_pow hxpos (hone.trans_le (one_le_pow₀ (n := p) (by norm_num)))) hapos
    rw [hn] at hle
    have hle' : (a : ℚ) / b ≤ (0 : ℕ) + 1 := by
      rw [Nat.cast_zero, zero_add]
      exact hone.le
    rw [(ceil_eq_succ_iff hle).mpr (by simpa using toPrecision_pos hp hxpos),
      (ceil_eq_succ_iff hle').mpr (by simpa using hxpos)]
  rcases lt_or_ge (Nat.log 2 (a / b)) p with hlog | hlog
  · have hlogq : Int.log 2 |(a : ℚ) / b| < p := by
      rw [log_div_eq hb hn]
      exact_mod_cast hlog
    simp only [hn, hlog, not_le.mpr hlog, false_or, true_and, false_and, or_false]
    by_cases hr : a % b = 0
    · -- an integer with at most `p` bits is kept
      refine iff_of_true ?_ (.inl hr)
      obtain ⟨m, hm⟩ := exists_mul_ulp_eq hlogq (a / b : ℕ)
      have hint : (a : ℚ) / b = m * ulp p ((a : ℚ) / b) := by
        rw [← hm, Int.cast_natCast, natCast_div_eq hb, hr, Nat.cast_zero, zero_div, add_zero]
      rw [toPrecision_eq_self hxpos.ne' hint]
    · rw [← lt_toPrecision_div_iff hb hn hlog, or_iff_right hr,
        ← ceil_eq_succ_iff (toPrecision_div_le hb hlogq hapos)]
      have hrpos : (0 : ℚ) < (a % b : ℕ) := by exact_mod_cast Nat.pos_of_ne_zero hr
      have hrlt : ((a % b : ℕ) : ℚ) / b < 1 := by
        rw [div_lt_one hbq]
        exact_mod_cast Nat.mod_lt a hb
      have hexact := natCast_div_eq (a := a) hb
      have hle : (a : ℚ) / b ≤ (a / b : ℕ) + 1 := by linarith
      have hgt : ((a / b : ℕ) : ℚ) < (a : ℚ) / b := by
        have := div_pos hrpos hbq
        linarith
      rw [(ceil_eq_succ_iff hle).mpr hgt]
  · simp only [hn, hlog, not_lt.mpr hlog, false_or, true_and, false_and]
    exact ceil_toPrecision_div_of_le_log hb hn hlog

end KeepsCeil

end RoundNearest
