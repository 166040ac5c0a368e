import FileMonitor.Config
import FileMonitor.Domain.Equiv.Planning

/-!
# When the block count is exact

`calculate_block_count` rounds the quotient of two integers to a float before it takes the ceiling.
`block_count_is_exact_iff` says for which sizes of the wire format this is the exact ceiling: for all up
to `2 ^ 53` bytes (`calculateBlockCount_eq`), but not for all below `2 ^ 64`
(`block_count_drops_last_byte`).
-/

namespace FileMonitor

open RoundNearest

/-- No size of the wire format makes the division overflow. -/
theorem trueDivide_of_lt {a b : ℕ} (hb : 0 < b) (ha : a < 2 ^ 64) :
    trueDivide a b = .ok (toPrecision 53 ((a : ℚ) / b)) := by
  have hb0 : (b : ℤ) ≠ 0 := by exact_mod_cast hb.ne'
  have hnonneg : 0 ≤ toPrecision 53 ((a : ℚ) / b) := toPrecision_nonneg (by positivity)
  have hle : toPrecision 53 ((a : ℚ) / b) ≤ 2 * a := by
    rcases Nat.eq_zero_or_pos a with rfl | hpos
    · simp
    · have hb1 : (1 : ℚ) ≤ b := by exact_mod_cast hb
      calc toPrecision 53 ((a : ℚ) / b) ≤ 2 * ((a : ℚ) / b) :=
            toPrecision_le_two_mul (by norm_num) (by positivity)
        _ ≤ 2 * a := mul_le_mul_of_nonneg_left (div_le_self (by positivity) hb1) (by norm_num)
  have hlt : ¬ (2 : ℚ) ^ 1024 ≤ |toPrecision 53 ((a : ℚ) / b)| := by
    rw [abs_of_nonneg hnonneg, not_le]
    have haq : (a : ℚ) < 2 ^ 64 := by exact_mod_cast ha
    calc toPrecision 53 ((a : ℚ) / b) ≤ 2 * a := hle
      _ < 2 * 2 ^ 64 := by linarith
      _ = 2 ^ 65 := by norm_num
      _ < 2 ^ 1024 := pow_lt_pow_right₀ (by norm_num) (by norm_num)
  unfold trueDivide
  rw [if_neg hb0]
  simp only [Int.cast_natCast, if_neg hlt]

/-- **When the block count is exact.**  For every size of the wire format and every valid
configuration, the block count is the ceiling of the exact quotient just where rounding the quotient to
53 bits keeps the ceiling. -/
theorem block_count_is_exact_iff {fileSize : ℕ} (hsize : fileSize < 2 ^ 64)
    {watchPathKind : WatchPathKind} {appConfig : AppConfig}
    (hvalid : validateConfig watchPathKind appConfig = .ok ()) :
    calculateBlockCount fileSize appConfig.fec
        = .ok ⌈(fileSize : ℚ) / (appConfig.fec.k * appConfig.fec.symbolBytes : ℤ)⌉ ↔
      KeepsCeil 53 fileSize (appConfig.fec.k * appConfig.fec.symbolBytes).toNat := by
  obtain ⟨-, -, hcheckFec, -⟩ := validateConfig_eq_ok_iff.mp hvalid
  obtain ⟨hk, -, -, hsymbol, -⟩ := checkFec_eq_ok_iff.mp hcheckFec
  obtain ⟨b, hb⟩ := Int.eq_ofNat_of_zero_le (Int.mul_pos hk hsymbol).le
  have hbpos : 0 < b := by
    have := Int.mul_pos hk hsymbol
    omega
  unfold calculateBlockCount FecParams.blockSize
  rw [hb, trueDivide_of_lt hbpos hsize, Except.map, Except.ok.injEq, Int.toNat_natCast,
    Int.cast_natCast, ceil_toPrecision_div_eq_iff (by norm_num) hbpos]

/-- The parameters of `config.toml`. -/
def defaultConfig : AppConfig where
  paths := ⟨.parse ['/', 'w'], .parse ['/', 's']⟩
  pacing := ⟨20000000, 5000000⟩
  fec := ⟨200, 255, 1400⟩
  senders := ⟨"127.0.0.1", 9000, "./bin/nexus-sender", 0⟩

/-- A gigabyte and a byte are counted exactly. -/
theorem block_count_is_exact_iff_gigabyte :
    calculateBlockCount 1000000001 defaultConfig.fec = .ok 3572 := by
  have hvalid : validateConfig .directory defaultConfig = .ok () := by decide +kernel
  have hexact := (@block_count_is_exact_iff 1000000001 (by norm_num) _ _ hvalid).mpr (by decide +kernel)
  exact hexact.trans (by decide +kernel)

/-- With the parameters of `config.toml`, a file of `2 ^ 35` blocks and one byte gets `2 ^ 35` blocks. -/
theorem block_count_drops_last_byte :
    validateConfig .directory defaultConfig = .ok () ∧ 2 ^ 35 * 280000 + 1 < 2 ^ 64 ∧
    calculateBlockCount (2 ^ 35 * 280000 + 1) defaultConfig.fec = .ok (2 ^ 35) ∧
    ⌈(2 ^ 35 * 280000 + 1 : ℚ) / (defaultConfig.fec.k * defaultConfig.fec.symbolBytes : ℤ)⌉
      = 2 ^ 35 + 1 := by
  refine ⟨by decide +kernel, by norm_num, by decide +kernel, ?_⟩
  decide +kernel

end FileMonitor
