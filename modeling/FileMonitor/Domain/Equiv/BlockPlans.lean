import FileMonitor.Domain.Equiv.Planning
import FileMonitor.Library.Tiling

/-!
# The block plans tile the file

`tiles_blockPlan`: up to `2 ^ 53` bytes, the byte ranges of the plans follow each other from the
first byte to the last.  `block_plans_tile_the_file` says what that means for each plan and each byte.
-/

namespace FileMonitor

/-- The byte range of a plan. -/
def BlockPlan.bytes (plan : BlockPlan) : ℤ × ℤ := (plan.startByte, plan.endByte)

section

variable {fileSize : ℕ} {fecParams : FecParams}

/-- Where block `i` starts, or the end of the file if that comes first. -/
def blockBoundary (fileSize : ℕ) (fecParams : FecParams) (i : ℕ) : ℤ :=
  min (i * fecParams.blockSize) fileSize

/-- The plan of block `i`. -/
def blockPlan (fileSize : ℕ) (fecParams : FecParams) (i : ℕ) : BlockPlan where
  blockId := i
  startByte := i * fecParams.blockSize
  endByte := blockBoundary fileSize fecParams (i + 1)

/-- **The plans**, with the number of blocks. -/
theorem computeBlockPlans_eq (hsize : fileSize ≤ 2 ^ 53) (hblock : 0 < fecParams.blockSize) :
    ∃ blockCount : ℕ, calculateBlockCount fileSize fecParams = .ok blockCount ∧
      computeBlockPlans fileSize fecParams
        = .ok ((List.range blockCount).map (blockPlan fileSize fecParams)) := by
  have hcount := calculateBlockCount_eq hsize hblock
  obtain ⟨blockCount, hnat⟩ := Int.eq_ofNat_of_zero_le (calculateBlockCount_nonneg hblock hcount)
  rw [hnat] at hcount
  refine ⟨blockCount, hcount, ?_⟩
  unfold computeBlockPlans pyRange
  rw [hcount, Except.map, List.map_map, Int.toNat_natCast]
  congr 2
  funext i
  simp only [Function.comp_apply, blockPlan, blockBoundary]
  rw [Nat.cast_add_one, add_one_mul]

/-- A block starts at its boundary. -/
theorem blockBoundary_of_lt (hsize : fileSize ≤ 2 ^ 53) (hblock : 0 < fecParams.blockSize)
    {blockCount : ℤ} (hcount : calculateBlockCount fileSize fecParams = .ok blockCount) {i : ℕ}
    (hi : i < blockCount) : blockBoundary fileSize fecParams i = i * fecParams.blockSize :=
  min_eq_left ((mul_blockSize_lt_iff hsize hblock hcount i).mp hi).le

/-- **The byte ranges tile the file.** -/
theorem tiles_blockPlan (hsize : fileSize ≤ 2 ^ 53) (hblock : 0 < fecParams.blockSize)
    {blockCount : ℕ} (hcount : calculateBlockCount fileSize fecParams = .ok blockCount) :
    Tiles (0 : ℤ) fileSize
      (((List.range blockCount).map (blockPlan fileSize fecParams)).map BlockPlan.bytes) := by
  have hstart : blockBoundary fileSize fecParams 0 = 0 := by simp [blockBoundary]
  have hend : blockBoundary fileSize fecParams blockCount = fileSize := by
    have hlast := mul_blockSize_lt_iff hsize hblock hcount blockCount
    exact min_eq_right (not_lt.mp fun h => absurd (hlast.mpr h) (lt_irrefl _))
  have htiles : Tiles (blockBoundary fileSize fecParams 0) (blockBoundary fileSize fecParams blockCount)
      ((List.range blockCount).map fun i =>
        (blockBoundary fileSize fecParams i, blockBoundary fileSize fecParams (i + 1))) := by
    apply tiles_range
    intro i hi
    have hlt := (mul_blockSize_lt_iff hsize hblock hcount i).mp (by exact_mod_cast hi)
    rw [blockBoundary_of_lt hsize hblock hcount (by exact_mod_cast hi), blockBoundary, lt_min_iff]
    push_cast
    exact ⟨by linarith, hlt⟩
  rw [hstart, hend] at htiles
  convert htiles using 1
  rw [List.map_map]
  apply List.map_congr_left
  intro i hi
  have hlt : (i : ℤ) < blockCount := by exact_mod_cast List.mem_range.mp hi
  -- a plan with another after it ends at a whole block
  rw [blockBoundary_of_lt hsize hblock hcount hlt]
  rfl

/-- The end of a plan. -/
theorem endByte_blockPlan_le (fileSize : ℕ) (fecParams : FecParams) (i : ℕ) :
    (blockPlan fileSize fecParams i).endByte
      ≤ (blockPlan fileSize fecParams i).startByte + fecParams.blockSize := by
  show min (((i + 1 : ℕ) : ℤ) * fecParams.blockSize) fileSize ≤ i * fecParams.blockSize + _
  apply (min_le_left _ _).trans
  rw [Nat.cast_add_one, add_one_mul]

/-- **The block plans tile the file.**  Up to `2 ^ 53` bytes the plans are numbered from `0`; the first
starts at byte `0` and each of the others where the one before it ends; all but the last are one block
long, and the last is not empty, no longer than a block and ends with the file.  There are no plans just
for the empty file, and every byte lies in exactly one plan, whose number is the quotient. -/
theorem block_plans_tile_the_file (hsize : fileSize ≤ 2 ^ 53) (hk : 1 ≤ fecParams.k)
    (hsymbol : 1 ≤ fecParams.symbolBytes) :
    ∃ plans, computeBlockPlans fileSize fecParams = .ok plans ∧
      (∀ (i : ℕ) plan, plans[i]? = some plan → plan.blockId = i) ∧
      (∀ plan, plans.head? = some plan → plan.startByte = 0) ∧
      (∀ (i : ℕ) plan next, plans[i]? = some plan → plans[i + 1]? = some next →
        next.startByte = plan.endByte ∧ plan.endByte - plan.startByte = fecParams.blockSize) ∧
      (∀ plan, plans.getLast? = some plan → plan.startByte < plan.endByte ∧
        plan.endByte - plan.startByte ≤ fecParams.blockSize ∧ plan.endByte = fileSize) ∧
      (plans = [] ↔ fileSize = 0) ∧
      (∀ offset : ℤ, 0 ≤ offset → offset < fileSize →
        plans.countP (fun plan => plan.startByte ≤ offset ∧ offset < plan.endByte) = 1 ∧
        ∀ plan ∈ plans, plan.startByte ≤ offset → offset < plan.endByte →
          plan.blockId = offset / fecParams.blockSize) := by
  have hblock : 0 < fecParams.blockSize := Int.mul_pos (by omega) (by omega)
  obtain ⟨blockCount, hcount, hplans⟩ := computeBlockPlans_eq hsize hblock
  have htiles := tiles_blockPlan hsize hblock hcount
  set plans := (List.range blockCount).map (blockPlan fileSize fecParams) with hdef
  have hget {i : ℕ} {plan : BlockPlan} (hi : plans[i]? = some plan) :
      i < blockCount ∧ plan = blockPlan fileSize fecParams i := by
    rw [hdef, List.getElem?_map, Option.map_eq_some_iff] at hi
    obtain ⟨j, hj, rfl⟩ := hi
    obtain ⟨hlt, rfl⟩ := List.getElem?_eq_some_iff.mp hj
    rw [List.length_range] at hlt
    exact ⟨hlt, by rw [List.getElem_range]⟩
  have hbytes {i : ℕ} {plan : BlockPlan} (hi : plans[i]? = some plan) :
      (plans.map BlockPlan.bytes)[i]? = some plan.bytes := by
    rw [List.getElem?_map, hi, Option.map_some]
  refine ⟨plans, hplans, ?_, ?_, ?_, ?_, ?_, ?_⟩
  · intro i plan hi
    obtain ⟨-, rfl⟩ := hget hi
    rfl
  · intro plan hhead
    show plan.bytes.1 = 0
    apply htiles.fst_eq_of_head?
    rw [List.head?_map, hhead, Option.map_some]
  · intro i plan next hi hnext
    refine ⟨htiles.fst_succ (hbytes hi) (hbytes hnext), ?_⟩
    obtain ⟨-, rfl⟩ := hget hi
    have hlt : ((i + 1 : ℕ) : ℤ) < blockCount := by exact_mod_cast (hget hnext).1
    show blockBoundary fileSize fecParams (i + 1) - i * fecParams.blockSize = _
    rw [blockBoundary_of_lt hsize hblock hcount hlt]
    push_cast
    ring
  · intro plan hlast
    have hmem : plan ∈ plans := List.mem_of_getLast? hlast
    obtain ⟨i, hi⟩ := List.mem_iff_getElem?.mp hmem
    refine ⟨htiles.fst_lt_snd (List.mem_map_of_mem hmem), ?_, ?_⟩
    · obtain ⟨-, rfl⟩ := hget hi
      have := endByte_blockPlan_le fileSize fecParams i
      omega
    · show plan.bytes.2 = fileSize
      apply htiles.snd_eq_of_getLast?
      rw [List.getLast?_map, hlast, Option.map_some]
  -- there is a block `0` exactly if the file has a byte
  · have hfirst := mul_blockSize_lt_iff hsize hblock hcount 0
    rw [zero_mul] at hfirst
    rw [hdef, List.map_eq_nil_iff, List.range_eq_nil]
    omega
  · intro offset h0 hlt
    refine ⟨?_, fun plan hmem hstart hend => ?_⟩
    · have hone := htiles.countP_eq_one h0 hlt
      rw [List.countP_map] at hone
      exact hone
    · obtain ⟨i, hi⟩ := List.mem_iff_getElem?.mp hmem
      obtain ⟨-, rfl⟩ := hget hi
      have hle := endByte_blockPlan_le fileSize fecParams i
      show (i : ℤ) = _
      exact ((Int.ediv_eq_iff_of_pos hblock).mpr ⟨hstart, hend.trans_le hle⟩).symm

end

/-- Two whole blocks of ten bytes and a half. -/
theorem block_plans_tile_the_file_half_block :
    computeBlockPlans 25 ⟨2, 3, 5⟩ = .ok [⟨0, 0, 10⟩, ⟨1, 10, 20⟩, ⟨2, 20, 25⟩] ∧
    [⟨0, 0, 10⟩, ⟨1, 10, 20⟩, ⟨2, 20, 25⟩].countP
      (fun plan : BlockPlan => plan.startByte ≤ 20 ∧ 20 < plan.endByte) = 1 := by
  have hplans : computeBlockPlans 25 ⟨2, 3, 5⟩ = .ok [⟨0, 0, 10⟩, ⟨1, 10, 20⟩, ⟨2, 20, 25⟩] := by
    decide +kernel
  obtain ⟨plans, hok, -, -, -, -, -, hoffset⟩ :=
    @block_plans_tile_the_file 25 ⟨2, 3, 5⟩ (by norm_num) (by decide) (by decide)
  obtain rfl := Except.ok.inj (hok.symm.trans hplans)
  exact ⟨hplans, (hoffset 20 (by decide) (by decide)).1⟩

end FileMonitor
