import FileMonitor.Domain.Planning

/-!
# What shard planning computes

* `calculateBlockCount_eq`: up to `2 ^ 53` bytes the block count is the exact ceiling of the quotient,
  so `mul_blockSize_lt_iff` characterises it: block `b` exists exactly where it has a first byte.
* `duplicateLoop_eq_nil_iff`: the duplicate check rejects exactly the lists with a repeated id.
* `deriveShardAssignments_eq_ok` and `deriveShardAssignments_isOk_iff`: the inputs on which
  `deriveShardAssignments` does not raise, and its result there, `shardAssignments`.
-/

namespace FileMonitor

open RoundNearest

/-! ### The block count -/

theorem trueDivide_natCast {a b : ℕ} (hb : 0 < b) (ha : a ≤ 2 ^ 53) :
    trueDivide a b = .ok (toPrecision 53 ((a : ℚ) / b)) := by
  have hbq : (0 : ℚ) < b := by exact_mod_cast hb
  have hle : toPrecision 53 ((a : ℚ) / b) ≤ 2 ^ 53 := by
    have h₁ : ((a : ℚ) / b) ≤ ((2 ^ 53 : ℤ) : ℚ) := by
      rw [div_le_iff₀ hbq]
      exact_mod_cast ha.trans (Nat.le_mul_of_pos_right _ hb)
    have h₂ := Int.ceil_le.mpr h₁
    rw [← ceil_toPrecision_div (by norm_num) hb ha] at h₂
    exact_mod_cast Int.ceil_le.mp h₂
  have hnonneg : 0 ≤ toPrecision 53 ((a : ℚ) / b) := toPrecision_nonneg (by positivity)
  have hlt : ¬ (2 : ℚ) ^ 1024 ≤ |toPrecision 53 ((a : ℚ) / b)| := by
    rw [abs_of_nonneg hnonneg, not_le]
    exact hle.trans_lt (pow_lt_pow_right₀ (by norm_num) (by norm_num))
  have hb0 : (b : ℤ) ≠ 0 := by exact_mod_cast hb.ne'
  unfold trueDivide
  rw [if_neg hb0]
  simp only [Int.cast_natCast, if_neg hlt]

/-- **Up to `2 ^ 53` bytes the block count is the exact ceiling.** -/
theorem calculateBlockCount_eq {fileSize : ℕ} {fecParams : FecParams}
    (hsize : fileSize ≤ 2 ^ 53) (hblock : 0 < fecParams.blockSize) :
    calculateBlockCount fileSize fecParams = .ok ⌈(fileSize : ℚ) / fecParams.blockSize⌉ := by
  obtain ⟨b, hb⟩ := Int.eq_ofNat_of_zero_le hblock.le
  have hbpos : 0 < b := by omega
  unfold calculateBlockCount
  rw [hb, trueDivide_natCast hbpos hsize, Except.map, Int.cast_natCast,
    ceil_toPrecision_div (by norm_num) hbpos hsize]

/-- Block `b` exists exactly where it has a first byte. -/
theorem mul_blockSize_lt_iff {fileSize : ℕ} {fecParams : FecParams} (hsize : fileSize ≤ 2 ^ 53)
    (hblock : 0 < fecParams.blockSize) {blockCount : ℤ}
    (hcount : calculateBlockCount fileSize fecParams = .ok blockCount) (b : ℤ) :
    b < blockCount ↔ b * fecParams.blockSize < fileSize := by
  rw [calculateBlockCount_eq hsize hblock, Except.ok.injEq] at hcount
  have hbq : (0 : ℚ) < fecParams.blockSize := by exact_mod_cast hblock
  rw [← hcount, Int.lt_ceil, lt_div_iff₀ hbq]
  exact_mod_cast Iff.rfl

/-- The block count of a file is never negative, whatever its size. -/
theorem calculateBlockCount_nonneg {fileSize : ℕ} {fecParams : FecParams}
    (hblock : 0 < fecParams.blockSize) {blockCount : ℤ}
    (hcount : calculateBlockCount fileSize fecParams = .ok blockCount) : 0 ≤ blockCount := by
  have hbq : (0 : ℚ) < fecParams.blockSize := by exact_mod_cast hblock
  have hnonneg : 0 ≤ toPrecision 53 ((fileSize : ℚ) / fecParams.blockSize) :=
    toPrecision_nonneg (by positivity)
  unfold calculateBlockCount trueDivide at hcount
  rw [if_neg hblock.ne'] at hcount
  simp only [Int.cast_natCast] at hcount
  split_ifs at hcount
  · cases hcount
  · rw [Except.map, Except.ok.injEq] at hcount
    rw [← hcount]
    exact Int.ceil_nonneg hnonneg

/-! ### Ranges and shards -/

@[simp] theorem mem_pyRange {n x : ℤ} : x ∈ pyRange n ↔ 0 ≤ x ∧ x < n := by
  unfold pyRange
  rw [List.mem_map]
  constructor
  · rintro ⟨i, hi, rfl⟩
    have := List.mem_range.mp hi
    omega
  · rintro ⟨h0, hlt⟩
    exact ⟨x.toNat, List.mem_range.mpr (by omega), by omega⟩

/-- The block ids of one residue class. -/
def residueClass (totalBlocks modulus residue : ℤ) : List BlockId :=
  (pyRange totalBlocks).filter fun blockId => blockId.fmod modulus = residue

theorem blocksForShard_eq_ok {modulus : ℤ} (hmod : modulus ≠ 0) (totalBlocks residue : ℤ) :
    blocksForShard totalBlocks modulus residue = .ok (residueClass totalBlocks modulus residue) :=
  if_neg fun h => hmod h.1

/-! ### The duplicate check -/

theorem foldl_duplicates_eq_nil_iff (ids : List SenderId) (seen duplicates : List SenderId) :
    (ids.foldl
        (fun (seen, duplicates) senderId =>
          (seen.insert senderId,
            if senderId ∈ seen then duplicates.insert senderId else duplicates))
        (seen, duplicates)).2 = [] ↔
      duplicates = [] ∧ ids.Nodup ∧ ∀ senderId ∈ ids, senderId ∉ seen := by
  induction ids generalizing seen duplicates with
  | nil => simp
  | cons senderId ids ih =>
    rw [List.foldl_cons, ih]
    by_cases hmem : senderId ∈ seen
    · -- a repeated id stays in the set of duplicates
      have hne : duplicates.insert senderId ≠ [] := List.ne_nil_of_mem List.mem_insert_self
      simp [hmem, hne]
    · simp only [hmem, ↓reduceIte, List.nodup_cons, List.mem_insert_iff, not_or, List.mem_cons,
        forall_eq_or_imp, not_false_eq_true, true_and]
      constructor
      · rintro ⟨hdup, hnodup, hseen⟩
        exact ⟨hdup, ⟨fun h => (hseen _ h).1 rfl, hnodup⟩, fun x hx => (hseen x hx).2⟩
      · rintro ⟨hdup, ⟨hnot, hnodup⟩, hseen⟩
        exact ⟨hdup, hnodup, fun x hx => ⟨fun h => hnot (h ▸ hx), hseen x hx⟩⟩

/-- **The duplicate check is exact.** -/
theorem duplicateLoop_eq_nil_iff {ids : List SenderId} : (duplicateLoop ids).2 = [] ↔ ids.Nodup := by
  unfold duplicateLoop
  rw [foldl_duplicates_eq_nil_iff]
  simp

/-! ### The assignments -/

/-- The assignment of the sender at position `shardResidue` of `shardModulus` senders. -/
def shardAssignment (totalBlocks basePort shardModulus : ℤ) (senderId : SenderId)
    (shardResidue : ℤ) : ShardAssignment where
  senderId := senderId
  shardModulus := shardModulus
  shardResidue := shardResidue
  assignedBlocks := residueClass totalBlocks shardModulus shardResidue
  targetPort := basePort + shardResidue

/-- The assignments of a list of senders. -/
def shardAssignments (totalBlocks : ℤ) (ids : List SenderId) (basePort : ℤ) :
    List ShardAssignment :=
  ids.zipIdx.map fun (senderId, shardResidue) =>
    shardAssignment totalBlocks basePort ids.length senderId shardResidue

/-- **The result of `deriveShardAssignments`** where it does not raise. -/
theorem deriveShardAssignments_eq_ok {totalBlocks : ℤ} {ids : List SenderId} {basePort : ℤ}
    (hne : ids ≠ []) (hnodup : ids.Nodup) (htotal : 0 ≤ totalBlocks) (hport : 0 < basePort) :
    deriveShardAssignments totalBlocks ids basePort
      = .ok (shardAssignments totalBlocks ids basePort) := by
  have hmod : (ids.length : ℤ) ≠ 0 := by
    have := List.length_pos_iff.mpr hne
    omega
  unfold deriveShardAssignments
  rw [if_neg hne]
  simp only [duplicateLoop_eq_nil_iff.mpr hnodup, ne_eq, not_true_eq_false, ↓reduceIte,
    if_neg (not_lt.mpr htotal), if_neg (not_le.mpr hport), blocksForShard_eq_ok hmod, Except.map]
  exact List.mapM_pure

/-- **The inputs that `deriveShardAssignments` accepts.** -/
theorem deriveShardAssignments_isOk_iff {totalBlocks : ℤ} {ids : List SenderId} {basePort : ℤ} :
    (∃ assignments, deriveShardAssignments totalBlocks ids basePort = .ok assignments) ↔
      ids ≠ [] ∧ ids.Nodup ∧ 0 ≤ totalBlocks ∧ 0 < basePort := by
  constructor
  · rintro ⟨assignments, h⟩
    simp only [deriveShardAssignments, ne_eq, duplicateLoop_eq_nil_iff] at h
    by_cases hne : ids = []
    · simp [hne] at h
    by_cases hnodup : ids.Nodup
    · by_cases htotal : totalBlocks < 0
      · simp [hne, hnodup, htotal] at h
      by_cases hport : basePort ≤ 0
      · simp [hne, hnodup, htotal, hport] at h
      exact ⟨hne, hnodup, not_lt.mp htotal, not_le.mp hport⟩
    · simp [hne, hnodup] at h
  · rintro ⟨hne, hnodup, htotal, hport⟩
    exact ⟨_, deriveShardAssignments_eq_ok hne hnodup htotal hport⟩

theorem length_shardAssignments (totalBlocks : ℤ) (ids : List SenderId) (basePort : ℤ) :
    (shardAssignments totalBlocks ids basePort).length = ids.length := by
  simp [shardAssignments]

theorem map_senderId_shardAssignments (totalBlocks : ℤ) (ids : List SenderId) (basePort : ℤ) :
    (shardAssignments totalBlocks ids basePort).map ShardAssignment.senderId = ids := by
  simp [shardAssignments, shardAssignment, Function.comp_def]

/-- The residues are `0, 1, …` in order. -/
theorem map_shardResidue_shardAssignments (totalBlocks : ℤ) (ids : List SenderId) (basePort : ℤ) :
    (shardAssignments totalBlocks ids basePort).map ShardAssignment.shardResidue
      = pyRange ids.length := by
  simp only [shardAssignments, shardAssignment, List.map_map, Function.comp_def, pyRange,
    Int.toNat_natCast]
  calc (ids.zipIdx.map fun x => (x.2 : ℤ))
      = (ids.zipIdx.map Prod.snd).map Nat.cast := by rw [List.map_map]; rfl
    _ = (List.range ids.length).map Nat.cast := by
        rw [List.zipIdx_map_snd, List.range_eq_range']

/-- The `i`-th assignment goes to the `i`-th sender, with residue `i`. -/
theorem getElem?_shardAssignments (totalBlocks : ℤ) (ids : List SenderId) (basePort : ℤ) (i : ℕ) :
    (shardAssignments totalBlocks ids basePort)[i]?
      = (ids[i]?).map fun senderId =>
          shardAssignment totalBlocks basePort ids.length senderId i := by
  simp only [shardAssignments, List.getElem?_map, List.getElem?_zipIdx, Option.map_map]
  congr 1
  funext senderId
  simp

theorem nodup_pyRange (n : ℤ) : (pyRange n).Nodup :=
  List.Nodup.map Nat.cast_injective List.nodup_range

/-- **Every block belongs to exactly one assignment.** -/
theorem countP_shardAssignments {ids : List SenderId} (hne : ids ≠ []) (totalBlocks basePort : ℤ)
    (blockId : BlockId) :
    (shardAssignments totalBlocks ids basePort).countP
      (fun assignment => assignment.shardResidue = blockId % (ids.length : ℤ)) = 1 := by
  have hpos : (0 : ℤ) < ids.length := by
    have := List.length_pos_iff.mpr hne
    omega
  have hmem : blockId % (ids.length : ℤ) ∈ pyRange ids.length :=
    mem_pyRange.mpr ⟨Int.emod_nonneg _ hpos.ne', Int.emod_lt_of_pos _ hpos⟩
  have hcount := List.count_eq_one_of_mem (nodup_pyRange _) hmem
  rw [← map_shardResidue_shardAssignments totalBlocks ids basePort, List.count_eq_countP,
    List.countP_map] at hcount
  rw [← hcount]
  refine List.countP_congr fun assignment _ => ?_
  simp

/-- Membership: a sender of the list together with its position. -/
theorem mem_shardAssignments {totalBlocks : ℤ} {ids : List SenderId} {basePort : ℤ}
    {assignment : ShardAssignment} :
    assignment ∈ shardAssignments totalBlocks ids basePort ↔
      ∃ (i : ℕ) (senderId : SenderId), ids[i]? = some senderId ∧
        assignment = shardAssignment totalBlocks basePort ids.length senderId i := by
  rw [List.mem_iff_getElem?]
  constructor
  · rintro ⟨i, hi⟩
    rw [getElem?_shardAssignments, Option.map_eq_some_iff] at hi
    obtain ⟨senderId, hid, rfl⟩ := hi
    exact ⟨i, senderId, hid, rfl⟩
  · rintro ⟨i, senderId, hid, rfl⟩
    exact ⟨i, by rw [getElem?_shardAssignments, hid, Option.map_some]⟩

end FileMonitor
