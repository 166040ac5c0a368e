import FileMonitor.Domain.Equiv.Planning
import Mathlib.Data.Int.CardIntervalMod

/-!
# The shards partition the blocks

* `length_residueClass`: the share of residue `i` among `m` has `⌈(totalBlocks - i) / m⌉` blocks.
* `perm_flatMap_assignedBlocks`: the shares together are all the blocks, each of them once.
* `derive_shard_assignments_partitions`: `deriveShardAssignments` is this partition, or a `ValueError`
  on exactly the inputs that it is documented to reject.
-/

namespace FileMonitor

/-! ### One share -/

section

variable {totalBlocks modulus residue : ℤ}

theorem mem_residueClass {blockId : ℤ} (hmod : 0 < modulus) :
    blockId ∈ residueClass totalBlocks modulus residue ↔
      0 ≤ blockId ∧ blockId < totalBlocks ∧ blockId % modulus = residue := by
  unfold residueClass
  rw [List.mem_filter, mem_pyRange, decide_eq_true_iff, Int.fmod_eq_emod_of_nonneg _ hmod.le, and_assoc]

/-- `range` counts upwards. -/
theorem pairwise_pyRange (n : ℤ) : (pyRange n).Pairwise (· < ·) := by
  unfold pyRange
  rw [List.pairwise_map]
  exact List.pairwise_lt_range.imp fun h => Int.ofNat_lt.mpr h

theorem pairwise_residueClass (totalBlocks modulus residue : ℤ) :
    (residueClass totalBlocks modulus residue).Pairwise (· < ·) :=
  (pairwise_pyRange _).filter _

theorem nodup_residueClass (totalBlocks modulus residue : ℤ) :
    (residueClass totalBlocks modulus residue).Nodup :=
  (nodup_pyRange _).filter _

/-- **The size of one share.** -/
theorem length_residueClass (htotal : 0 ≤ totalBlocks) (h0 : 0 ≤ residue) (hlt : residue < modulus) :
    ((residueClass totalBlocks modulus residue).length : ℤ)
      = ⌈((totalBlocks : ℚ) - residue) / modulus⌉ := by
  have hmod : 0 < modulus := by omega
  have hmodq : (0 : ℚ) < modulus := by exact_mod_cast hmod
  -- the share as a set of integers
  have hset : (residueClass totalBlocks modulus residue).toFinset
      = {x ∈ Finset.Ico 0 totalBlocks | x ≡ residue [ZMOD modulus]} := by
    ext blockId
    rw [List.mem_toFinset, mem_residueClass hmod, Finset.mem_filter, Finset.mem_Ico, and_assoc]
    unfold Int.ModEq
    rw [Int.emod_eq_of_lt h0 hlt]
  have hzero : ⌈((0 : ℤ) - residue : ℚ) / modulus⌉ = 0 := by
    rw [Int.ceil_eq_iff]
    constructor
    · rw [lt_div_iff₀ hmodq]
      have : (residue : ℚ) < modulus := by exact_mod_cast hlt
      push_cast
      linarith
    · rw [div_le_iff₀ hmodq]
      have : (0 : ℚ) ≤ residue := by exact_mod_cast h0
      push_cast
      linarith
  have hnonneg : 0 ≤ ⌈((totalBlocks : ℚ) - residue) / modulus⌉ := by
    rw [← hzero]
    apply Int.ceil_le_ceil
    have : ((0 : ℤ) : ℚ) ≤ totalBlocks := by exact_mod_cast htotal
    gcongr
  rw [← List.toFinset_card_of_nodup (nodup_residueClass _ _ _), hset, Int.Ico_filter_modEq_card _ _ hmod,
    hzero, sub_zero, max_eq_left hnonneg]

/-- Two shares of one partition differ by at most one block. -/
theorem length_residueClass_le (htotal : 0 ≤ totalBlocks) {i j : ℤ} (hi : 0 ≤ i) (hilt : i < modulus)
    (hj : 0 ≤ j) (hjlt : j < modulus) :
    (residueClass totalBlocks modulus i).length ≤ (residueClass totalBlocks modulus j).length + 1 := by
  have hmodq : (0 : ℚ) < modulus := by exact_mod_cast hi.trans_lt hilt
  have hle : ((totalBlocks : ℚ) - i) / modulus ≤ (totalBlocks - j) / modulus + 1 := by
    rw [div_add_one hmodq.ne']
    have hji : j ≤ i + modulus := by omega
    have : (j : ℚ) ≤ i + modulus := by exact_mod_cast hji
    gcongr
    linarith
  have hceil := Int.ceil_le_ceil hle
  rw [Int.ceil_add_one, ← length_residueClass htotal hi hilt, ← length_residueClass htotal hj hjlt]
    at hceil
  exact_mod_cast hceil

end

/-! ### All shares -/

section

variable {totalBlocks basePort : ℤ} {ids : List SenderId}

/-- **The shares together are all the blocks.** -/
theorem perm_flatMap_assignedBlocks (hne : ids ≠ []) (totalBlocks basePort : ℤ) :
    ((shardAssignments totalBlocks ids basePort).flatMap ShardAssignment.assignedBlocks).Perm
      (pyRange totalBlocks) := by
  have hpos : (0 : ℤ) < ids.length := by
    have := List.length_pos_iff.mpr hne
    omega
  have hblocks {assignment : ShardAssignment}
      (hmem : assignment ∈ shardAssignments totalBlocks ids basePort) :
      assignment.assignedBlocks = residueClass totalBlocks ids.length assignment.shardResidue := by
    obtain ⟨i, senderId, -, rfl⟩ := mem_shardAssignments.mp hmem
    rfl
  have hresidues : (shardAssignments totalBlocks ids basePort).Pairwise
      fun a b => a.shardResidue ≠ b.shardResidue := by
    rw [← List.pairwise_map, map_shardResidue_shardAssignments]
    exact nodup_pyRange _
  apply (List.perm_ext_iff_of_nodup ?_ (nodup_pyRange _)).mpr
  · intro blockId
    rw [List.mem_flatMap]
    constructor
    · rintro ⟨assignment, hmem, hblock⟩
      rw [hblocks hmem, mem_residueClass hpos] at hblock
      exact mem_pyRange.mpr ⟨hblock.1, hblock.2.1⟩
    · intro hblock
      obtain ⟨h0, hlt⟩ := mem_pyRange.mp hblock
      -- the share of the block is that of its residue
      have hone := countP_shardAssignments hne totalBlocks basePort blockId
      obtain ⟨assignment, hmem, hresidue⟩ := List.countP_pos_iff.mp (hone ▸ Nat.one_pos)
      refine ⟨assignment, hmem, ?_⟩
      rw [hblocks hmem, mem_residueClass hpos]
      exact ⟨h0, hlt, (of_decide_eq_true hresidue).symm⟩
  · rw [List.nodup_flatMap]
    constructor
    · intro assignment hmem
      rw [hblocks hmem]
      exact nodup_residueClass _ _ _
    · refine hresidues.imp_of_mem fun {a b} ha hb hne' => ?_
      show a.assignedBlocks.Disjoint b.assignedBlocks
      rw [hblocks ha, hblocks hb]
      intro blockId hleft hright
      rw [mem_residueClass hpos] at hleft hright
      exact hne' (hleft.2.2.symm.trans hright.2.2)

/-- What `deriveShardAssignments` raises is a `ValueError` of its own. -/
theorem ofDeriveShardAssignments_of_error {e : PyError}
    (h : deriveShardAssignments totalBlocks ids basePort = .error e) : e.OfDeriveShardAssignments := by
  by_cases hok : ids ≠ [] ∧ ids.Nodup ∧ 0 ≤ totalBlocks ∧ 0 < basePort
  · rw [deriveShardAssignments_eq_ok hok.1 hok.2.1 hok.2.2.1 hok.2.2.2] at h
    cases h
  · unfold deriveShardAssignments at h
    dsimp only at h
    split_ifs at h with hne hdup htotal hport
    · exact Except.error.inj h ▸ trivial
    · exact Except.error.inj h ▸ trivial
    · exact Except.error.inj h ▸ trivial
    · exact Except.error.inj h ▸ trivial
    · rw [not_not, duplicateLoop_eq_nil_iff] at hdup
      exact absurd ⟨hne, hdup, not_lt.mp htotal, not_le.mp hport⟩ hok

/-- **The shards are a balanced partition, or the input is rejected.**  `deriveShardAssignments` raises
exactly where there is no sender, a sender is repeated, the block count is negative or the port is not
positive, and always a `ValueError` of its own.  Otherwise the `i`-th assignment goes to the `i`-th
sender, with residue `i` modulo the number of senders and the `i`-th port; its blocks are increasing and
as many as the ceiling says, so that two shares differ by at most one block; and all shares together are
the blocks, each of them once. -/
theorem derive_shard_assignments_partitions (totalBlocks : ℤ) (ids : List SenderId) (basePort : ℤ) :
    ((∃ e, deriveShardAssignments totalBlocks ids basePort = .error e) ↔
      ids = [] ∨ ¬ ids.Nodup ∨ totalBlocks < 0 ∨ basePort ≤ 0) ∧
    (∀ e, deriveShardAssignments totalBlocks ids basePort = .error e → e.OfDeriveShardAssignments) ∧
    (∀ assignments, deriveShardAssignments totalBlocks ids basePort = .ok assignments →
      assignments.length = ids.length ∧
      (∀ (i : ℕ) assignment, assignments[i]? = some assignment →
        ids[i]? = some assignment.senderId ∧ assignment.shardModulus = ids.length ∧
        assignment.shardResidue = i ∧ assignment.targetPort = basePort + i ∧
        assignment.assignedBlocks.Pairwise (· < ·) ∧
        (assignment.assignedBlocks.length : ℤ) = ⌈((totalBlocks : ℚ) - i) / ids.length⌉ ∧
        (totalBlocks ≤ i → assignment.assignedBlocks = [])) ∧
      (∀ a ∈ assignments, ∀ b ∈ assignments,
        a.assignedBlocks.length ≤ b.assignedBlocks.length + 1) ∧
      (assignments.flatMap ShardAssignment.assignedBlocks).Perm (pyRange totalBlocks)) := by
  refine ⟨?_, fun e => ofDeriveShardAssignments_of_error, fun assignments h => ?_⟩
  · -- an exception is the same as no result
    have hiff := @deriveShardAssignments_isOk_iff totalBlocks ids basePort
    constructor
    · rintro ⟨e, he⟩
      by_contra hnot
      rw [not_or, not_or, not_or, not_not, not_lt, not_le] at hnot
      obtain ⟨assignments, hok⟩ := hiff.mpr ⟨hnot.1, hnot.2.1, hnot.2.2.1, hnot.2.2.2⟩
      rw [he] at hok
      cases hok
    · intro hrejected
      rcases hresult : deriveShardAssignments totalBlocks ids basePort with e | assignments
      · exact ⟨e, rfl⟩
      · obtain ⟨hne, hnodup, htotal, hport⟩ := hiff.mp ⟨assignments, hresult⟩
        rcases hrejected with h | h | h | h
        · exact absurd h hne
        · exact absurd hnodup h
        · omega
        · omega
  · obtain ⟨hne, hnodup, htotal, hport⟩ := deriveShardAssignments_isOk_iff.mp ⟨assignments, h⟩
    rw [deriveShardAssignments_eq_ok hne hnodup htotal hport, Except.ok.injEq] at h
    subst h
    refine ⟨length_shardAssignments _ _ _, fun i assignment hi => ?_, fun a ha b hb => ?_,
      perm_flatMap_assignedBlocks hne _ _⟩
    · rw [getElem?_shardAssignments, Option.map_eq_some_iff] at hi
      obtain ⟨senderId, hid, rfl⟩ := hi
      have hilt := (List.getElem?_eq_some_iff.mp hid).1
      have hlength := @length_residueClass totalBlocks ids.length i htotal (by omega) (by omega)
      refine ⟨hid, rfl, rfl, rfl, pairwise_residueClass _ _ _, mod_cast hlength, fun hle => ?_⟩
      apply List.eq_nil_iff_forall_not_mem.mpr
      intro blockId hblock
      have hmem : (blockId : ℤ) ∈ residueClass totalBlocks ids.length i := hblock
      rw [mem_residueClass (by omega)] at hmem
      obtain ⟨h0, hlt, hmod⟩ := hmem
      rw [Int.emod_eq_of_lt h0 (by omega)] at hmod
      omega
    · obtain ⟨i, _, hi, rfl⟩ := mem_shardAssignments.mp ha
      obtain ⟨j, _, hj, rfl⟩ := mem_shardAssignments.mp hb
      have hilt := (List.getElem?_eq_some_iff.mp hi).1
      have hjlt := (List.getElem?_eq_some_iff.mp hj).1
      exact length_residueClass_le htotal (by omega) (by omega) (by omega) (by omega)

end

end FileMonitor
