import FileMonitor.Domain.Models
import FileMonitor.Library.RoundNearest
import Mathlib.Data.List.Sort

/-!
# Shard planning

`domain/planning.py`: the block count of a file, the byte ranges of its blocks, and the partition of
the block ids over the active senders.  The residue of a sender is its position in the list of active
senders.
-/

namespace FileMonitor

/-- Python's `a / b` on integers: the exact quotient rounded to the 53 significant bits of a float,
ties to even.  The exponent range is that of a float only at the top, where Python raises
`OverflowError`; quotients below the smallest normal float are kept at 53 bits. -/
def trueDivide (a b : ℤ) : Except PyError ℚ :=
  if b = 0 then .error .zeroDivision
  else
    let quotient := RoundNearest.toPrecision 53 ((a : ℚ) / b)
    if 2 ^ 1024 ≤ |quotient| then .error .divisionOverflow else .ok quotient

/-- `calculate_block_count`: `math.ceil(file_size / fec_params.block_size)`. -/
def calculateBlockCount (fileSize : ℤ) (fecParams : FecParams) : Except PyError ℤ :=
  (trueDivide fileSize fecParams.blockSize).map fun quotient => ⌈quotient⌉

/-- `range(n)`. -/
def pyRange (n : ℤ) : List ℤ := (List.range n.toNat).map Nat.cast

/-- `compute_block_plans`. -/
def computeBlockPlans (fileSize : ℤ) (fecParams : FecParams) : Except PyError (List BlockPlan) :=
  (calculateBlockCount fileSize fecParams).map fun blockCount =>
    let blockSize := fecParams.blockSize
    (pyRange blockCount).map fun i =>
      let startByte := i * blockSize
      { blockId := i, startByte := startByte, endByte := min (startByte + blockSize) fileSize }

/-- `blocks_for_shard`.  Python's `%` takes the sign of the modulus, and raises on modulus zero as
soon as there is a block to test. -/
def blocksForShard (totalBlocks modulus residue : ℤ) : Except PyError (List BlockId) :=
  if modulus = 0 ∧ 0 < totalBlocks then .error .zeroDivision
  else .ok ((pyRange totalBlocks).filter fun blockId => blockId.fmod modulus = residue)

/-- The loop of `derive_shard_assignments` that collects repeated ids: the sets `seen` and
`duplicate_sender_ids` after the given senders. -/
def duplicateLoop (activeSenders : List SenderId) : List SenderId × List SenderId :=
  activeSenders.foldl
    (fun (seen, duplicates) senderId =>
      (seen.insert senderId, if senderId ∈ seen then duplicates.insert senderId else duplicates))
    ([], [])

/-- `derive_shard_assignments`. -/
def deriveShardAssignments (totalBlocks : ℤ) (activeSenders : List SenderId) (basePort : ℤ) :
    Except PyError (List ShardAssignment) :=
  if activeSenders = [] then .error .emptyActiveSenders
  else
    let duplicateSenderIds := (duplicateLoop activeSenders).2
    if duplicateSenderIds ≠ [] then
      .error (.duplicateSenderIds (duplicateSenderIds.insertionSort (· ≤ ·)))
    else if totalBlocks < 0 then .error (.negativeTotalBlocks totalBlocks)
    else if basePort ≤ 0 then .error (.nonPositiveBasePort basePort)
    else
      let shardModulus : ℤ := activeSenders.length
      activeSenders.zipIdx.mapM fun (senderId, shardResidue) =>
        (blocksForShard totalBlocks shardModulus shardResidue).map fun assignedBlocks =>
          { senderId := senderId
            shardModulus := shardModulus
            shardResidue := shardResidue
            assignedBlocks := assignedBlocks
            targetPort := basePort + shardResidue }

end FileMonitor
