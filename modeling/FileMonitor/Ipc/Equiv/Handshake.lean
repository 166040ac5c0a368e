import FileMonitor.Ipc.Handshake
import FileMonitor.Ipc.Uds

/-!
# Which edits move the hash

The files are hashed one after the other without a separator, so what the hash can see is their
concatenation.

* `edited_contract_moves_hash`: two contracts with the same file names have one hash exactly if the
  concatenations agree; an edit of one file moves the hash, and so does every edit that keeps the
  lengths.
* `moved_bytes_keep_hash`: an edit that moves bytes from one file to the next does not.
-/

namespace FileMonitor

section

variable {protoDir protoDir' : ProtoDir}

/-! ### The names -/

theorem nodup_protoNames (protoDir : ProtoDir) : (protoNames protoDir).Nodup :=
  (List.perm_insertionSort _ _).nodup_iff.mpr ((AList.keys_nodup _).filter _)

/-- Sorting forgets the order in which the directory lists its files. -/
theorem protoNames_congr (h : ∀ name, name ∈ protoNames protoDir ↔ name ∈ protoNames protoDir') :
    protoNames protoDir = protoNames protoDir' := by
  have hperm : (protoNames protoDir).Perm (protoNames protoDir') :=
    (List.perm_ext_iff_of_nodup (nodup_protoNames _) (nodup_protoNames _)).mpr h
  exact hperm.eq_of_sortedLE List.sortedLE_insertionSort List.sortedLE_insertionSort

/-! ### The concatenation -/

theorem fedBytes_eq_flatMap (protoDir : ProtoDir) :
    fedBytes protoDir = (protoNames protoDir).flatMap (readBytes protoDir) := by
  unfold fedBytes
  rw [List.flatMap_eq_foldl]

/-- Concatenations of pieces with the same lengths agree only if the pieces do. -/
theorem eq_of_flatMap_eq {α β : Type*} {f g : α → List β} {l : List α}
    (hlength : ∀ a ∈ l, (f a).length = (g a).length) (h : l.flatMap f = l.flatMap g) :
    ∀ a ∈ l, f a = g a := by
  induction l with
  | nil => exact nofun
  | cons a l ih =>
    rw [List.flatMap_cons, List.flatMap_cons] at h
    obtain ⟨hhead, htail⟩ := List.append_inj h (hlength a List.mem_cons_self)
    intro b hb
    rcases List.mem_cons.mp hb with rfl | hb
    · exact hhead
    · exact ih (fun c hc => hlength c (List.mem_cons_of_mem _ hc)) htail b hb

/-- A single piece is determined by the concatenation and the other pieces. -/
theorem eq_of_flatMap_eq_of_others {α β : Type*} {f g : α → List β} {l : List α} (hnodup : l.Nodup)
    {a : α} (ha : a ∈ l) (hothers : ∀ b ∈ l, b ≠ a → f b = g b) (h : l.flatMap f = l.flatMap g) :
    f a = g a := by
  obtain ⟨pre, post, rfl⟩ := List.append_of_mem ha
  -- the pieces before and after are the same, and cancel
  have hpre : pre.flatMap f = pre.flatMap g := by
    apply List.flatMap_congr
    intro b hb
    apply hothers b (List.mem_append_left _ hb)
    rintro rfl
    exact (List.nodup_append.mp hnodup).2.2 b hb b List.mem_cons_self rfl
  have hpost : post.flatMap f = post.flatMap g := by
    apply List.flatMap_congr
    intro b hb
    apply hothers b (List.mem_append_right _ (List.mem_cons_of_mem _ hb))
    rintro rfl
    exact (List.nodup_cons.mp (List.nodup_append.mp hnodup).2.1).1 hb
  simp only [List.flatMap_append, List.flatMap_cons, hpre, hpost] at h
  exact List.append_cancel_right (List.append_cancel_left h)

/-! ### The hash -/

/-- **Which edits move the hash.**  For two contracts with the same file names, and a digest function
without a collision on what is fed to it: the hashes differ exactly if the concatenated files do, and
then `verify_proto_hash` refuses the one where it expects the other.  They differ where a single file
does, and where any file does as long as all lengths stay the same. -/
theorem edited_contract_moves_hash {blake3 : Bytes → Bytes}
    (hinj : Set.InjOn blake3 {fedBytes protoDir, fedBytes protoDir'})
    (hnames : ∀ name, name ∈ protoNames protoDir ↔ name ∈ protoNames protoDir') :
    (computeProtoHash blake3 protoDir ≠ computeProtoHash blake3 protoDir' ↔
      (protoNames protoDir).flatMap (readBytes protoDir)
        ≠ (protoNames protoDir).flatMap (readBytes protoDir')) ∧
    (∀ senderId, computeProtoHash blake3 protoDir ≠ computeProtoHash blake3 protoDir' →
      verifyProtoHash senderId (computeProtoHash blake3 protoDir) (computeProtoHash blake3 protoDir')
        = .error (.protoHashMismatch senderId (computeProtoHash blake3 protoDir)
          (computeProtoHash blake3 protoDir'))) ∧
    (∀ name ∈ protoNames protoDir, readBytes protoDir name ≠ readBytes protoDir' name →
      (∀ other ∈ protoNames protoDir, other ≠ name →
        readBytes protoDir other = readBytes protoDir' other) →
      computeProtoHash blake3 protoDir ≠ computeProtoHash blake3 protoDir') ∧
    (∀ name ∈ protoNames protoDir, readBytes protoDir name ≠ readBytes protoDir' name →
      (∀ other ∈ protoNames protoDir,
        (readBytes protoDir other).length = (readBytes protoDir' other).length) →
      computeProtoHash blake3 protoDir ≠ computeProtoHash blake3 protoDir') := by
  have hhash : computeProtoHash blake3 protoDir = computeProtoHash blake3 protoDir' ↔
      (protoNames protoDir).flatMap (readBytes protoDir)
        = (protoNames protoDir).flatMap (readBytes protoDir') := by
    unfold computeProtoHash
    -- both digests are of the files in the same order
    rw [hinj.eq_iff (Set.mem_insert _ _) (Set.mem_insert_of_mem _ (Set.mem_singleton _)),
      fedBytes_eq_flatMap, fedBytes_eq_flatMap, protoNames_congr hnames]
  refine ⟨not_congr hhash, fun senderId hne => if_pos hne, ?_, ?_⟩
  · intro name hmem hne hothers heq
    exact hne (eq_of_flatMap_eq_of_others (nodup_protoNames _) hmem hothers (hhash.mp heq))
  · intro name hmem hne hlength heq
    exact hne (eq_of_flatMap_eq hlength (hhash.mp heq) name hmem)

end

/-! ### Two contracts -/

/-- A contract of two files. -/
def twoFiles (a b : Bytes) : ProtoDir :=
  AList.insert "a.proto" a (AList.insert "b.proto" b ∅)

/-- The BLAKE3 digests of `AB` and `AC`, the only contents hashed below. -/
def contractBlake3 (fed : Bytes) : Bytes :=
  if fed = [0x41, 0x42] then
    [0xb7, 0x2d, 0x73, 0x18, 0x46, 0x6e, 0xca, 0x15, 0x33, 0xe3, 0xf2, 0xed, 0x70, 0xeb, 0x9a, 0x8c,
      0x67, 0xc4, 0xf0, 0x84, 0x30, 0x99, 0x1a, 0x05, 0xe0, 0xd0, 0x18, 0x58, 0x6b, 0x36, 0x04, 0x25]
  else if fed = [0x41, 0x43] then
    [0xc0, 0xba, 0x7a, 0x40, 0xca, 0x24, 0x9a, 0xc7, 0x48, 0x27, 0xd5, 0x08, 0x9a, 0x47, 0x76, 0x6b,
      0xd2, 0x5e, 0xa4, 0x01, 0x67, 0x31, 0x34, 0x85, 0xb3, 0xb7, 0x48, 0xb2, 0xed, 0xb9, 0x89, 0x33]
  else []

/-- The second file is edited. -/
theorem edited_contract_moves_hash_second_file :
    computeProtoHash contractBlake3 (twoFiles [0x41] [0x42])
      ≠ computeProtoHash contractBlake3 (twoFiles [0x41] [0x43]) := by
  have hnames : protoNames (twoFiles [0x41] [0x42]) = protoNames (twoFiles [0x41] [0x43]) := by
    decide +kernel
  have hinj : Set.InjOn contractBlake3
      {fedBytes (twoFiles [0x41] [0x42]), fedBytes (twoFiles [0x41] [0x43])} := by
    rw [Set.injOn_pair]
    decide +kernel
  obtain ⟨-, -, hone, -⟩ := edited_contract_moves_hash hinj fun name => by rw [hnames]
  exact hone "b.proto" (by decide +kernel) (by decide +kernel) (by decide +kernel)

/-- A byte moves from the second file to the first. -/
theorem moved_bytes_keep_hash :
    protoNames (twoFiles [0x41, 0x42] []) = protoNames (twoFiles [0x41] [0x42]) ∧
    readBytes (twoFiles [0x41, 0x42] []) "a.proto" ≠ readBytes (twoFiles [0x41] [0x42]) "a.proto" ∧
    ∀ blake3 : Bytes → Bytes, computeProtoHash blake3 (twoFiles [0x41, 0x42] [])
      = computeProtoHash blake3 (twoFiles [0x41] [0x42]) := by
  refine ⟨by decide +kernel, by decide +kernel, fun blake3 => congrArg blake3 ?_⟩
  decide +kernel

end FileMonitor
