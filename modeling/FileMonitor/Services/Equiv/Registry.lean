import FileMonitor.Services.Registry

/-!
# What the registry answers

* `lookup_purgeExpired`: the purge drops exactly the entries that have timed out.
* `mem_activeSenders`: the senders returned by `activeSenders` are those seen within the timeout.
* `pairwise_activeSenders`: they are listed in strictly increasing order, whatever the registry.
-/

namespace FileMonitor

namespace SenderRegistry

theorem mem_expired {registry : SenderRegistry} {now : ℚ} {senderId : SenderId} :
    senderId ∈ registry.expired now ↔
      ∃ lastSeen, registry.lastSeen.lookup senderId = some lastSeen ∧
        registry.timeoutSeconds ≤ now - lastSeen := by
  unfold expired
  rw [List.mem_map]
  constructor
  · rintro ⟨⟨_, lastSeen⟩, hmem, rfl⟩
    obtain ⟨hentry, hle⟩ := List.mem_filter.mp hmem
    exact ⟨lastSeen, Dict.mem_entries_iff.mp hentry, of_decide_eq_true hle⟩
  · rintro ⟨lastSeen, hlookup, hle⟩
    exact ⟨⟨senderId, lastSeen⟩,
      List.mem_filter.mpr ⟨Dict.mem_entries_iff.mpr hlookup, decide_eq_true hle⟩, rfl⟩

/-- The purge drops exactly the entries that have timed out. -/
theorem lookup_purgeExpired {registry : SenderRegistry} {now : ℚ} {senderId : SenderId} {u : ℚ} :
    (registry.purgeExpired now).lastSeen.lookup senderId = some u ↔
      registry.lastSeen.lookup senderId = some u ∧ now - u < registry.timeoutSeconds := by
  unfold purgeExpired
  rw [Dict.lookup_foldl_erase]
  by_cases hmem : senderId ∈ registry.expired now
  · obtain ⟨lastSeen, hlookup, hle⟩ := mem_expired.mp hmem
    simp only [if_pos hmem, hlookup, Option.some.injEq, reduceCtorEq, false_iff, not_and]
    rintro rfl
    exact not_lt.mpr hle
  · rw [if_neg hmem]
    refine ⟨fun h => ⟨h, ?_⟩, And.left⟩
    by_contra hle
    exact hmem (mem_expired.mpr ⟨u, h, not_lt.mp hle⟩)

/-- **The active senders are those seen within the timeout.** -/
theorem mem_activeSenders {registry : SenderRegistry} {now : ℚ} {senderId : SenderId} :
    senderId ∈ (registry.activeSenders now).1 ↔
      ∃ u, registry.lastSeen.lookup senderId = some u ∧ now - u < registry.timeoutSeconds := by
  show senderId ∈ List.insertionSort _ _ ↔ _
  rw [List.mem_insertionSort, ← AList.mem_keys, Dict.mem_iff_exists_lookup]
  exact exists_congr fun u => lookup_purgeExpired

theorem nodup_activeSenders (registry : SenderRegistry) (now : ℚ) :
    (registry.activeSenders now).1.Nodup :=
  (List.perm_insertionSort _ _).nodup_iff.mpr (AList.keys_nodup _)

/-- **The active senders are strictly increasing.** -/
theorem pairwise_activeSenders (registry : SenderRegistry) (now : ℚ) :
    (registry.activeSenders now).1.Pairwise (· < ·) :=
  List.sortedLT_iff_pairwise.mp (List.sortedLT_iff_nodup_and_sortedLE.mpr
    ⟨nodup_activeSenders registry now, List.sortedLE_insertionSort⟩)

/-- In a strictly increasing list the position of an element is the number of smaller ones. -/
theorem countP_lt_of_pairwise {ids : List SenderId} (hsorted : ids.Pairwise (· < ·)) {i : ℕ}
    {senderId : SenderId} (hi : ids[i]? = some senderId) : ids.countP (· < senderId) = i := by
  induction hsorted generalizing i with
  | nil => simp at hi
  | @cons a ids hlt hsorted ih =>
    cases i with
    | zero =>
      obtain rfl : a = senderId := by simpa using hi
      rw [List.countP_eq_zero]
      intro b hb
      rcases List.mem_cons.mp hb with rfl | hb
      · simp
      · simpa using (hlt b hb).le
    | succ i =>
      rw [List.getElem?_cons_succ] at hi
      have ha : a < senderId := hlt senderId (List.mem_of_getElem? hi)
      rw [List.countP_cons_of_pos (by simpa using ha), ih hi]

end SenderRegistry

end FileMonitor
