import Mathlib.Data.List.AList

/-!
# Finite maps with one value type

`Dict` is an association list with distinct keys and values of one type, the newest entry first.
`AList.insert` moves the entry it updates to the front; `set` keeps it in its place, so that under `set`
and `erase` the entries are in the reverse order of their insertion.

* `lookup_insert_eq_ite`, `lookup_set_eq_ite`, `lookup_erase_eq_ite`: an update and a deletion seen at
  any key.
* `lookup_foldl_erase`: deleting a list of keys one after the other.
* `mem_values`: the values are those that some key maps to.
-/

/-- A finite map from `κ` to `ν`. -/
abbrev Dict (κ ν : Type*) := AList fun _ : κ => ν

namespace Dict

variable {κ ν : Type*}

/-- The values, in the order in which their entries were inserted. -/
def values (d : Dict κ ν) : List ν := (d.entries.map Sigma.snd).reverse

variable [DecidableEq κ]

/-- An update that keeps the place of the entry it updates. -/
def set (d : Dict κ ν) (k : κ) (v : ν) : Dict κ ν :=
  if k ∈ d then AList.replace k v d else AList.insert k v d

/-! ### Lookups -/

theorem lookup_insert_eq_ite (d : Dict κ ν) (k k' : κ) (v : ν) :
    (AList.insert k v d).lookup k' = if k' = k then some v else d.lookup k' := by
  by_cases h : k' = k
  · rw [if_pos h, h]
    exact AList.lookup_insert d
  · rw [if_neg h]
    exact AList.lookup_insert_ne h

/-- Replacing the value of a key that is there, seen at any key. -/
theorem dlookup_kreplace {l : List (Sigma fun _ : κ => ν)} {k : κ} (k' : κ) (v : ν) (h : k ∈ l.keys) :
    (l.kreplace k v).dlookup k' = if k' = k then some v else l.dlookup k' := by
  induction l with
  | nil => exact absurd h List.not_mem_nil
  | cons e l ih =>
    obtain ⟨key, value⟩ := e
    by_cases heq : k = key
    · subst heq
      have hhead : List.kreplace k v (⟨k, value⟩ :: l) = ⟨k, v⟩ :: l :=
        List.lookmap_cons_some _ l (dif_pos rfl)
      rw [hhead]
      by_cases hk' : k' = k
      · rw [if_pos hk', hk', List.dlookup_cons_eq]
      · rw [if_neg hk', List.dlookup_cons_ne _ _ hk', List.dlookup_cons_ne _ _ hk']
    · have htail : List.kreplace k v (⟨key, value⟩ :: l) = ⟨key, value⟩ :: List.kreplace k v l :=
        List.lookmap_cons_none _ l (dif_neg heq)
      rw [htail]
      by_cases hk' : k' = key
      · subst hk'
        rw [List.dlookup_cons_eq, List.dlookup_cons_eq, if_neg (Ne.symm heq)]
      · rw [List.dlookup_cons_ne _ _ hk', List.dlookup_cons_ne _ _ hk',
          ih ((List.mem_cons.mp h).resolve_left heq)]

theorem lookup_set_eq_ite (d : Dict κ ν) (k k' : κ) (v : ν) :
    (d.set k v).lookup k' = if k' = k then some v else d.lookup k' := by
  unfold set
  split_ifs with hmem h h
  · exact (dlookup_kreplace k' v hmem).trans (if_pos h)
  · exact (dlookup_kreplace k' v hmem).trans (if_neg h)
  · exact (lookup_insert_eq_ite d k k' v).trans (if_pos h)
  · exact (lookup_insert_eq_ite d k k' v).trans (if_neg h)

theorem lookup_erase_eq_ite (d : Dict κ ν) (k k' : κ) :
    (d.erase k).lookup k' = if k' = k then none else d.lookup k' := by
  by_cases h : k' = k
  · rw [if_pos h, h]
    exact AList.lookup_erase k d
  · rw [if_neg h]
    exact AList.lookup_erase_ne h

theorem mem_iff_exists_lookup {d : Dict κ ν} {k : κ} : k ∈ d ↔ ∃ v, d.lookup k = some v := by
  rw [← AList.lookup_isSome]
  exact Option.isSome_iff_exists

/-- Deleting a list of keys deletes exactly those keys. -/
theorem lookup_foldl_erase (ks : List κ) (d : Dict κ ν) (k : κ) :
    (ks.foldl (fun d k => AList.erase k d) d).lookup k = if k ∈ ks then none else d.lookup k := by
  induction ks generalizing d with
  | nil => simp
  | cons k' ks ih =>
    rw [List.foldl_cons, ih, lookup_erase_eq_ite]
    by_cases hmem : k ∈ ks
    · simp [hmem]
    · by_cases heq : k = k'
      · simp [heq]
      · simp [hmem, heq]

theorem mem_entries_iff {d : Dict κ ν} {k : κ} {v : ν} :
    (⟨k, v⟩ : Sigma fun _ => ν) ∈ d.entries ↔ d.lookup k = some v :=
  AList.mem_lookup_iff.symm

theorem mem_values {d : Dict κ ν} {v : ν} : v ∈ d.values ↔ ∃ k, d.lookup k = some v := by
  unfold values
  rw [List.mem_reverse, List.mem_map]
  constructor
  · rintro ⟨⟨k, _⟩, hmem, rfl⟩
    exact ⟨k, mem_entries_iff.mp hmem⟩
  · rintro ⟨k, hk⟩
    exact ⟨⟨k, v⟩, mem_entries_iff.mpr hk, rfl⟩

end Dict
