import Mathlib

/-!
# Maps that forget

Finite maps of bounded size. A write may drop other entries but never change them. Two ways of
staying within the bound: the least recently used entry goes, or some entry does.
-/
namespace PlaidRuntime.BoundedMap

variable {K V : Type} [DecidableEq K]

abbrev Map (K V : Type) := AList fun _ : K => V

def size (c : Map K V) : ℕ := c.entries.length

/-- `c'` has the new entry, and of the others no more than `c` had. -/
structure Written (c c' : Map K V) (k : K) (v : V) : Prop where
  written : c'.lookup k = some v
  others : ∀ k', k' ≠ k → c'.lookup k' = c.lookup k' ∨ c'.lookup k' = none

omit [DecidableEq K] in
theorem size_eq_keys (c : Map K V) : size c = c.keys.length := by
  simp [size, AList.keys, List.keys]

theorem size_erase {c : Map K V} {k : K} (h : k ∈ c) : size (c.erase k) + 1 = size c := by
  rw [size_eq_keys, size_eq_keys, AList.keys_erase, List.length_erase_of_mem (AList.mem_keys.mp h)]
  have hpos := List.length_pos_of_mem (AList.mem_keys.mp h)
  omega

theorem size_insert (c : Map K V) (k : K) (v : V) : size (c.insert k v) = size (c.erase k) + 1 := by
  simp [size, AList.entries_insert, AList.erase]

theorem size_insert_of_mem {c : Map K V} {k : K} (h : k ∈ c) (v : V) :
    size (c.insert k v) = size c := by
  rw [size_insert, size_erase h]

theorem size_insert_of_notMem {c : Map K V} {k : K} (h : k ∉ c) (v : V) :
    size (c.insert k v) = size c + 1 := by
  rw [size, size, AList.entries_insert_of_notMem h, List.length_cons]

theorem written_insert (c : Map K V) (k : K) (v : V) : Written c (c.insert k v) k v :=
  ⟨AList.lookup_insert c, fun _ hne => Or.inl (AList.lookup_insert_ne hne)⟩

section recency

/-- The first `n` entries. -/
def keepFirst (n : ℕ) (c : Map K V) : Map K V where
  entries := c.entries.take n
  nodupKeys := c.nodupKeys.sublist (List.take_sublist n _)

/-- Write an entry in front; beyond `n` entries the last one goes. -/
def putRecent (n : ℕ) (c : Map K V) (k : K) (v : V) : Map K V := keepFirst n (c.insert k v)

/-- Move an entry to the front. -/
def touch (c : Map K V) (k : K) : Map K V :=
  match c.lookup k with
  | none => c
  | some v => c.insert k v

omit [DecidableEq K] in
theorem size_keepFirst_le (n : ℕ) (c : Map K V) : size (keepFirst n c) ≤ n := by
  simp [size, keepFirst]

theorem lookup_keepFirst (n : ℕ) (c : Map K V) (k : K) :
    (keepFirst n c).lookup k = c.lookup k ∨ (keepFirst n c).lookup k = none := by
  cases h : (keepFirst n c).lookup k with
  | none => exact Or.inr rfl
  | some v =>
    have hmem : (⟨k, v⟩ : Σ _ : K, V) ∈ c.entries :=
      List.mem_of_mem_take (AList.mem_lookup_iff.mp h)
    exact Or.inl (AList.mem_lookup_iff.mpr hmem).symm

theorem written_putRecent {n : ℕ} (hn : 0 < n) (c : Map K V) (k : K) (v : V) :
    Written c (putRecent n c k v) k v := by
  constructor
  · obtain ⟨m, rfl⟩ : ∃ m, n = m + 1 := ⟨n - 1, by omega⟩
    apply AList.mem_lookup_iff.mpr
    simp [putRecent, keepFirst, AList.entries_insert]
  · intro k' hne
    rcases lookup_keepFirst n (c.insert k v) k' with h | h
    · exact Or.inl (h.trans (AList.lookup_insert_ne hne))
    · exact Or.inr h

theorem lookup_touch (c : Map K V) (k k' : K) : (touch c k).lookup k' = c.lookup k' := by
  unfold touch
  split
  · rfl
  · rename_i v hv
    by_cases hk : k' = k
    · subst hk
      rw [AList.lookup_insert, hv]
    · exact AList.lookup_insert_ne hk

theorem size_touch (c : Map K V) (k : K) : size (touch c k) = size c := by
  unfold touch
  split
  · rfl
  · rename_i v hv
    exact size_insert_of_mem (AList.lookup_isSome.mp (by rw [hv]; rfl)) v

end recency

section eviction

/-- Write an entry; if it is new and there are `n` or more, `pick` goes first. -/
def putEvicting (n : ℕ) (c : Map K V) (pick : Option K) (k : K) (v : V) : Option (Map K V) :=
  if k ∉ c ∧ 0 < n ∧ n ≤ size c then
    match pick with
    | none => none
    | some e => if e ∈ c then some ((c.erase e).insert k v) else none
  else some (c.insert k v)

variable {n : ℕ} {c c' : Map K V} {pick : Option K} {k : K} {v : V}

theorem written_putEvicting (h : putEvicting n c pick k v = some c') : Written c c' k v := by
  unfold putEvicting at h
  split_ifs at h
  · split at h
    · cases h
    · rename_i e
      split_ifs at h
      cases h
      refine ⟨AList.lookup_insert _, fun k' hne => ?_⟩
      rw [AList.lookup_insert_ne hne]
      by_cases he : k' = e
      · subst he
        exact Or.inr (AList.lookup_erase k' c)
      · exact Or.inl (AList.lookup_erase_ne he)
  · cases h
    exact written_insert c k v

theorem size_putEvicting_le (hn : 0 < n) (hc : size c ≤ n) (h : putEvicting n c pick k v = some c') :
    size c' ≤ n := by
  unfold putEvicting at h
  split_ifs at h with hfull
  · split at h
    · cases h
    · rename_i e
      split_ifs at h with he
      cases h
      have hk : k ∉ c.erase e := fun hm => hfull.1 (AList.mem_erase.mp hm).2
      have hsize := size_erase he
      rw [size_insert_of_notMem hk]
      omega
  · cases h
    by_cases hk : k ∈ c
    · rw [size_insert_of_mem hk]
      exact hc
    · rw [size_insert_of_notMem hk]
      have hroom : ¬ n ≤ size c := fun hle => hfull ⟨hk, hn, hle⟩
      omega

/-- Below the bound nothing goes. -/
theorem putEvicting_of_lt (h : size c < n) : putEvicting n c pick k v = some (c.insert k v) :=
  if_neg fun hfull => absurd hfull.2.2 (Nat.not_le.mpr h)

end eviction
end PlaidRuntime.BoundedMap
