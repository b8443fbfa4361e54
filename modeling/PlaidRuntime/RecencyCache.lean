import Mathlib

/-!
# Caches that forget the least recent entry

A cache of bounded capacity, most recent entry first. Putting an entry moves it to the
front; when the cache is full the last entry goes. Looking an entry up leaves the order.
-/
namespace PlaidRuntime.RecencyCache

structure Cache (α : Type) where
  capacity : ℕ
  entries : List α
  nodup : entries.Nodup
  bounded : entries.length ≤ capacity

variable {α : Type}

theorem Cache.ext_entries {c d : Cache α} (hc : c.capacity = d.capacity)
    (he : c.entries = d.entries) : c = d := by
  cases c
  cases d
  simp only at hc he
  subst hc he
  rfl

def empty (α : Type) (capacity : ℕ) : Cache α := ⟨capacity, [], List.nodup_nil, Nat.zero_le _⟩

variable [DecidableEq α]

def Cache.contains (c : Cache α) (x : α) : Bool := c.entries.contains x

def Cache.put (c : Cache α) (x : α) : Cache α where
  capacity := c.capacity
  entries := (x :: c.entries.erase x).take c.capacity
  nodup := by
    have hx : x ∉ c.entries.erase x := c.nodup.not_mem_erase
    exact (List.nodup_cons.mpr ⟨hx, c.nodup.erase x⟩).sublist (List.take_sublist _ _)
  bounded := by simp

@[simp] theorem contains_iff {c : Cache α} {x : α} : c.contains x = true ↔ x ∈ c.entries := by
  simp [Cache.contains]

@[simp] theorem put_capacity (c : Cache α) (x : α) : (c.put x).capacity = c.capacity := rfl

/-- A new entry pushes the last one out of a full cache. -/
theorem put_entries_of_notMem {c : Cache α} {x : α} (hx : x ∉ c.entries) :
    (c.put x).entries = (x :: c.entries).take c.capacity := by
  simp only [Cache.put, List.erase_of_not_mem hx]

theorem mem_put {c : Cache α} {x y : α} (h : y ∈ (c.put x).entries) : y = x ∨ y ∈ c.entries := by
  rcases List.mem_cons.mp (List.mem_of_mem_take h) with rfl | hy
  · exact .inl rfl
  · exact .inr (List.mem_of_mem_erase hy)

def Cache.putAll (c : Cache α) (xs : List α) : Cache α := xs.foldl Cache.put c

@[simp] theorem putAll_capacity (c : Cache α) (xs : List α) : (c.putAll xs).capacity = c.capacity := by
  induction xs generalizing c with
  | nil => rfl
  | cons x xs ih => exact ih (c.put x)

theorem mem_putAll {c : Cache α} {xs : List α} {y : α} (h : y ∈ (c.putAll xs).entries) :
    y ∈ xs ∨ y ∈ c.entries := by
  induction xs generalizing c with
  | nil => exact .inr h
  | cons x xs ih =>
    rcases ih h with hy | hy
    · exact .inl (List.mem_cons_of_mem x hy)
    · rcases mem_put hy with rfl | hy
      · exact .inl List.mem_cons_self
      · exact .inr hy

/-- New entries that fit are stacked in front, the last one put on top. -/
theorem putAll_entries {c : Cache α} {xs : List α} (hnew : ∀ x ∈ xs, x ∉ c.entries) (hxs : xs.Nodup)
    (hfits : xs.length + c.entries.length ≤ c.capacity) :
    (c.putAll xs).entries = xs.reverse ++ c.entries := by
  induction xs generalizing c with
  | nil => rfl
  | cons x xs ih =>
    simp only [List.length_cons] at hfits
    have hput : (c.put x).entries = x :: c.entries := by
      rw [put_entries_of_notMem (hnew x List.mem_cons_self)]
      exact List.take_of_length_le (by simp only [List.length_cons]; omega)
    have hrest : ∀ y ∈ xs, y ∉ (c.put x).entries := by
      intro y hy hmem
      rw [hput] at hmem
      rcases List.mem_cons.mp hmem with rfl | hmem
      · exact (List.nodup_cons.mp hxs).1 hy
      · exact hnew y (List.mem_cons_of_mem x hy) hmem
    have hfits' : xs.length + (c.put x).entries.length ≤ (c.put x).capacity := by
      rw [hput, put_capacity, List.length_cons]
      omega
    have hnext := ih hrest (List.nodup_cons.mp hxs).2 hfits'
    rw [hput] at hnext
    simpa [Cache.putAll] using hnext

/-- Replaying a listing through `put` turns the order round. -/
theorem putAll_listing (c : Cache α) :
    ((empty α c.capacity).putAll c.entries).entries = c.entries.reverse := by
  have h := @putAll_entries α _ (empty α c.capacity) c.entries (by simp [empty]) c.nodup
    (by simpa [empty] using c.bounded)
  simpa [empty] using h

end PlaidRuntime.RecencyCache
