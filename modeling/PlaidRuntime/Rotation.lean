import Mathlib

/-!
# Rotations

Places `0 .. n - 1` in a circle, some of them good. `distance` counts the places from one to
the next good one, itself included.
-/
namespace PlaidRuntime.Rotation

variable (good : ℕ → Prop) (n : ℕ)

noncomputable def distance (k : ℕ) : ℕ := sInf {d | good ((k + d) % n)}

variable {good n}

theorem exists_ahead (h : ∃ g < n, good g) (k : ℕ) : ∃ d < n, good ((k + d) % n) := by
  obtain ⟨g, hg, hgood⟩ := h
  have hn : 0 < n := by omega
  refine ⟨(g + (n - k % n)) % n, Nat.mod_lt _ hn, ?_⟩
  have hk : k % n ≤ n := (Nat.mod_lt k hn).le
  have hround : (k + (g + (n - k % n)) % n) % n = g := by
    calc (k + (g + (n - k % n)) % n) % n
        = (k % n + (g + (n - k % n))) % n := by rw [Nat.add_mod_mod, Nat.mod_add_mod]
      _ = (g + n) % n := by congr 1; omega
      _ = g := by rw [Nat.add_mod_right, Nat.mod_eq_of_lt hg]
  rwa [hround]

theorem distance_lt (h : ∃ g < n, good g) (k : ℕ) : distance good n k < n := by
  obtain ⟨d, hd, hgood⟩ := exists_ahead h k
  exact lt_of_le_of_lt (Nat.sInf_le hgood) hd

/-- Leaving a place that is not good brings the next good one nearer. -/
theorem distance_succ (h : ∃ g < n, good g) {k : ℕ} (hk : ¬ good (k % n)) :
    distance good n (k + 1) + 1 = distance good n k := by
  have hshift : ∀ d, (k + 1 + d) % n = (k + (d + 1)) % n := by
    intro d
    congr 1
    omega
  obtain ⟨d₁, -, h₁⟩ := exists_ahead h (k + 1)
  obtain ⟨d₀, -, h₀⟩ := exists_ahead h k
  have hmem₁ : good ((k + 1 + distance good n (k + 1)) % n) :=
    Nat.sInf_mem (s := {d | good ((k + 1 + d) % n)}) ⟨d₁, h₁⟩
  have hmem₀ : good ((k + distance good n k) % n) :=
    Nat.sInf_mem (s := {d | good ((k + d) % n)}) ⟨d₀, h₀⟩
  apply le_antisymm
  · cases hd : distance good n k with
    | zero =>
      rw [hd] at hmem₀
      exact absurd hmem₀ hk
    | succ d =>
      rw [hd, ← hshift] at hmem₀
      exact Nat.succ_le_succ (Nat.sInf_le hmem₀)
  · rw [hshift] at hmem₁
    exact Nat.sInf_le hmem₁

theorem distance_congr {k l : ℕ} (h : k % n = l % n) : distance good n k = distance good n l := by
  have hset : {d | good ((k + d) % n)} = {d | good ((l + d) % n)} := by
    ext d
    have he : (k + d) % n = (l + d) % n := Nat.ModEq.add_right d h
    simp only [Set.mem_ofPred_eq, he]
  rw [distance, distance, hset]

end PlaidRuntime.Rotation
