import Mathlib

/-! Sizes of trees of work that are bounded by a budget: every node has at most `k`
branches, and a branch with budget `x` spawns nodes whose budgets, each with one added for
the node itself, sum up to at most `x`. -/
namespace PlaidRuntime.CascadeBudget

/-- The largest tree below a node with budget `b`, the node included. -/
def tree (k b : ℕ) : ℕ := ∑ i ∈ Finset.range (b + 1), k ^ i

/-- The most nodes one branch with budget `x` can spawn, directly or not. -/
def branch (k : ℕ) : ℕ → ℕ
  | 0 => 0
  | x + 1 => tree k x

variable {k : ℕ}

theorem tree_succ (b : ℕ) : tree k (b + 1) = 1 + k * tree k b := by
  unfold tree
  rw [Finset.sum_range_succ', Finset.mul_sum, pow_zero, Nat.add_comm]
  simp only [pow_succ']

theorem tree_eq (b : ℕ) : tree k b = 1 + k * branch k b := by
  cases b with
  | zero => simp [tree, branch]
  | succ b => exact tree_succ b

theorem tree_add (a y : ℕ) : tree k (a + y + 1) = tree k a + k ^ (a + 1) * tree k y := by
  have hsplit : a + y + 1 + 1 = (a + 1) + (y + 1) := by omega
  unfold tree
  rw [hsplit, Finset.sum_range_add, Finset.mul_sum]
  simp only [pow_add]

theorem branch_mono {x y : ℕ} (h : x ≤ y) : branch k x ≤ branch k y := by
  cases x with
  | zero => exact Nat.zero_le _
  | succ x =>
    cases y with
    | zero => omega
    | succ y =>
      unfold branch tree
      apply Finset.sum_le_sum_of_subset
      exact Finset.range_mono (by omega)

/-- A node with budget `a` and what is left of its parent's branch afterwards fit into what
the branch could spawn before. -/
theorem tree_add_branch_le (hk : 1 ≤ k) (a y : ℕ) :
    tree k a + branch k y ≤ branch k (a + 1 + y) := by
  cases y with
  | zero => simp [branch]
  | succ y =>
    have hb : branch k (a + 1 + (y + 1)) = tree k a + k ^ (a + 1) * tree k y := by
      have he : a + 1 + (y + 1) = a + y + 1 + 1 := by omega
      rw [he]
      exact tree_add a y
    have hp : 1 ≤ k ^ (a + 1) := Nat.one_le_pow _ _ hk
    have hm : tree k y ≤ k ^ (a + 1) * tree k y := Nat.le_mul_of_pos_left _ hp
    rw [hb]
    simp only [branch]
    omega

end PlaidRuntime.CascadeBudget
