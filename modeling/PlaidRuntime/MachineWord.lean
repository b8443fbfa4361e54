import Mathlib

/-! Fixed-width integer arithmetic on `Nat` and `Int`: wrapping results, as a release build
computes them, and the casts between widths. -/
namespace PlaidRuntime.MachineWord

def addU64 (a b : ℕ) : ℕ := (a + b) % 2 ^ 64

/-- Wrapping subtraction; it underflows exactly when `a < b`. -/
def subU64 (a b : ℕ) : ℕ := (a + 2 ^ 64 - b) % 2 ^ 64

def sumU64 (xs : List ℕ) : ℕ := xs.foldl addU64 0

def asU64 (x : ℤ) : ℕ := (x % 2 ^ 64).toNat

def asI64 (n : ℕ) : ℤ := if n % 2 ^ 64 < 2 ^ 63 then (n % 2 ^ 64 : ℕ) else (n % 2 ^ 64 : ℕ) - 2 ^ 64

def asI32 (n : ℕ) : ℤ := if n % 2 ^ 32 < 2 ^ 31 then (n % 2 ^ 32 : ℕ) else (n % 2 ^ 32 : ℕ) - 2 ^ 32

def saturatingMulU32 (a b : ℕ) : ℕ := min (a * b) (2 ^ 32 - 1)

theorem addU64_of_lt {a b : ℕ} (h : a + b < 2 ^ 64) : addU64 a b = a + b := Nat.mod_eq_of_lt h

theorem subU64_of_le {a b : ℕ} (hb : b ≤ a) (ha : a < 2 ^ 64) : subU64 a b = a - b := by
  have he : a + 2 ^ 64 - b = (a - b) + 2 ^ 64 := by omega
  rw [subU64, he, Nat.add_mod_right]
  exact Nat.mod_eq_of_lt (by omega)

theorem foldl_addU64 (xs : List ℕ) (n : ℕ) :
    xs.foldl addU64 (n % 2 ^ 64) = (n + xs.sum) % 2 ^ 64 := by
  induction xs generalizing n with
  | nil => simp
  | cons x xs ih =>
    have he : addU64 (n % 2 ^ 64) x = (n + x) % 2 ^ 64 := by simp [addU64]
    rw [List.foldl_cons, he, ih, List.sum_cons, Nat.add_assoc]

theorem sumU64_of_lt {xs : List ℕ} (h : xs.sum < 2 ^ 64) : sumU64 xs = xs.sum := by
  have hf := foldl_addU64 xs 0
  simp only [Nat.zero_mod, Nat.zero_add] at hf
  rw [sumU64, hf]
  exact Nat.mod_eq_of_lt h

theorem sumU64_eq (xs : List ℕ) : sumU64 xs = xs.sum % 2 ^ 64 := by
  simpa [sumU64] using foldl_addU64 xs 0

theorem sumU64_of_perm {xs ys : List ℕ} (h : xs.Perm ys) : sumU64 xs = sumU64 ys := by
  rw [sumU64_eq, sumU64_eq, h.sum_eq]

theorem asU64_of_nonneg {x : ℤ} (h0 : 0 ≤ x) (h : x < 2 ^ 64) : (asU64 x : ℤ) = x := by
  rw [asU64, Int.emod_eq_of_lt h0 h, Int.toNat_of_nonneg h0]

theorem asI64_of_lt {n : ℕ} (h : n < 2 ^ 63) : asI64 n = n := by
  have hm : n % 2 ^ 64 = n := Nat.mod_eq_of_lt (by omega)
  rw [asI64, hm, if_pos h]

theorem asI32_of_lt {n : ℕ} (h : n < 2 ^ 31) : asI32 n = n := by
  have hm : n % 2 ^ 32 = n := Nat.mod_eq_of_lt (by omega)
  rw [asI32, hm, if_pos h]

theorem toNat_ofNat_u32 {n : ℕ} (h : n < 2 ^ 31) : (UInt32.ofNat n).toNat = n := by
  have hn : n < 2 ^ 32 := by omega
  exact UInt32.toNat_ofNat_of_lt' hn

end PlaidRuntime.MachineWord
