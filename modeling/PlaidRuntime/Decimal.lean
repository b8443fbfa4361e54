import Mathlib

/-!
# Decimal text

`from_str` for signed integers: an optional sign, at least one digit and nothing else. What
`to_string` prints is read back.
-/
namespace PlaidRuntime.Decimal

def parseDigits (cs : List Char) : Option ℕ :=
  if cs ≠ [] ∧ ∀ c ∈ cs, c.isDigit = true then some (Nat.ofDigitChars 10 cs 0) else none

def parseSigned : List Char → Option ℤ
  | '-' :: cs => (parseDigits cs).map fun n : ℕ => -(n : ℤ)
  | '+' :: cs => (parseDigits cs).map fun n : ℕ => (n : ℤ)
  | cs => (parseDigits cs).map fun n : ℕ => (n : ℤ)

/-- The value must also lie in the range of the type, from `lo` to `hi`. -/
def parseInt (lo hi : ℤ) (s : String) : Option ℤ :=
  (parseSigned s.toList).bind fun n => if lo ≤ n ∧ n ≤ hi then some n else none

theorem parseDigits_toDigits (n : ℕ) : parseDigits (Nat.toDigits 10 n) = some n := by
  have hdigit : ∀ c ∈ Nat.toDigits 10 n, c.isDigit = true :=
    fun c hc => Nat.isDigit_of_mem_toDigits (by decide) (by decide) hc
  rw [parseDigits, if_pos ⟨Nat.toDigits_ne_nil, hdigit⟩, Nat.ofDigitChars_ten_toDigits]

/-- No digit is a sign, so unsigned text is read as it stands. -/
theorem parseSigned_toDigits (n : ℕ) : parseSigned (Nat.toDigits 10 n) = some (n : ℤ) := by
  have hdigit : ∀ c ∈ Nat.toDigits 10 n, c.isDigit = true :=
    fun c hc => Nat.isDigit_of_mem_toDigits (by decide) (by decide) hc
  have hparse := parseDigits_toDigits n
  unfold parseSigned
  split
  · rename_i cs hcs
    have hminus := hdigit '-' (by rw [hcs]; exact List.mem_cons_self)
    exact absurd hminus (by decide)
  · rename_i cs hcs
    have hplus := hdigit '+' (by rw [hcs]; exact List.mem_cons_self)
    exact absurd hplus (by decide)
  · rw [hparse]
    rfl

theorem parseSigned_toString (i : ℤ) : parseSigned (toString i).toList = some i := by
  rw [Int.toString_eq_repr, Int.repr_eq_if]
  split
  · rename_i hi
    rw [Nat.toList_repr, parseSigned_toDigits]
    have habs : (i.toNat : ℤ) = i := Int.toNat_of_nonneg hi
    rw [habs]
  · rename_i hi
    have hneg : ((-i).toNat : ℤ) = -i := Int.toNat_of_nonneg (by omega)
    rw [String.toList_append, Nat.toList_repr]
    change (parseDigits (Nat.toDigits 10 (-i).toNat)).map (fun n : ℕ => -(n : ℤ)) = some i
    rw [parseDigits_toDigits, Option.map_some, hneg, neg_neg]

theorem parseInt_toString {lo hi i : ℤ} (hlo : lo ≤ i) (hhi : i ≤ hi) :
    parseInt lo hi (toString i) = some i := by
  rw [parseInt, parseSigned_toString, Option.bind_some, if_pos ⟨hlo, hhi⟩]

end PlaidRuntime.Decimal
