import Mathlib

/-! Little-endian numbers of any width, and two byte strings in one: the length of the first in
front of both. -/
namespace PlaidRuntime.LengthPrefix

/-- The `w` lowest bytes of a number, the least significant first. -/
def leBytes : ℕ → ℕ → List UInt8
  | 0, _ => []
  | w + 1, n => UInt8.ofNat n :: leBytes w (n / 256)

def leValue : List UInt8 → ℕ
  | [] => 0
  | b :: bs => b.toNat + 256 * leValue bs

@[simp] theorem leBytes_length (w n : ℕ) : (leBytes w n).length = w := by
  induction w generalizing n with
  | zero => rfl
  | succ w ih => rw [leBytes, List.length_cons, ih]

theorem leValue_leBytes {w n : ℕ} (h : n < 256 ^ w) : leValue (leBytes w n) = n := by
  induction w generalizing n with
  | zero =>
    rw [pow_zero] at h
    rw [leBytes, leValue]
    omega
  | succ w ih =>
    have hdiv : n / 256 < 256 ^ w := by
      rw [pow_succ] at h
      omega
    have hbyte : (UInt8.ofNat n).toNat = n % 256 := UInt8.toNat_ofNat'
    rw [leBytes, leValue, ih hdiv, hbyte]
    omega

def frame (w : ℕ) (a b : List UInt8) : List UInt8 := leBytes w a.length ++ a ++ b

/-- The indices from `start` up to `stop`, if these are in order and in range. -/
def slice (l : List UInt8) (start stop : ℕ) : Option (List UInt8) :=
  if start ≤ stop ∧ stop ≤ l.length then some ((l.drop start).take (stop - start)) else none

variable (w : ℕ) (a b : List UInt8)

@[simp] theorem frame_length : (frame w a b).length = w + a.length + b.length := by
  simp [frame, Nat.add_assoc]

theorem slice_frame_length : slice (frame w a b) 0 w = some (leBytes w a.length) := by
  have hle : w ≤ (frame w a b).length := by simp [add_assoc]
  rw [slice, if_pos ⟨Nat.zero_le _, hle⟩, List.drop_zero, Nat.sub_zero, frame, List.append_assoc]
  rw [List.take_left' (leBytes_length w a.length)]

theorem slice_frame_first : slice (frame w a b) w (w + a.length) = some a := by
  have hle : w + a.length ≤ (frame w a b).length := by simp
  rw [slice, if_pos ⟨Nat.le_add_right _ _, hle⟩, Nat.add_sub_cancel_left, frame, List.append_assoc]
  rw [List.drop_left' (leBytes_length w a.length), List.take_left]

theorem slice_frame_second :
    slice (frame w a b) (w + a.length) (frame w a b).length = some b := by
  have hle : w + a.length ≤ (frame w a b).length := by simp
  have hlen : (leBytes w a.length ++ a).length = w + a.length := by simp
  rw [slice, if_pos ⟨hle, le_refl _⟩, frame_length, Nat.add_sub_cancel_left, frame]
  rw [List.drop_left' hlen, List.take_length]

end PlaidRuntime.LengthPrefix
