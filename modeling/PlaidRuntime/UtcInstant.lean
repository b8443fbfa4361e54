import Mathlib

/-!
# Instants in UTC

`OffsetDateTime` of the `time` crate, in UTC: a number of nanoseconds from the epoch between
the first instant of the year -9999 and the last of the year 9999.
-/
namespace PlaidRuntime.UtcInstant

def nanosPerSecond : ℤ := 1000000000

def minNanos : ℤ := -377705116800 * nanosPerSecond

def maxNanos : ℤ := 253402300800 * nanosPerSecond - 1

structure OffsetDateTime where
  nanos : ℤ
  lower : minNanos ≤ nanos
  upper : nanos ≤ maxNanos
  deriving DecidableEq

namespace OffsetDateTime

theorem nanos_injective : Function.Injective nanos := by
  rintro ⟨a, _, _⟩ ⟨b, _, _⟩ h
  simp only at h
  subst h
  rfl

instance : LinearOrder OffsetDateTime := LinearOrder.lift' nanos nanos_injective

theorem le_iff {a b : OffsetDateTime} : a ≤ b ↔ a.nanos ≤ b.nanos := Iff.rfl

def fromUnixTimestampNanos (n : ℤ) : Option OffsetDateTime :=
  if h : minNanos ≤ n ∧ n ≤ maxNanos then some ⟨n, h.1, h.2⟩ else none

def fromUnixTimestamp (s : ℤ) : Option OffsetDateTime := fromUnixTimestampNanos (s * nanosPerSecond)

/-- The second an instant lies in, also before the epoch. -/
def unixTimestamp (t : OffsetDateTime) : ℤ := t.nanos / nanosPerSecond

/-- Subtraction of a duration; it stops at the ends of the range. -/
def saturatingSub (t : OffsetDateTime) (d : ℤ) : OffsetDateTime where
  nanos := max minNanos (min maxNanos (t.nanos - d))
  lower := le_max_left _ _
  upper := max_le (by decide) (min_le_left _ _)

/-- Whole seconds of a duration, towards zero. -/
def wholeSeconds (d : ℤ) : ℤ := d.tdiv nanosPerSecond

theorem fromUnixTimestampNanos_self (t : OffsetDateTime) :
    fromUnixTimestampNanos t.nanos = some t := by
  rw [fromUnixTimestampNanos, dif_pos ⟨t.lower, t.upper⟩]

theorem nanos_of_fromUnixTimestamp {s : ℤ} {t : OffsetDateTime} (h : fromUnixTimestamp s = some t) :
    t.nanos = s * nanosPerSecond := by
  rw [fromUnixTimestamp, fromUnixTimestampNanos] at h
  split at h
  · cases h
    rfl
  · cases h

theorem saturatingSub_le {t : OffsetDateTime} {d : ℤ} (hd : 0 ≤ d) : t.saturatingSub d ≤ t := by
  have hl := t.lower
  rw [le_iff]
  simp only [saturatingSub]
  omega

theorem le_saturatingSub_nanos {t : OffsetDateTime} {d : ℤ} (hd : 0 ≤ d) :
    t.nanos - d ≤ (t.saturatingSub d).nanos := by
  have hu := t.upper
  simp only [saturatingSub]
  omega

theorem saturatingSub_mono {a b : OffsetDateTime} {d : ℤ} (h : a ≤ b) :
    a.saturatingSub d ≤ b.saturatingSub d := by
  rw [le_iff] at h ⊢
  simp only [saturatingSub]
  omega

end OffsetDateTime
end PlaidRuntime.UtcInstant
