import PlaidRuntime.GeneratorBoot

/-!
# The look-back window of a boot

The timestamp a boot restores, and the window the first round after it asks for, over the full
signed range of instants. The casts to unsigned seconds are compared with the numbers they stand
for.
-/
namespace PlaidRuntime.LookBack
open EffectProgram Prog MachineWord MessageCodec JsonStrings
open UtcInstant OffsetDateTime DataGenerator GeneratorDelivery GeneratorWindow GeneratorBoot

/-- A restored timestamp is the stored one when it is recent enough, and else the end of the
look-back window. -/
def Restored (dg : Config) (stored now restored : OffsetDateTime) : Prop :=
  restored.nanos =
    if now.nanos - stored.nanos ≤ dg.maxCatchup * nanosPerSecond then stored.nanos
    else now.nanos - dg.maxCatchup * nanosPerSecond

/-- No cast and no sum changes its number, from the age of the stored timestamp at `now` to the end
of the window that is asked for when the clock shows `later`. -/
structure Unwrapped (dg : Config) (stored now restored later : OffsetDateTime) : Prop where
  age : (asU64 (wholeSeconds (now.nanos - stored.nanos)) : ℤ) =
    wholeSeconds (now.nanos - stored.nanos)
  maxCatchup : asI64 dg.maxCatchup = dg.maxCatchup
  canon : (subU64 (asU64 later.unixTimestamp) dg.canonTime : ℤ) = later.unixTimestamp - dg.canonTime
  since : (asU64 (restored.saturatingSub second).unixTimestamp : ℤ) =
    (restored.saturatingSub second).unixTimestamp
  sum : (addU64 (asU64 (restored.saturatingSub second).unixTimestamp) dg.maxSinceUntil : ℤ) =
    (restored.saturatingSub second).unixTimestamp + dg.maxSinceUntil
  untilTime : asI64 (windowEnd dg (restored.saturatingSub second) (asU64 later.unixTimestamp)) =
    windowEnd dg (restored.saturatingSub second) (asU64 later.unixTimestamp)

/-- The stored timestamp is less than a second ahead; its age is not within the second after the
limit; what is restored is at least a second after the epoch; and the clock has passed the
canonicalization time. -/
structure Regular (dg : Config) (stored now later : OffsetDateTime) : Prop where
  notAhead : stored.nanos < now.nanos + nanosPerSecond
  notOnEdge : now.nanos - stored.nanos ≤ dg.maxCatchup * nanosPerSecond ∨
    (dg.maxCatchup + 1) * nanosPerSecond ≤ now.nanos - stored.nanos
  afterEpoch : nanosPerSecond ≤ max stored.nanos (now.nanos - dg.maxCatchup * nanosPerSecond)
  canon : (dg.canonTime : ℤ) ≤ later.unixTimestamp

section seconds
variable {t : OffsetDateTime}

theorem nanosPerSecond_eq : nanosPerSecond = 1000000000 := rfl

theorem unixTimestamp_lt (t : OffsetDateTime) : t.unixTimestamp < 2 ^ 38 := by
  have hup := t.upper
  have hmax : maxNanos < 2 ^ 38 * nanosPerSecond := by decide
  have hlt : t.nanos < 2 ^ 38 * nanosPerSecond := lt_of_le_of_lt hup hmax
  exact Int.ediv_lt_of_lt_mul (by decide) hlt

theorem unixTimestamp_nonneg_iff : 0 ≤ t.unixTimestamp ↔ 0 ≤ t.nanos := by
  simp only [unixTimestamp, nanosPerSecond_eq]
  omega

theorem asU64_nonneg_iff {x : ℤ} (h : x < 2 ^ 64) : (asU64 x : ℤ) = x ↔ 0 ≤ x := by
  constructor
  · intro heq
    omega
  · exact fun h0 => asU64_of_nonneg h0 h

theorem subU64_exact_iff {a b : ℕ} (ha : a < 2 ^ 63) : (subU64 a b : ℤ) = a - b ↔ b ≤ a := by
  constructor
  · intro h
    omega
  · intro h
    rw [subU64_of_le h (by omega)]
    omega

/-- The seconds of a duration are rounded towards zero. -/
theorem wholeSeconds_spec (d : ℤ) :
    (0 ≤ d → 0 ≤ wholeSeconds d ∧ wholeSeconds d * nanosPerSecond ≤ d ∧
      d < (wholeSeconds d + 1) * nanosPerSecond) ∧
    (d < 0 → wholeSeconds d ≤ 0 ∧ d ≤ wholeSeconds d * nanosPerSecond ∧
      (wholeSeconds d - 1) * nanosPerSecond < d) := by
  simp only [wholeSeconds, Int.tdiv_eq_ediv, nanosPerSecond_eq]
  constructor
  · intro h
    rw [if_pos (Or.inl h)]
    omega
  · intro h
    have hsign : Int.sign 1000000000 = 1 := rfl
    split_ifs with hdvd
    · omega
    · omega

theorem wholeSeconds_nonneg_iff {d : ℤ} : 0 ≤ wholeSeconds d ↔ -nanosPerSecond < d := by
  obtain ⟨hpos, hneg⟩ := wholeSeconds_spec d
  simp only [nanosPerSecond_eq] at hpos hneg ⊢
  omega

theorem wholeSeconds_le_iff {d : ℤ} {m : ℕ} : wholeSeconds d ≤ m ↔ d < (m + 1) * nanosPerSecond := by
  obtain ⟨hpos, hneg⟩ := wholeSeconds_spec d
  simp only [nanosPerSecond_eq] at hpos hneg ⊢
  omega

theorem wholeSeconds_lt (a b : OffsetDateTime) : wholeSeconds (a.nanos - b.nanos) < 2 ^ 63 := by
  have hup := a.upper
  have hlow := b.lower
  have hspan : maxNanos - minNanos < 2 ^ 63 * 1000000000 := by decide
  obtain ⟨hpos, hneg⟩ := wholeSeconds_spec (a.nanos - b.nanos)
  simp only [nanosPerSecond_eq] at hpos hneg
  omega

theorem since_nonneg_iff : 0 ≤ (t.saturatingSub second).unixTimestamp ↔ nanosPerSecond ≤ t.nanos := by
  have hup := t.upper
  have hmin : minNanos < 0 := by decide
  rw [unixTimestamp_nonneg_iff]
  simp only [saturatingSub, second, nanosPerSecond_eq]
  omega

end seconds

section restored
variable {dg : Config} {stored now later : OffsetDateTime}

theorem capLastSeen_nanos (hage : 0 ≤ wholeSeconds (now.nanos - stored.nanos)) :
    (capLastSeen dg stored now).nanos =
      if now.nanos - stored.nanos < (dg.maxCatchup + 1) * nanosPerSecond then stored.nanos
      else now.nanos - dg.maxCatchup * nanosPerSecond := by
  have hlow := stored.lower
  have hup := now.upper
  have hcast := asU64_of_nonneg hage (by have := wholeSeconds_lt now stored; omega)
  have hwhole := @wholeSeconds_le_iff (now.nanos - stored.nanos) dg.maxCatchup
  unfold capLastSeen
  by_cases hmore : dg.maxCatchup < asU64 (wholeSeconds (now.nanos - stored.nanos))
  · have hlong : ¬ now.nanos - stored.nanos < (dg.maxCatchup + 1) * nanosPerSecond := by omega
    rw [if_pos hmore, if_neg hlong]
    simp only [saturatingSub, asI64_of_lt dg.maxCatchup_lt, nanosPerSecond_eq] at hlong ⊢
    omega
  · have hshort : now.nanos - stored.nanos < (dg.maxCatchup + 1) * nanosPerSecond := by omega
    rw [if_neg hmore, if_pos hshort]

/-- Where the age is not negative, the right timestamp is restored outside the second that
follows the limit. -/
theorem restored_capLastSeen_iff (hage : 0 ≤ wholeSeconds (now.nanos - stored.nanos)) :
    Restored dg stored now (capLastSeen dg stored now) ↔
      now.nanos - stored.nanos ≤ dg.maxCatchup * nanosPerSecond ∨
        (dg.maxCatchup + 1) * nanosPerSecond ≤ now.nanos - stored.nanos := by
  rw [Restored, capLastSeen_nanos hage]
  simp only [nanosPerSecond_eq]
  split_ifs <;> omega

/-- A restored timestamp is the later one of the stored one and the end of the window. -/
theorem restored_nanos {restored : OffsetDateTime} (h : Restored dg stored now restored) :
    restored.nanos = max stored.nanos (now.nanos - dg.maxCatchup * nanosPerSecond) := by
  rw [Restored] at h
  split_ifs at h <;> omega

theorem unwrapped_iff {restored : OffsetDateTime} (hlater : 0 ≤ later.nanos) :
    Unwrapped dg stored now restored later ↔
      0 ≤ wholeSeconds (now.nanos - stored.nanos) ∧ nanosPerSecond ≤ restored.nanos ∧
        (dg.canonTime : ℤ) ≤ later.unixTimestamp := by
  have hclock := unixTimestamp_lt later
  have hclock' : (asU64 later.unixTimestamp : ℤ) = later.unixTimestamp :=
    asU64_of_nonneg (unixTimestamp_nonneg_iff.mpr hlater) (by omega)
  have hage : wholeSeconds (now.nanos - stored.nanos) < 2 ^ 64 := by
    have := wholeSeconds_lt now stored
    omega
  have hsince := unixTimestamp_lt (restored.saturatingSub second)
  have hsub : (subU64 (asU64 later.unixTimestamp) dg.canonTime : ℤ) =
      later.unixTimestamp - dg.canonTime ↔ (dg.canonTime : ℤ) ≤ later.unixTimestamp := by
    have h := @subU64_exact_iff (asU64 later.unixTimestamp) dg.canonTime (by omega)
    rw [hclock'] at h
    rw [h]
    omega
  constructor
  · intro h
    exact ⟨(asU64_nonneg_iff hage).mp h.age,
      since_nonneg_iff.mp ((asU64_nonneg_iff (by omega)).mp h.since), hsub.mp h.canon⟩
  · intro h
    obtain ⟨hpos, hepoch, hcanon⟩ := h
    have hs := asU64_of_nonneg (since_nonneg_iff.mpr hepoch) (by omega)
    have hmax := dg.maxSinceUntil_lt
    have hsum : addU64 (asU64 (restored.saturatingSub second).unixTimestamp) dg.maxSinceUntil =
        asU64 (restored.saturatingSub second).unixTimestamp + dg.maxSinceUntil :=
      addU64_of_lt (by omega)
    have hcanon' := hsub.mpr hcanon
    constructor
    case age => exact asU64_of_nonneg hpos hage
    case maxCatchup => exact asI64_of_lt dg.maxCatchup_lt
    case canon => exact hcanon'
    case since => exact hs
    case sum => rw [hsum, Nat.cast_add, hs]
    case untilTime =>
      apply asI64_of_lt
      have hle : windowEnd dg (restored.saturatingSub second) (asU64 later.unixTimestamp) ≤
          subU64 (asU64 later.unixTimestamp) dg.canonTime := min_le_left _ _
      omega

/-- A boot that finds its state restores the right timestamp, and goes on from it without wrapping
around, exactly in the regular case. -/
theorem boot_looks_back_iff {text : JsonText} {w w' : World} {ids : List String}
    {booted : OffsetDateTime} {rest : List Choice} (hlast : storedLastSeen w = some stored)
    (huuids : storedUuids text w = some ids) (hlater : 0 ≤ later.nanos)
    (h : (updateDgFromStorage text dg true).replay reply (w.boot dg booted)
      (.ok :: .ok :: .instant now :: rest) = some ((), w')) :
    Restored dg stored now w'.lastSeen ∧ Unwrapped dg stored now w'.lastSeen later ↔
      Regular dg stored now later := by
  have hcap : w'.lastSeen = capLastSeen dg stored now := by rw [replay_boot hlast huuids h]
  rw [hcap, unwrapped_iff hlater]
  constructor
  · intro hboth
    obtain ⟨hrestored, hage, hepoch, hcanon⟩ := hboth
    constructor
    case notAhead =>
      have hage' := wholeSeconds_nonneg_iff.mp hage
      omega
    case notOnEdge => exact (restored_capLastSeen_iff hage).mp hrestored
    case afterEpoch => rwa [← restored_nanos hrestored]
    case canon => exact hcanon
  · intro hregular
    have hage := wholeSeconds_nonneg_iff.mpr
      (show -nanosPerSecond < now.nanos - stored.nanos by have := hregular.notAhead; omega)
    have hrestored := (restored_capLastSeen_iff hage).mpr hregular.notOnEdge
    refine ⟨hrestored, hage, ?_, hregular.canon⟩
    rw [restored_nanos hrestored]
    exact hregular.afterEpoch

end restored

section instances

/-- A stored state whose last timestamp is at the given millisecond. -/
def storedAt (ms : Fin 10000000) : World := { bootedWorld with lastSeen := instant ms }

/-- A state stored at 1010 s is taken up at 1035 s. -/
theorem recent_state_restored :
    Restored resumedConfig (instant 1010000) (instant 1035000)
        (rebooted (storedAt 1010000) (instant 1035000)).lastSeen ∧
      Unwrapped resumedConfig (instant 1010000) (instant 1035000)
        (rebooted (storedAt 1010000) (instant 1035000)).lastSeen (instant 1040000) := by
  apply (@boot_looks_back_iff resumedConfig (instant 1010000) (instant 1035000) (instant 1040000)
    stringsText (persisted stringsText (storedAt 1010000))
    (rebooted (storedAt 1010000) (instant 1035000)) _ (instant 1034000) _ persisted_lastSeen
    (persisted_uuids (stringsText_roundTrips _)) (by decide)
    (reboots (storedAt 1010000) (instant 1034000) (instant 1035000))).mpr
  exact ⟨by decide, by decide, by decide, by decide⟩

/-- A timestamp stored by an instance whose clock is ahead is moved back. -/
theorem future_state_moved_back :
    ¬ ∀ (dg : Config) (w w' : World) (stored now booted : OffsetDateTime) (ids : List String)
      (rest : List Choice), storedLastSeen w = some stored → storedUuids stringsText w = some ids →
      (updateDgFromStorage stringsText dg true).replay reply (w.boot dg booted)
        (.ok :: .ok :: .instant now :: rest) = some ((), w') →
      Restored dg stored now w'.lastSeen := by
  intro h
  have hrestored := h resumedConfig (persisted stringsText (storedAt 1100000))
    (rebooted (storedAt 1100000) (instant 1035000)) (instant 1100000) (instant 1035000)
    (instant 1034000) _ _ persisted_lastSeen (persisted_uuids (stringsText_roundTrips _))
    (reboots (storedAt 1100000) (instant 1034000) (instant 1035000))
  have hmoved : (rebooted (storedAt 1100000) (instant 1035000)).lastSeen.nanos < 1100000000000 := by
    decide
  rw [Restored, if_pos (by decide)] at hrestored
  have hstored : (instant 1100000).nanos = 1100000000000 := by decide
  omega

end instances
end PlaidRuntime.LookBack
