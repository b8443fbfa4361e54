import PlaidRuntime.GeneratorDelivery

/-!
# Completeness of a call

A window ends `max_since_until` seconds after its start, and it only moves when a log is
sent. So a call leaves nothing behind exactly when the logs themselves lead it on: every one
lies in a window that starts at the last timestamp seen or at an earlier log.
-/
namespace PlaidRuntime.GeneratorWindow
open StepMachine EffectProgram Prog MachineWord RecencyCache UtcInstant MessageCodec JsonStrings
open DataGenerator GeneratorDelivery OffsetDateTime

/-- A call of `get_and_process_dg_logs` that comes to an end. -/
inductive Call (text : JsonText) (dg : Config) (storage : Bool) (handle : Handler Request Reply World) :
    World → Exit → World → Prop
  | exit {w t : World} {r : Exit}
      (round : Exec handle (getAndProcessDgLogs text dg storage) w (some r) t) :
      Call text dg storage handle w r t
  | again {w t u : World} {r : Exit}
      (round : Exec handle (getAndProcessDgLogs text dg storage) w none t)
      (rest : Call text dg storage handle t r u) : Call text dg storage handle w r u

/-- Fetches fail, or return the logs of the interval in ascending order. -/
def Fetching (src : Source) (_ : World) : Request → Choice → Prop
  | .fetchLogs since untilTime, .logs ls => Ascending ls ∧ Exact src.logs since untilTime ls
  | _, _ => True

section window
variable (dg : Config)

/-- The end of the window that starts at `a`, in nanoseconds. -/
def reach (a : OffsetDateTime) : ℤ :=
  ((a.saturatingSub second).unixTimestamp + dg.maxSinceUntil) * nanosPerSecond

/-- Up to here the source is taken to be stable. -/
def horizon (clock : ℕ) : ℤ := ((clock : ℤ) - dg.canonTime) * nanosPerSecond

variable {dg}

theorem windowEnd_eq {since : OffsetDateTime} (h : 0 ≤ since.nanos) (n : ℕ) :
    (windowEnd dg since n : ℤ) =
      min (subU64 n dg.canonTime : ℤ) (since.unixTimestamp + dg.maxSinceUntil) := by
  have h0 : 0 ≤ since.unixTimestamp := Int.ediv_nonneg h (by decide)
  have hmax : since.unixTimestamp ≤ 253402300800 := by
    have hu := Int.ediv_le_ediv (c := nanosPerSecond) (by decide) since.upper
    exact hu.trans (by decide)
  have hcast : (asU64 since.unixTimestamp : ℤ) = since.unixTimestamp :=
    asU64_of_nonneg h0 (by omega)
  have hlimit := dg.maxSinceUntil_lt
  have hadd : addU64 (asU64 since.unixTimestamp) dg.maxSinceUntil =
      asU64 since.unixTimestamp + dg.maxSinceUntil := addU64_of_lt (by omega)
  rw [windowEnd, hadd]
  push_cast
  rw [hcast]

/-- A window that can be expressed ends where its bounds say. -/
theorem untilTime_nanos {w : World} {n : ℕ} {u : OffsetDateTime} (h0 : 0 ≤ w.since.nanos)
    (hu : w.untilTime dg n = some u) :
    u.nanos = min ((subU64 n dg.canonTime : ℤ) * nanosPerSecond) (reach dg w.lastSeen) := by
  have hend := @windowEnd_eq dg w.since h0 n
  have hnanos := nanos_of_fromUnixTimestamp hu
  have hlow := u.lower
  have hmax : w.since.unixTimestamp ≤ 253402300800 := by
    have hup := Int.ediv_le_ediv (c := nanosPerSecond) (by decide) w.since.upper
    exact hup.trans (by decide)
  have hlimit := dg.maxSinceUntil_lt
  -- a number that turns negative as `i64` is far below every date
  have hsmall : windowEnd dg w.since n < 2 ^ 63 := by
    by_contra hbig
    have hlt : windowEnd dg w.since n < 2 ^ 64 := by omega
    have hcast : asI64 (windowEnd dg w.since n) = (windowEnd dg w.since n : ℤ) - 2 ^ 64 := by
      rw [asI64, Nat.mod_eq_of_lt hlt, if_neg hbig]
    rw [hnanos, hcast] at hlow
    have hbound : (windowEnd dg w.since n : ℤ) - 2 ^ 64 ≤ -9000000000000000000 := by omega
    have hmul := mul_le_mul_of_nonneg_right hbound (show (0 : ℤ) ≤ nanosPerSecond by decide)
    have hmin : -9000000000000000000 * nanosPerSecond < minNanos := by decide
    omega
  rw [hnanos, asI64_of_lt hsmall, hend, min_mul_of_nonneg _ _ (by decide)]
  rfl

end window

section reached
variable (src : Source) (dg : Config) (w : World)

/-- The values that the last timestamp seen can take when it is led on by the logs. An id in the
cache may have been restored at boot, and its log leads nowhere. -/
inductive Reached : OffsetDateTime → Prop
  | start : Reached w.lastSeen
  | next {a : OffsetDateTime} {y : DataGeneratorLog} (from_ : Reached a) (hy : y ∈ src.logs)
      (uncached : y.id ∉ w.seen.entries) (later : a < y.timestamp)
      (within : y.timestamp.nanos ≤ reach dg a) : Reached y.timestamp

/-- The log lies in a window that the logs before it lead to. -/
def Led (x : DataGeneratorLog) : Prop :=
  ∃ a, Reached src dg w a ∧ a ≤ x.timestamp ∧ x.timestamp.nanos ≤ reach dg a

/-- The ids remembered are those of logs that were sent, and the last timestamp seen is not in the
first second of the epoch. -/
structure Sound : Prop where
  cached : ∀ x ∈ src.logs, x.id ∈ w.seen.entries → x ∈ w.sent
  epoch : second ≤ w.lastSeen.nanos

/-- No id is remembered of a log newer than the last timestamp seen. -/
def NoneAhead : Prop := ∀ x ∈ src.logs, x.id ∈ w.seen.entries → x.timestamp ≤ w.lastSeen

variable {src dg w} {t : World}

theorem Sound.since_nonneg (h : Sound src w) : 0 ≤ w.since.nanos := by
  have hs := @le_saturatingSub_nanos w.lastSeen second (by decide)
  have he := h.epoch
  change w.lastSeen.nanos - second ≤ w.since.nanos at hs
  omega

theorem Sound.note (h : Sound src w) {log : DataGeneratorLog} (hlog : log ∈ src.logs) :
    Sound src (w.note log) where
  cached x hx hseen := by
    rcases mem_put hseen with hid | hseen
    · rw [src.unique x hx log hlog hid]
      exact List.mem_cons_self
    · exact List.mem_cons_of_mem log (h.cached x hx hseen)
  epoch := h.epoch.trans (le_iff.mp (le_max_left w.lastSeen log.timestamp))

theorem NoneAhead.note (h : NoneAhead src w) {log : DataGeneratorLog} (hlog : log ∈ src.logs) :
    NoneAhead src (w.note log) := by
  intro x hx hseen
  rcases mem_put hseen with hid | hseen
  · rw [src.unique x hx log hlog hid]
    exact le_max_right _ _
  · exact (h x hx hseen).trans (le_max_left _ _)

theorem Sound.clock (h : Sound src w) (n : ℕ) : Sound src { w with clock := n } :=
  ⟨h.cached, h.epoch⟩

theorem Sound.store (h : Sound src w) (store : StorageProvider.Content) :
    Sound src { w with store := store } :=
  ⟨h.cached, h.epoch⟩

end reached

section progress
variable (src : Source) (dg : Config) (w : World)

/-- How far a call that began in `w` has come between two rounds. -/
structure Progress (t : World) : Prop where
  sound : Sound src t
  grows : ∀ x ∈ w.sent, x ∈ t.sent
  onward : w.lastSeen ≤ t.lastSeen
  cached : ∀ x ∈ src.logs, x.id ∈ t.seen.entries → x.id ∈ w.seen.entries ∨ x.timestamp ≤ t.lastSeen
  behind : ∀ x ∈ src.logs, w.lastSeen ≤ x.timestamp → x.timestamp < t.lastSeen → x ∈ t.sent
  reached : NoneAhead src w → Reached src dg w t.lastSeen
  led : NoneAhead src w → ∀ x ∈ t.sent, x ∉ w.sent → w.lastSeen ≤ x.timestamp → Led src dg w x

/-- Within the round that began in `t`, after the window up to `u` has been fetched. -/
structure Sweep (t : World) (u : OffsetDateTime) (c : ℕ) (rest : List DataGeneratorLog) (v : World) :
    Prop where
  sound : Sound src v
  grows : ∀ x ∈ t.sent, x ∈ v.sent
  start : t.lastSeen ≤ v.lastSeen
  within : v.lastSeen ≤ u
  cached : ∀ x ∈ src.logs, x.id ∈ v.seen.entries → x.id ∈ w.seen.entries ∨ x.timestamp ≤ v.lastSeen
  reached : NoneAhead src w → Reached src dg w v.lastSeen
  window : ∀ x ∈ rest, x ∈ src.logs ∧ t.since ≤ x.timestamp ∧ x.timestamp ≤ u
  swept : ∀ x ∈ src.logs, t.since ≤ x.timestamp → x.timestamp ≤ u → x ∈ v.sent ∨ x ∈ rest
  led : NoneAhead src w → ∀ x ∈ v.sent, x ∉ w.sent → w.lastSeen ≤ x.timestamp → Led src dg w x
  idle : c = 0 → v = t ∧ ∀ x ∈ src.logs, t.since ≤ x.timestamp → x.timestamp ≤ u →
    x.id ∈ t.seen.entries ∨ x ∈ rest

/-- The last window held nothing new. -/
def Quiet (t : World) : Prop :=
  ∀ x ∈ src.logs, t.lastSeen ≤ x.timestamp → x.timestamp.nanos ≤ reach dg t.lastSeen →
    x.timestamp.nanos ≤ horizon dg t.clock → x.id ∈ t.seen.entries

variable {src dg w} {t v : World} {u : OffsetDateTime} {c : ℕ} {log : DataGeneratorLog}
  {rest : List DataGeneratorLog}

theorem Sound.progress (h : Sound src w) : Progress src dg w w where
  sound := h
  grows _ hx := hx
  onward := le_refl _
  cached _ _ hseen := .inl hseen
  behind _ _ hle hlt := absurd hlt (not_lt.mpr hle)
  reached _ := .start
  led _ _ hx hx' := absurd hx hx'

theorem Progress.sweep (h : Progress src dg w t) {ls : List DataGeneratorLog}
    (hexact : Exact src.logs t.since u ls) (hle : t.lastSeen ≤ u) : Sweep src dg w t u 0 ls t where
  sound := h.sound
  grows _ hx := hx
  start := le_refl _
  within := hle
  cached := h.cached
  reached := h.reached
  window x hx := (hexact x).mp hx
  swept x hx hs hu := .inr ((hexact x).mpr ⟨hx, hs, hu⟩)
  led := h.led
  idle _ := ⟨rfl, fun x hx hs hu => .inr ((hexact x).mpr ⟨hx, hs, hu⟩)⟩

theorem Sweep.skip (h : Sweep src dg w t u c (log :: rest) v) (hseen : log.id ∈ v.seen.entries) :
    Sweep src dg w t u c rest v := by
  refine { h with window := ?_, swept := ?_, idle := ?_ }
  · exact fun x hx => h.window x (List.mem_cons_of_mem log hx)
  · intro x hx hs hu
    rcases h.swept x hx hs hu with hx' | hx'
    · exact .inl hx'
    · rcases List.mem_cons.mp hx' with rfl | hx'
      · exact .inl (h.sound.cached x hx hseen)
      · exact .inr hx'
  · intro hc
    obtain ⟨rfl, hidle⟩ := h.idle hc
    refine ⟨rfl, fun x hx hs hu => ?_⟩
    rcases hidle x hx hs hu with hx' | hx'
    · exact .inl hx'
    · rcases List.mem_cons.mp hx' with rfl | hx'
      · exact .inl hseen
      · exact .inr hx'

theorem Sweep.note (hp : Progress src dg w t) (hreach : u.nanos ≤ reach dg t.lastSeen)
    (h : Sweep src dg w t u c (log :: rest) v) : Sweep src dg w t u (c + 1) rest (v.note log) := by
  obtain ⟨hlog, hsince, hu⟩ := h.window log List.mem_cons_self
  constructor
  · exact h.sound.note hlog
  · exact fun x hx => List.mem_cons_of_mem log (h.grows x hx)
  · exact h.start.trans (le_max_left _ _)
  · exact max_le h.within hu
  · intro x hx hseen
    rcases mem_put hseen with hid | hseen
    · rw [src.unique x hx log hlog hid]
      exact .inr (le_max_right _ _)
    · exact (h.cached x hx hseen).imp_right fun hle => hle.trans (le_max_left _ _)
  · intro hnone
    change Reached src dg w (max v.lastSeen log.timestamp)
    rcases le_or_gt log.timestamp v.lastSeen with hle | hlt
    · rw [max_eq_left hle]
      exact h.reached hnone
    · rw [max_eq_right hlt.le]
      -- a log newer than all that was seen before the call was not in its cache
      have huncached : log.id ∉ w.seen.entries := fun hcached =>
        absurd ((hnone log hlog hcached).trans (hp.onward.trans h.start)) (not_le.mpr hlt)
      exact .next (hp.reached hnone) hlog huncached (h.start.trans_lt hlt) (le_trans hu hreach)
  · exact fun x hx => h.window x (List.mem_cons_of_mem log hx)
  · intro x hx hs hu'
    rcases h.swept x hx hs hu' with hx' | hx'
    · exact .inl (List.mem_cons_of_mem log hx')
    · rcases List.mem_cons.mp hx' with rfl | hx'
      · exact .inl List.mem_cons_self
      · exact .inr hx'
  · intro hnone x hx hnew hle
    rcases List.mem_cons.mp hx with rfl | hx
    · -- sent again, or sent for the first time and so not behind the last timestamp
      rcases le_or_gt t.lastSeen x.timestamp with hge | hlt
      · exact ⟨t.lastSeen, hp.reached hnone, hge, le_trans hu hreach⟩
      · exact hp.led hnone x (hp.behind x hlog hle hlt) hnew hle
    · exact h.led hnone x hx hnew hle
  · intro hc
    cases hc

theorem Sweep.progress (hp : Progress src dg w t) (h : Sweep src dg w t u c [] v) :
    Progress src dg w v where
  sound := h.sound
  grows x hx := h.grows x (hp.grows x hx)
  onward := hp.onward.trans h.start
  cached := h.cached
  reached := h.reached
  behind x hx hle hlt := by
    rcases le_or_gt t.since x.timestamp with hs | hs
    · rcases h.swept x hx hs (hlt.le.trans h.within) with hx' | hx'
      · exact hx'
      · cases hx'
    · have hback : t.since ≤ t.lastSeen := saturatingSub_le (by decide)
      exact h.grows x (hp.behind x hx hle (hs.trans_le hback))
  led := h.led

theorem Progress.clock (h : Progress src dg w t) (n : ℕ) :
    Progress src dg w { t with clock := n } :=
  ⟨h.sound.clock n, h.grows, h.onward, h.cached, h.behind, h.reached, h.led⟩

theorem Progress.store (h : Progress src dg w t) (store : StorageProvider.Content) :
    Progress src dg w { t with store := store } :=
  ⟨h.sound.store store, h.grows, h.onward, h.cached, h.behind, h.reached, h.led⟩

end progress

section round
variable {src : Source} {dg : Config} {text : JsonText} {storage : Bool} {w t : World}

/-- Nothing between the last timestamp and the two limits is left out of the window. -/
theorem le_untilTime (h : Sound src t) {n : ℕ} (hn : n < 2 ^ 64) {u x : OffsetDateTime}
    (hu : t.untilTime dg n = some u) (hle : t.lastSeen ≤ x) (hreach : x.nanos ≤ reach dg t.lastSeen)
    (hhorizon : x.nanos ≤ horizon dg n) : x ≤ u := by
  have hpos : 0 < x.nanos := by
    have he := h.epoch
    have hx := le_iff.mp hle
    have hsec : 0 < second := by decide
    omega
  have hcanon : dg.canonTime ≤ n := by
    by_contra hlt
    have hneg : ((n : ℤ) - dg.canonTime) * nanosPerSecond ≤ 0 :=
      mul_nonpos_of_nonpos_of_nonneg (by omega) (by decide)
    rw [horizon] at hhorizon
    omega
  have hsub : ((subU64 n dg.canonTime : ℕ) : ℤ) = (n : ℤ) - dg.canonTime := by
    rw [subU64_of_le hcanon hn]
    omega
  rw [le_iff, untilTime_nanos h.since_nonneg hu, hsub]
  exact le_min hhorizon hreach

theorem untilTime_reach (h : Sound src t) {n : ℕ} {u : OffsetDateTime}
    (hu : t.untilTime dg n = some u) : u.nanos ≤ reach dg t.lastSeen := by
  rw [untilTime_nanos h.since_nonneg hu]
  exact min_le_right _ _

/-- What a round that began in the middle of the call ends with. -/
def Outcome (src : Source) (dg : Config) (w : World) (r : Option Exit) (t : World) : Prop :=
  (r = none → Progress src dg w t) ∧
    (r = some (.ok ()) → Progress src dg w t ∧ Quiet src dg t)

theorem outcome_error (src : Source) (dg : Config) (w t : World) :
    Outcome src dg w (some (.error ())) t := by
  constructor <;> intro h <;> cases h

theorem outcome_quiet (h : Progress src dg w t) (hq : Quiet src dg t) :
    Outcome src dg w (some (.ok ())) t := by
  constructor
  · intro hr
    cases hr
  · exact fun _ => ⟨h, hq⟩

theorem outcome_again (h : Progress src dg w t) : Outcome src dg w none t := by
  constructor
  · exact fun _ => h
  · intro hr
    cases hr

theorem sweep_loop (hp : Progress src dg w t) {u : OffsetDateTime}
    (hreach : u.nanos ≤ reach dg t.lastSeen) :
    LoopInvariant (fun _ _ => True) (Sweep src dg w t u) where
  skip h hseen := h.skip hseen
  note h _ := h.note hp hreach
  looking _ := trivial
  sending _ _ := trivial
  marking _ _ _ _ := ⟨trivial, trivial⟩

theorem storeState_progress {A : World → Request → Choice → Prop} (h : Progress src dg w t) :
    (storeState text).Guards (answers A) (fun _ _ => True) (fun _ => Outcome src dg w none) t := by
  have hkept : (storeState text).Guards (answers A) (fun _ _ => True)
      (fun _ => Progress src dg w) t := by
    refine guards_storeState ?_ ?_ ?_ h
    · exact fun _ _ _ => trivial
    · exact fun _ hu => hu.store _
    · exact fun _ hu => hu.store _
  exact hkept.mono fun _ _ hu => outcome_again hu

theorem round_outcome (h : Progress src dg w t) :
    (getAndProcessDgLogs text dg storage).Guards (answers (Fetching src)) (fun _ _ => True)
      (Outcome src dg w) t := by
  refine @guards_getAndProcessDgLogs _ _ t text dg storage _ (Progress src dg w) trivial trivial
    (fun n _ _ => outcome_error _ _ _ _) (fun _ _ => trivial) (fun n hn u hu hlt => ?_)
    (fun _ _ _ => trivial) (fun n _ => outcome_error _ _ _ _) (fun n hn u hu hle ls hls => ?_)
    (fun _ _ ht => outcome_again ht) (fun _ _ ht => storeState_progress ht)
  · refine outcome_quiet (h.clock n) fun x hx hge hreach hhorizon => ?_
    have hxu := le_untilTime h.sound hn hu hge hreach hhorizon
    exact absurd (hge.trans hxu) (not_le.mpr hlt)
  · have hsweep := (h.clock n).sweep hls.2 hle
    constructor
    · rintro rfl
      refine outcome_quiet (h.clock n) fun x hx hge hreach hhorizon => ?_
      have hxu := le_untilTime h.sound hn hu hge hreach hhorizon
      have hsince : t.since ≤ x.timestamp := (saturatingSub_le (by decide)).trans hge
      have hmem := (hls.2 x).mpr ⟨hx, hsince, hxu⟩
      cases hmem
    · have hloop := sweep_loop (h.clock n) (untilTime_reach h.sound hu)
      refine guards_processLogs hloop (fun c v hv => ?_) (fun c log logs v _ _ _ => ?_) hsweep
      · refine ⟨fun _ => outcome_error _ _ _ _, fun hc => ?_, fun _ _ => hv.progress (h.clock n)⟩
        cases hc
        obtain ⟨rfl, hidle⟩ := hv.idle rfl
        refine outcome_quiet (h.clock n) fun x hx hge hreach hhorizon => ?_
        have hxu := le_untilTime h.sound hn hu hge hreach hhorizon
        have hsince : t.since ≤ x.timestamp := (saturatingSub_le (by decide)).trans hge
        rcases hidle x hx hsince hxu with hx' | hx'
        · exact hx'
        · cases hx'
      · refine ⟨fun _ => outcome_error _ _ _ _, fun hc => ?_, fun _ hc => ?_⟩ <;> cases hc

theorem Call.progress {r : Exit} {u : World}
    (hcall : Call text dg storage (answers (Fetching src)) t r u) (h : Progress src dg w t)
    (hr : r = .ok ()) : Progress src dg w u ∧ Quiet src dg u := by
  induction hcall with
  | exit round =>
    subst hr
    exact ((round_outcome h).post round).2 rfl
  | again round rest ih =>
    exact ih (((round_outcome h).post round).1 rfl) hr

end round

section complete
variable (src : Source) (dg : Config)

end complete

section sound
variable {src : Source} {dg : Config} {text : JsonText} {storage : Bool} {w : World}

theorem sound_loop : LoopInvariant (fun _ _ => True) fun _ rest w =>
    (Sound src w ∧ NoneAhead src w) ∧ ∀ x ∈ rest, x ∈ src.logs where
  skip h _ := ⟨h.1, fun x hx => h.2 x (List.mem_cons_of_mem _ hx)⟩
  note h _ := by
    have hlog := h.2 _ List.mem_cons_self
    exact ⟨⟨h.1.1.note hlog, h.1.2.note hlog⟩, fun x hx => h.2 x (List.mem_cons_of_mem _ hx)⟩
  looking _ := trivial
  sending _ _ := trivial
  marking _ _ _ _ := ⟨trivial, trivial⟩

theorem round_sound (h : Sound src w ∧ NoneAhead src w) :
    (getAndProcessDgLogs text dg storage).Guards (answers (Fetching src)) (fun _ _ => True)
      (fun _ w => Sound src w ∧ NoneAhead src w) w := by
  have hclock : ∀ n, Sound src { w with clock := n } ∧ NoneAhead src { w with clock := n } :=
    fun n => ⟨h.1.clock n, h.2⟩
  refine @guards_getAndProcessDgLogs _ _ w text dg storage _
    (fun w => Sound src w ∧ NoneAhead src w) trivial trivial
    (fun n _ _ => hclock n) (fun _ _ => trivial) (fun n _ _ _ _ => hclock n)
    (fun _ _ _ => trivial) (fun n _ => hclock n) (fun n _ u _ _ ls hls => ?_) (fun _ _ ht => ht)
    (fun _ t ht => ?_)
  · refine ⟨fun _ => hclock n, ?_⟩
    have hwindow : ∀ x ∈ ls, x ∈ src.logs := fun x hx => ((hls.2 x).mp hx).1
    refine guards_processLogs sound_loop (fun c v hv => ?_) (fun c log logs v hv _ _ => ?_)
      ⟨hclock n, hwindow⟩
    · exact ⟨fun _ => hv.1, fun _ => hv.1, fun _ _ => hv.1⟩
    · exact ⟨fun _ => hv.1, fun _ => hv.1, fun _ _ => hv.1⟩
  · refine guards_storeState ?_ ?_ ?_ ht
    · exact fun _ _ _ => trivial
    · exact fun _ hv => ⟨hv.1.store _, hv.2⟩
    · exact fun _ hv => ⟨hv.1.store _, hv.2⟩

theorem booted_sound {now : OffsetDateTime} (hnow : second ≤ now.nanos) :
    Sound src (w.boot dg now) ∧ NoneAhead src (w.boot dg now) := by
  refine ⟨⟨fun x _ hseen => ?_, hnow⟩, fun x _ hseen => ?_⟩
  · cases hseen
  · cases hseen

end sound

/-- Between the calls of a boot that found no stored state, no id is remembered of a log newer than
the last timestamp seen. -/
theorem none_ahead_between_rounds (text : JsonText) (dg : Config) (storage : Bool) (src : Source)
    (w : World) {now : OffsetDateTime} (hnow : second ≤ now.nanos) {ls : List Label} {m : Machine}
    {r : Option Exit}
    (hls : Along (step text dg storage) (Permits (Fetching src) (fun _ _ _ => False) False)
      (booted dg w now) ls)
    (hrun : run (step text dg storage) (booted dg w now) ls = some m) (hm : m.phase = .up (.done r)) :
    Sound src m.world ∧ NoneAhead src m.world := by
  have hstart : Guarded (Fetching src) (fun _ _ => True)
      (fun w => Sound src w ∧ NoneAhead src w) (fun _ => False) (booted dg w now) :=
    booted_sound hnow
  have hguarded := run_guarded (fun _ h => round_sound h) (fun h => h.elim)
    (fun _ _ _ _ h => h.elim) hstart hls hrun
  rcases m with ⟨w', phase, stopped⟩
  cases hm
  exact hguarded

section instances

theorem listed_fetching {L : List DataGeneratorLog}
    {hL : ∀ x ∈ L, ∀ y ∈ L, x.id = y.id → x = y} {w : World} {e : Request} {o : Choice}
    (h : Listed L w e o) : Fetching (sourceOf L hL) w e o := by
  unfold Fetching
  split
  · exact h.exact
  · trivial

theorem listedReply_fetching {L : List DataGeneratorLog}
    (hL : ∀ x ∈ L, ∀ y ∈ L, x.id = y.id → x = y) (w : World) (e : Request) (o : Choice) (r : Reply e)
    (t : World) (h : listedReply L w e o = some (r, t)) :
    answers (Fetching (sourceOf L hL)) w e r t := by
  rw [listedReply] at h
  split at h
  · rename_i hlisted
    exact ⟨o, listed_fetching hlisted, h⟩
  · cases h

/-- A generator that is booted a thousand seconds after the epoch. -/
def bootedWorld : World := blankWorld.boot resumedConfig (instant 1000000)

/-- A round whose requests turn out as listed, in a source given by a list. -/
def roundOf (L : List DataGeneratorLog) (os : List Choice) (w : World) : Option (Option Exit × World) :=
  (getAndProcessDgLogs stringsText resumedConfig true).replay (listedReply L) w os

def ranTo (L : List DataGeneratorLog) (os : List Choice) (w : World) : World :=
  ((roundOf L os w).getD (none, w)).2

theorem exec_roundOf {L : List DataGeneratorLog} (hL : ∀ x ∈ L, ∀ y ∈ L, x.id = y.id → x = y)
    {os : List Choice} {w : World} {r : Option Exit}
    (h : (roundOf L os w).map Prod.fst = some r) :
    Exec (answers (Fetching (sourceOf L hL))) (getAndProcessDgLogs stringsText resumedConfig true) w r
      (ranTo L os w) := by
  obtain ⟨⟨r', t⟩, hrun, rfl⟩ := Option.map_eq_some_iff.mp h
  rw [ranTo, hrun]
  exact .of_replay (listedReply_fetching hL) hrun

/-- One log, ten seconds after the boot. -/
def busyLog : DataGeneratorLog := sampleLog "busy" 1010000

def busyRound : List Choice :=
  [.ok, .time 1060, .ok, .logs [busyLog]] ++ List.replicate 9 .ok

end instances
end PlaidRuntime.GeneratorWindow
