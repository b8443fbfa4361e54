import PlaidRuntime.GeneratorBoot

/-!
# No log is skipped across restarts

The state is stored after a batch that sent something, under two keys. A boot that finds both
and a recent timestamp goes on where the generator stopped; any other boot starts from the
present and leaves a gap.
-/
namespace PlaidRuntime.GeneratorLoss
open StepMachine EffectProgram Prog MachineWord GuestMemory MessageCodec JsonStrings RecencyCache
open UtcInstant DataGenerator GeneratorDelivery GeneratorWindow GeneratorBoot OffsetDateTime

section safety
variable (src : Source) (text : JsonText) (start : OffsetDateTime)

/-- Every log from `start` up to `t` has been sent, in this boot or an earlier one. -/
def Covered (t : OffsetDateTime) (w : World) : Prop :=
  ∀ x ∈ src.logs, start ≤ x.timestamp → x.timestamp < t → x ∈ w.sent

def SentIds (ids : List String) (w : World) : Prop := ∀ id ∈ ids, ∃ x ∈ w.sent, x.id = id

/-- The ids in the cache and those stored are ids of logs that were sent. -/
structure Remembered (w : World) : Prop where
  known : ∀ x ∈ w.sent, x ∈ src.logs
  cached : SentIds w.seen.entries w
  storedUuids : ∀ ids, storedUuids text w = some ids → SentIds ids w

/-- Neither what the generator remembers nor what it has stored skips a log. -/
structure Safe (w : World) : Prop extends Remembered src text w where
  covered : Covered src start w.lastSeen w
  storedLastSeen : ∀ t, storedLastSeen w = some t → Covered src start t w

/-- Within a batch that was fetched from `a` to `u`, with `rest` left. -/
structure Batch (a u : OffsetDateTime) (rest : List DataGeneratorLog) (w : World) : Prop
    extends Safe src text start w where
  forward : a ≤ w.lastSeen
  window : ∀ x ∈ rest, x ∈ src.logs ∧ x.timestamp ≤ u
  sorted : Ascending rest
  swept : ∀ x ∈ src.logs, a ≤ x.timestamp → x.timestamp ≤ u → x ∈ w.sent ∨ x ∈ rest

variable {src text start} {w : World} {log : DataGeneratorLog} {rest : List DataGeneratorLog}
  {a u : OffsetDateTime}

theorem Covered.more {t : OffsetDateTime} (h : Covered src start t w) {v : World}
    (hsent : v.sent = log :: w.sent) : Covered src start t v := by
  intro x hx hs ht
  rw [hsent]
  exact List.mem_cons_of_mem log (h x hx hs ht)

theorem SentIds.more {ids : List String} (h : SentIds ids w) {v : World}
    (hsent : v.sent = log :: w.sent) : SentIds ids v := by
  intro id hid
  obtain ⟨x, hx, rfl⟩ := h id hid
  exact ⟨x, by rw [hsent]; exact List.mem_cons_of_mem log hx, rfl⟩

theorem Remembered.sent (h : Remembered src text w) (hlog : log ∈ src.logs) :
    Remembered src text { w with sent := log :: w.sent } where
  known x hx := by
    rcases List.mem_cons.mp hx with rfl | hx
    · exact hlog
    · exact h.known x hx
  cached := h.cached.more rfl
  storedUuids ids hids := (h.storedUuids ids hids).more rfl

theorem Remembered.marked (h : Remembered src text w) (hlog : log ∈ src.logs) :
    Remembered src text { w with sent := log :: w.sent, seen := w.seen.put log.id } where
  known := (h.sent hlog).known
  cached id hid := by
    rcases mem_put hid with rfl | hid
    · exact ⟨log, List.mem_cons_self, rfl⟩
    · exact (h.sent hlog).cached id hid
  storedUuids := (h.sent hlog).storedUuids

theorem Remembered.note (h : Remembered src text w) (hlog : log ∈ src.logs) :
    Remembered src text (w.note log) :=
  ⟨(h.marked hlog).known, (h.marked hlog).cached, (h.marked hlog).storedUuids⟩

theorem Remembered.clock (h : Remembered src text w) (n : ℕ) :
    Remembered src text { w with clock := n } :=
  ⟨h.known, h.cached, h.storedUuids⟩

theorem Remembered.storeLastSeen (h : Remembered src text w) :
    Remembered src text (insertKey w lastSeenKey (asBytes (toString w.lastSeen.nanos))) where
  known := h.known
  cached := h.cached
  storedUuids ids hids := by
    rw [storedUuids_insert_lastSeen] at hids
    exact h.storedUuids ids hids

theorem Remembered.storeUuids (h : Remembered src text w)
    (htext : text.RoundTrips (encodeStrings w.seen.entries)) :
    Remembered src text
      (insertKey w alreadySeenUuidsKey (text.toVec (encodeStrings w.seen.entries))) where
  known := h.known
  cached := h.cached
  storedUuids ids hids := by
    rw [storedUuids_insert htext] at hids
    cases hids
    exact h.cached

theorem Remembered.sound (h : Remembered src text w) (hepoch : second ≤ w.lastSeen.nanos) :
    Sound src w where
  cached x hx hseen := by
    obtain ⟨y, hy, hid⟩ := h.cached x.id hseen
    rw [← src.unique y (h.known y hy) x hx hid]
    exact hy
  epoch := hepoch

/-- After a send and before the generator has noted it. -/
theorem Safe.sent (h : Safe src text start w) (hlog : log ∈ src.logs) :
    Safe src text start { w with sent := log :: w.sent } where
  toRemembered := h.toRemembered.sent hlog
  covered := h.covered.more rfl
  storedLastSeen t ht := (h.storedLastSeen t ht).more rfl

theorem Safe.marked (h : Safe src text start w) (hlog : log ∈ src.logs) :
    Safe src text start { w with sent := log :: w.sent, seen := w.seen.put log.id } where
  toRemembered := h.toRemembered.marked hlog
  covered := (h.sent hlog).covered
  storedLastSeen := (h.sent hlog).storedLastSeen

theorem Safe.clock (h : Safe src text start w) (n : ℕ) :
    Safe src text start { w with clock := n } :=
  ⟨h.toRemembered.clock n, h.covered, h.storedLastSeen⟩

theorem Batch.skip (h : Batch src text start a u (log :: rest) w) (hseen : log.id ∈ w.seen.entries) :
    Batch src text start a u rest w where
  toSafe := h.toSafe
  forward := h.forward
  window x hx := h.window x (List.mem_cons_of_mem log hx)
  sorted := (List.pairwise_cons.mp h.sorted).2
  swept x hx hs hu := by
    rcases h.swept x hx hs hu with hx' | hx'
    · exact .inl hx'
    · rcases List.mem_cons.mp hx' with rfl | hx'
      · obtain ⟨y, hy, hid⟩ := h.cached x.id hseen
        have heq : y = x := src.unique y (h.known y hy) x hx hid
        rw [heq] at hy
        exact .inl hy
      · exact .inr hx'

/-- Moving the last timestamp to the log that was just sent passes over none. -/
theorem Batch.note (h : Batch src text start a u (log :: rest) w) :
    Batch src text start a u rest (w.note log) := by
  obtain ⟨hlog, hu⟩ := h.window log List.mem_cons_self
  have hmarked := h.toSafe.marked hlog
  refine ⟨⟨h.toRemembered.note hlog, ?_, hmarked.storedLastSeen⟩, ?_, ?_, ?_, ?_⟩
  · intro x hx hs hlt
    rcases lt_or_ge x.timestamp w.lastSeen with hold | hnew
    · exact hmarked.covered x hx hs hold
    · have hltlog : x.timestamp < log.timestamp := (lt_max_iff.mp hlt).resolve_left (not_lt.mpr hnew)
      rcases h.swept x hx (h.forward.trans hnew) (hltlog.le.trans hu) with hx' | hx'
      · exact List.mem_cons_of_mem log hx'
      · rcases List.mem_cons.mp hx' with rfl | hx'
        · exact absurd hltlog (lt_irrefl _)
        · exact absurd ((List.pairwise_cons.mp h.sorted).1 x hx') (not_le.mpr hltlog)
  · exact h.forward.trans (le_max_left _ _)
  · exact fun x hx => h.window x (List.mem_cons_of_mem log hx)
  · exact (List.pairwise_cons.mp h.sorted).2
  · intro x hx hs hxu
    rcases h.swept x hx hs hxu with hx' | hx'
    · exact .inl (List.mem_cons_of_mem log hx')
    · rcases List.mem_cons.mp hx' with rfl | hx'
      · exact .inl List.mem_cons_self
      · exact .inr hx'

theorem Safe.batch (h : Safe src text start w) {ls : List DataGeneratorLog} (hasc : Ascending ls)
    (hexact : Exact src.logs w.since u ls) : Batch src text start w.lastSeen u ls w where
  toSafe := h
  forward := le_refl _
  window x hx := ⟨((hexact x).mp hx).1, ((hexact x).mp hx).2.2⟩
  sorted := hasc
  swept x hx hs hu := by
    have hback : w.since ≤ w.lastSeen := saturatingSub_le (by decide)
    exact .inr ((hexact x).mpr ⟨hx, hback.trans hs, hu⟩)

theorem Safe.storeLastSeen (h : Safe src text start w) :
    Safe src text start (insertKey w lastSeenKey (asBytes (toString w.lastSeen.nanos))) where
  toRemembered := h.toRemembered.storeLastSeen
  covered := h.covered
  storedLastSeen t ht := by
    rw [storedLastSeen_insert] at ht
    cases ht
    exact h.covered

theorem Safe.storeUuids (h : Safe src text start w)
    (htext : text.RoundTrips (encodeStrings w.seen.entries)) :
    Safe src text start
      (insertKey w alreadySeenUuidsKey (text.toVec (encodeStrings w.seen.entries))) where
  toRemembered := h.toRemembered.storeUuids htext
  covered := h.covered
  storedLastSeen t ht := by
    rw [storedLastSeen_insert_uuids] at ht
    exact h.storedLastSeen t ht

end safety

section rounds
variable {src : Source} {text : JsonText} {start : OffsetDateTime} {dg : Config} {storage : Bool}
  {w w' : World}

theorem batch_loop (a u : OffsetDateTime) :
    LoopInvariant (fun w _ => Safe src text start w) fun _ rest w =>
      Batch src text start a u rest w where
  skip h hseen := h.skip hseen
  note h _ := h.note
  looking h := h.toSafe
  sending h _ := h.toSafe
  marking h _ _ _ := by
    have hlog := (h.window _ List.mem_cons_self).1
    exact ⟨h.toSafe.sent hlog, h.toSafe.marked hlog⟩

theorem storeState_safe (htext : ∀ ids, text.RoundTrips (encodeStrings ids))
    {A : World → Request → Choice → Prop} (h : Safe src text start w) :
    (storeState text).Guards (answers A) (fun w _ => Safe src text start w)
      (fun _ => Safe src text start) w := by
  refine guards_storeState ?_ ?_ ?_ h
  · exact fun _ _ hv => hv
  · exact fun _ hv => hv.storeLastSeen
  · exact fun _ hv => hv.storeUuids (htext _)

theorem round_safe (htext : ∀ ids, text.RoundTrips (encodeStrings ids)) (h : Safe src text start w) :
    (getAndProcessDgLogs text dg storage).Guards (answers (Fetching src))
      (fun w _ => Safe src text start w) (fun _ => Safe src text start) w := by
  refine @guards_getAndProcessDgLogs _ _ w text dg storage _ (Safe src text start) h h
    (fun n _ _ => h.clock n) (fun n _ => h.clock n) (fun n _ _ _ _ => h.clock n)
    (fun n _ _ => h.clock n) (fun n _ => h.clock n) (fun n _ u _ _ ls hls => ?_) (fun _ _ ht => ht)
    (fun _ _ ht => storeState_safe htext ht)
  refine ⟨fun _ => h.clock n, ?_⟩
  have hbatch := (h.clock n).batch hls.1 hls.2
  refine guards_processLogs (batch_loop _ _) (fun c v hv => ?_) (fun c log logs v hv _ _ => ?_) hbatch
  · exact ⟨fun _ => hv.toSafe, fun _ => hv.toSafe, fun _ _ => hv.toSafe⟩
  · exact ⟨fun _ => hv.toSafe, fun _ => hv.toSafe, fun _ _ => hv.toSafe⟩

/-- The boot reads both halves of the state, and the timestamp is recent enough to be kept. -/
def Recovers (text : JsonText) (dg : Config) (w : World) (_ : OffsetDateTime) : List Choice → Prop
  | .ok :: .ok :: .instant now' :: _ => ∃ t ids, storedLastSeen w = some t ∧
      storedUuids text w = some ids ∧ asU64 (wholeSeconds (now'.nanos - t.nanos)) ≤ dg.maxCatchup
  | _ => False

theorem boot_safe {now : OffsetDateTime} {os : List Choice} (h : Safe src text start w)
    (hos : Recovers text dg w now os)
    (hboot : (updateDgFromStorage text dg true).replay reply (w.boot dg now) os = some ((), w')) :
    Safe src text start w' := by
  unfold Recovers at hos
  split at hos
  · obtain ⟨t, ids, hlast, huuids, hrecent⟩ := hos
    have hw' := replay_boot hlast huuids hboot
    rw [capLastSeen_of_le hrecent] at hw'
    rw [hw']
    refine ⟨⟨h.known, fun id hid => ?_, h.storedUuids⟩, h.storedLastSeen t hlast, h.storedLastSeen⟩
    rcases mem_putAll hid with hid | hid
    · exact h.storedUuids ids huuids id hid
    · cases hid
  · exact hos.elim

theorem booted_remembered (hsent : w.sent = []) (hstore : w.store = ∅) :
    Remembered src text (w.boot dg start) where
  known x hx := by
    have hnone : x ∈ w.sent := hx
    rw [hsent] at hnone
    cases hnone
  cached id hid := by cases hid
  storedUuids ids hids := by
    have hnone : storedUuids text (w.boot dg start) = none := by
      simp [storedUuids, World.boot, hstore]
    rw [hnone] at hids
    cases hids

theorem booted_safe (hsent : w.sent = []) (hstore : w.store = ∅) :
    Safe src text start (w.boot dg start) where
  toRemembered := booted_remembered hsent hstore
  covered x _ hs hlt := absurd hlt (not_lt.mpr hs)
  storedLastSeen t ht := by
    have hnone : storedLastSeen (w.boot dg start) = none := by
      simp [storedLastSeen, World.boot, hstore]
    rw [hnone] at ht
    cases ht

end rounds

section remembered
variable {src : Source} {text : JsonText} {dg : Config} {storage : Bool} {w w' : World}

/-- What holds between two rounds of a generator that may have been restarted. -/
structure Resting (src : Source) (text : JsonText) (w : World) : Prop
    extends Remembered src text w where
  epoch : second ≤ w.lastSeen.nanos

theorem Resting.note (h : Resting src text w) {log : DataGeneratorLog} (hlog : log ∈ src.logs) :
    Resting src text (w.note log) :=
  ⟨h.toRemembered.note hlog, h.epoch.trans (le_iff.mp (le_max_left w.lastSeen log.timestamp))⟩

theorem resting_loop : LoopInvariant (fun w _ => Remembered src text w) fun _ rest w =>
    Resting src text w ∧ ∀ x ∈ rest, x ∈ src.logs where
  skip h _ := ⟨h.1, fun x hx => h.2 x (List.mem_cons_of_mem _ hx)⟩
  note h _ := ⟨h.1.note (h.2 _ List.mem_cons_self), fun x hx => h.2 x (List.mem_cons_of_mem _ hx)⟩
  looking h := h.1.toRemembered
  sending h _ := h.1.toRemembered
  marking h _ _ _ := by
    have hlog := h.2 _ List.mem_cons_self
    exact ⟨h.1.toRemembered.sent hlog, h.1.toRemembered.marked hlog⟩

theorem storeState_resting (htext : ∀ ids, text.RoundTrips (encodeStrings ids))
    {A : World → Request → Choice → Prop} (h : Resting src text w) :
    (storeState text).Guards (answers A) (fun w _ => Remembered src text w)
      (fun _ => Resting src text) w := by
  refine guards_storeState ?_ ?_ ?_ h
  · exact fun _ _ hv => hv.toRemembered
  · exact fun _ hv => ⟨hv.toRemembered.storeLastSeen, hv.epoch⟩
  · exact fun _ hv => ⟨hv.toRemembered.storeUuids (htext _), hv.epoch⟩

theorem round_resting (htext : ∀ ids, text.RoundTrips (encodeStrings ids)) (h : Resting src text w) :
    (getAndProcessDgLogs text dg storage).Guards (answers (Fetching src))
      (fun w _ => Remembered src text w) (fun _ => Resting src text) w := by
  have hclock : ∀ n, Resting src text { w with clock := n } :=
    fun n => ⟨h.toRemembered.clock n, h.epoch⟩
  refine @guards_getAndProcessDgLogs _ _ w text dg storage _ (Resting src text) h.toRemembered
    h.toRemembered (fun n _ _ => hclock n) (fun n _ => (hclock n).toRemembered)
    (fun n _ _ _ _ => hclock n) (fun n _ _ => (hclock n).toRemembered) (fun n _ => hclock n)
    (fun n _ u _ _ ls hls => ?_) (fun _ _ ht => ht) (fun _ _ ht => storeState_resting htext ht)
  refine ⟨fun _ => hclock n, ?_⟩
  have hwindow : ∀ x ∈ ls, x ∈ src.logs := fun x hx => ((hls.2 x).mp hx).1
  refine guards_processLogs resting_loop (fun c v hv => ?_) (fun c log logs v hv _ _ => ?_)
    ⟨hclock n, hwindow⟩
  · exact ⟨fun _ => hv.1, fun _ => hv.1, fun _ _ => hv.1⟩
  · exact ⟨fun _ => hv.1, fun _ => hv.1, fun _ _ => hv.1⟩

/-- A boot ends with a timestamp past the first second of the epoch. -/
def BootsPastEpoch (text : JsonText) (dg : Config) (w : World) (now : OffsetDateTime)
    (os : List Choice) : Prop :=
  ∀ w', (updateDgFromStorage text dg true).replay reply (w.boot dg now) os = some ((), w') →
    second ≤ w'.lastSeen.nanos

theorem boot_remembered {now : OffsetDateTime} {os : List Choice} (h : Remembered src text w)
    (hboot : (updateDgFromStorage text dg true).replay reply (w.boot dg now) os = some ((), w')) :
    Remembered src text w' := by
  rcases replay_boot_cases hboot with rfl | ⟨ids, t, hids, rfl⟩
  · refine ⟨h.known, fun id hid => ?_, h.storedUuids⟩
    cases hid
  · refine ⟨h.known, fun id hid => ?_, h.storedUuids⟩
    rcases mem_putAll hid with hid | hid
    · exact h.storedUuids ids hids id hid
    · cases hid

end remembered

/-- However often the generator is killed and booted again, between two rounds the ids in its
cache are those of logs that it has sent. -/
theorem sound_between_rounds (text : JsonText) (htext : ∀ ids, text.RoundTrips (encodeStrings ids))
    (dg : Config) (src : Source) (w : World) (hsent : w.sent = []) (hstore : w.store = ∅)
    {now : OffsetDateTime} (hnow : second ≤ now.nanos) {ls : List Label} {m : Machine}
    {r : Option Exit}
    (hls : Along (step text dg true) (Permits (Fetching src) (BootsPastEpoch text dg) True)
      (booted dg w now) ls)
    (hrun : run (step text dg true) (booted dg w now) ls = some m) (hm : m.phase = .up (.done r)) :
    Sound src m.world := by
  have hstart : Guarded (Fetching src) (fun w _ => Remembered src text w) (Resting src text)
      (Remembered src text) (booted dg w now) := ⟨booted_remembered hsent hstore, hnow⟩
  have hguarded := run_guarded (fun _ h => round_resting htext h)
    (fun _ _ => ⟨fun h => h.toRemembered, fun _ h => h⟩)
    (fun _ _ _ w' h hpast hb => ⟨boot_remembered h hb, hpast w' hb⟩) hstart hls hrun
  rcases m with ⟨w', phase, stopped⟩
  cases hm
  exact hguarded.toRemembered.sound hguarded.epoch

/-- In every run whose boots after the first one recover the state, all logs from the first
last timestamp up to the present one have been sent at every moment. -/
theorem no_log_skipped (text : JsonText) (htext : ∀ ids, text.RoundTrips (encodeStrings ids))
    (dg : Config) (src : Source) (w : World) (hsent : w.sent = []) (hstore : w.store = ∅)
    (start : OffsetDateTime) (ls : List Label) (m : Machine)
    (hls : Along (step text dg true) (Permits (Fetching src) (Recovers text dg) True)
      (booted dg w start) ls)
    (hrun : run (step text dg true) (booted dg w start) ls = some m) :
    ∀ x ∈ src.logs, start ≤ x.timestamp → x.timestamp < m.world.lastSeen → x ∈ m.world.sent := by
  have hstart : Guarded (Fetching src) (fun w _ => Safe src text start w) (Safe src text start)
      (Safe src text start) (booted dg w start) := booted_safe hsent hstore
  have hguarded := run_guarded (fun _ h => round_safe htext h)
    (fun _ _ => ⟨fun h => h, fun _ h => h⟩) (fun _ _ _ _ h hos hb => boot_safe h hos hb) hstart hls
    hrun
  rcases m with ⟨w', phase, stopped⟩
  cases phase with
  | down => exact hguarded.covered
  | up code =>
    cases code with
    | done r => exact hguarded.covered
    | request e next => exact hguarded.1.covered

section instances

def worked : Choice → Bool
  | .storageFails _ => false
  | _ => true

/-- A run as the operator sees it: fetches are within `A`, the storage never fails, and no
downtime reaches the limit. -/
def Undisturbed (A : World → Request → Choice → Prop) (dg : Config) (m : Machine) (l : Label) : Prop :=
  Permits A (fun _ _ os => ∀ o ∈ os, worked o = true) True m l ∧
    match l with
    | .boot now _ => ∀ t ∈ m.stopped, now.nanos - t.nanos < dg.maxCatchup * nanosPerSecond
    | .answer o => worked o = true
    | _ => True

instance (L : List DataGeneratorLog) (dg : Config) (m : Machine) (l : Label) :
    Decidable (Undisturbed (Listed L) dg m l) := by
  unfold Undisturbed
  split <;> infer_instance

theorem Undisturbed.fetching {L : List DataGeneratorLog}
    {hL : ∀ x ∈ L, ∀ y ∈ L, x.id = y.id → x = y} {dg : Config} {m : Machine} {l : Label}
    (h : Undisturbed (Listed L) dg m l) : Undisturbed (Fetching (sourceOf L hL)) dg m l :=
  ⟨permits_mono (fun _ _ _ ho => listed_fetching ho) h.1, h.2⟩

/-- One round that waits for the logs to become stable, and a restart three seconds later. -/
def earlyRestart : List Label :=
  [.poll, .answer .ok, .answer (.time 1001), .answer .ok, .crash (instant 1003000),
    .boot (instant 1005000) [.ok, .ok]]

/-- A log between the two boots. -/
def skippedLog : DataGeneratorLog := sampleLog "skipped" 1002000

theorem early_restart_skips :
    ∃ src : Source, ∃ m : Machine,
      Along (step stringsText resumedConfig true) (Undisturbed (Fetching src) resumedConfig)
        (booted resumedConfig blankWorld (instant 1000000)) earlyRestart ∧
      run (step stringsText resumedConfig true) (booted resumedConfig blankWorld (instant 1000000))
        earlyRestart = some m ∧
      ¬ ∀ x ∈ src.logs, instant 1000000 ≤ x.timestamp → x.timestamp < m.world.lastSeen →
        x ∈ m.world.sent := by
  have hunique : ∀ x ∈ [skippedLog], ∀ y ∈ [skippedLog], x.id = y.id → x = y := by decide
  have halong : Along (step stringsText resumedConfig true) (Undisturbed (Listed [skippedLog])
      resumedConfig) (booted resumedConfig blankWorld (instant 1000000)) earlyRestart := by
    decide +kernel
  have hrun : (run (step stringsText resumedConfig true)
      (booted resumedConfig blankWorld (instant 1000000)) earlyRestart).map
        (fun m => (m.world.lastSeen, m.world.sent)) = some (instant 1005000, []) := by decide +kernel
  obtain ⟨m, hm, heq⟩ := Option.map_eq_some_iff.mp hrun
  simp only [Prod.mk.injEq] at heq
  obtain ⟨hlast, hsent⟩ := heq
  refine ⟨sourceOf [skippedLog] hunique, m, halong.mono fun _ _ h => h.fetching, hm, fun hall => ?_⟩
  have hmem := hall skippedLog List.mem_cons_self (by decide) (by rw [hlast]; decide)
  rw [hsent] at hmem
  cases hmem

/-- One log is sent and stored before the crash. -/
def storedRun : List Label :=
  [.poll, .answer .ok, .answer (.time 1060), .answer .ok, .answer (.logs [busyLog])] ++
    List.replicate 9 (.answer .ok) ++ [.crash (instant 1070000)]

def isDown : Phase → Bool
  | .down => true
  | .up _ => false

/-- After the restart the generator goes on from the log it has sent. -/
theorem restart_skips_nothing :
    ∃ src : Source, ∃ m : Machine, busyLog ∈ src.logs ∧
      run (step stringsText resumedConfig true) (booted resumedConfig blankWorld (instant 1000000))
        (storedRun ++ [.boot (instant 1080000) [.ok, .ok, .instant (instant 1080000), .ok, .ok]]) =
          some m ∧
      m.world.lastSeen = busyLog.timestamp ∧
      ∀ x ∈ src.logs, instant 1000000 ≤ x.timestamp → x.timestamp < m.world.lastSeen →
        x ∈ m.world.sent := by
  have hunique : ∀ x ∈ [busyLog], ∀ y ∈ [busyLog], x.id = y.id → x = y := by decide
  have halong : Along (step stringsText resumedConfig true)
      (Permits (Listed [busyLog]) (fun _ _ _ => False) True)
      (booted resumedConfig blankWorld (instant 1000000)) storedRun := by decide +kernel
  have hstored : (run (step stringsText resumedConfig true)
      (booted resumedConfig blankWorld (instant 1000000)) storedRun).map (fun m =>
        (isDown m.phase, m.world.store.lookup lastSeenKey,
          m.world.store.lookup alreadySeenUuidsKey)) =
      some (true, some (asBytes (toString busyLog.timestamp.nanos)),
        some (stringsText.toVec (encodeStrings ["busy"]))) := by decide +kernel
  obtain ⟨⟨w, phase, stopped⟩, hrun, heq⟩ := Option.map_eq_some_iff.mp hstored
  simp only [Prod.mk.injEq] at heq
  obtain ⟨hdown, hlast, huuids⟩ := heq
  cases phase with
  | up code => cases hdown
  | down =>
    have hlast' := storedLastSeen_of_lookup hlast
    have huuids' := storedUuids_of_lookup (stringsText_roundTrips _) huuids
    obtain ⟨w', hboot⟩ := @replay_boot_some stringsText resumedConfig w (instant 1080000)
      (instant 1080000) _ _ hlast' huuids'
    have hrecent : asU64 (wholeSeconds ((instant 1080000).nanos - busyLog.timestamp.nanos)) ≤
        resumedConfig.maxCatchup := by decide +kernel
    have hw' := replay_boot hlast' huuids' hboot
    rw [capLastSeen_of_le hrecent] at hw'
    have hstep : step stringsText resumedConfig true ⟨w, .down, stopped⟩
        (.boot (instant 1080000) [.ok, .ok, .instant (instant 1080000), .ok, .ok]) =
          some ⟨w', .up (.done none), stopped⟩ :=
      Option.map_eq_some_iff.mpr ⟨((), w'), hboot, rfl⟩
    have hall : run (step stringsText resumedConfig true)
        (booted resumedConfig blankWorld (instant 1000000))
        (storedRun ++ [.boot (instant 1080000) [.ok, .ok, .instant (instant 1080000), .ok, .ok]]) =
          some ⟨w', .up (.done none), stopped⟩ := by
      rw [run_append, hrun, Option.bind_some, run, hstep]
      rfl
    refine ⟨sourceOf [busyLog] hunique, _, List.mem_cons_self, hall, by rw [hw'], ?_⟩
    refine no_log_skipped stringsText stringsText_roundTrips resumedConfig _ blankWorld rfl rfl
      (instant 1000000) _ _ (along_append (halong.mono fun m l h => ?_) fun t ht => ?_) hall
    · exact permits_boot (fun h => h.elim) (permits_mono (fun _ _ _ ho => listed_fetching ho) h)
    · rw [hrun] at ht
      cases ht
      exact ⟨⟨_, _, hlast', huuids', hrecent⟩, fun _ _ => trivial⟩

end instances
end PlaidRuntime.GeneratorLoss
