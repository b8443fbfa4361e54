import PlaidRuntime.DataGenerator

/-!
# Exactly-once delivery within one boot

Only the ids sent last are remembered. That is enough as long as no second of the source
holds more logs than the cache: the logs are sent in the order of their timestamps, so the
ids of the second that is fetched again are the newest ones.
-/
namespace PlaidRuntime.GeneratorDelivery
open StepMachine EffectProgram Prog MachineWord RecencyCache UtcInstant MessageCodec JsonStrings
open DataGenerator OffsetDateTime

section source

/-- What the source finally holds. -/
structure Source where
  logs : Set DataGeneratorLog
  unique : ∀ x ∈ logs, ∀ y ∈ logs, x.id = y.id → x = y

/-- No closed second holds more than `n` logs. -/
def Source.Sparse (src : Source) (n : ℕ) : Prop :=
  ∀ (start : ℤ) (ls : List DataGeneratorLog), ls.Nodup →
    (∀ x ∈ ls, x ∈ src.logs ∧ start ≤ x.timestamp.nanos ∧ x.timestamp.nanos ≤ start + second) →
    ls.length ≤ n

def Ascending (ls : List DataGeneratorLog) : Prop :=
  ls.Pairwise fun x y => x.timestamp ≤ y.timestamp

/-- The answer holds the logs of the interval and no others. -/
def Exact (content : Set DataGeneratorLog) (since untilTime : OffsetDateTime)
    (ls : List DataGeneratorLog) : Prop :=
  ∀ x, x ∈ ls ↔ x ∈ content ∧ since ≤ x.timestamp ∧ x.timestamp ≤ untilTime

/-- Up to the horizon that `get_time() - get_canon_time()` gives, the content of the source is
final; behind it the source may hold anything. -/
def Stable (dg : Config) (src : Source) (clock : ℕ) (content : Set DataGeneratorLog) : Prop :=
  ∀ x, x.timestamp.nanos ≤ subU64 clock dg.canonTime * nanosPerSecond →
    (x ∈ content ↔ x ∈ src.logs)

/-- Fetches fail, or return in ascending order what the source holds at that moment. -/
def Canonical (dg : Config) (src : Source) (w : World) : Request → Choice → Prop
  | .fetchLogs since untilTime, .logs ls =>
    Ascending ls ∧ ∃ content, Stable dg src w.clock content ∧ Exact content since untilTime ls
  | _, _ => True

theorem asI64_le (n : ℕ) (h : n < 2 ^ 64) : asI64 n ≤ n := by
  have hm : n % 2 ^ 64 = n := Nat.mod_eq_of_lt h
  rw [asI64, hm]
  split <;> omega

/-- No window reaches beyond the horizon. -/
theorem untilTime_le {dg : Config} {w : World} {n : ℕ} {u : OffsetDateTime}
    (h : w.untilTime dg n = some u) : u.nanos ≤ subU64 n dg.canonTime * nanosPerSecond := by
  have hu := nanos_of_fromUnixTimestamp h
  have hlt : windowEnd dg w.since n < 2 ^ 64 :=
    lt_of_le_of_lt (min_le_left _ _) (Nat.mod_lt _ (by decide))
  have hle := asI64_le _ hlt
  have hmin : windowEnd dg w.since n ≤ subU64 n dg.canonTime := min_le_left _ _
  rw [hu]
  have hs : asI64 (windowEnd dg w.since n) ≤ (subU64 n dg.canonTime : ℤ) := by omega
  exact mul_le_mul_of_nonneg_right hs (by decide)

theorem Canonical.exact {dg : Config} {src : Source} {w : World} {n : ℕ} {u : OffsetDateTime}
    {ls : List DataGeneratorLog} (hu : w.untilTime dg n = some u)
    (h : Canonical dg src { w with clock := n } (.fetchLogs w.since u) (.logs ls)) :
    Ascending ls ∧ Exact src.logs w.since u ls := by
  obtain ⟨hasc, content, hstable, hexact⟩ := h
  refine ⟨hasc, fun x => ?_⟩
  rw [hexact x]
  have hhorizon := untilTime_le hu
  constructor
  · rintro ⟨hx, hs, hle⟩
    exact ⟨(hstable x (le_trans hle hhorizon)).mp hx, hs, hle⟩
  · rintro ⟨hx, hs, hle⟩
    exact ⟨(hstable x (le_trans hle hhorizon)).mpr hx, hs, hle⟩

end source

section ledger
variable (src : Source) (dg : Config) (start : OffsetDateTime)

/-- The cache holds the ids sent last, and the newest timestamp is the last one seen. -/
structure Ledger (w : World) : Prop where
  capacity : w.seen.capacity = dg.lruCacheSize
  cache : w.seen.entries = (w.sent.map DataGeneratorLog.id).take dg.lruCacheSize
  known : ∀ x ∈ w.sent, x ∈ src.logs
  ascending : w.sent.Pairwise fun x y => y.timestamp ≤ x.timestamp
  ids : (w.sent.map DataGeneratorLog.id).Nodup
  lastSeen : w.lastSeen = (w.sent.map DataGeneratorLog.timestamp).foldr max start

/-- What is still to be sent is newer than all that has been. -/
def Ahead (since : OffsetDateTime) (w : World) : Prop :=
  ∀ x ∈ src.logs, x ∉ w.sent → since ≤ x.timestamp → ∀ z ∈ w.sent, z.timestamp ≤ x.timestamp

/-- Between two rounds. -/
structure Delivered (w : World) : Prop extends Ledger src dg start w where
  ahead : Ahead src w.since w

/-- Within a batch that was fetched from `since` to `untilTime`, with `rest` left. -/
structure Batch (since untilTime : OffsetDateTime) (rest : List DataGeneratorLog) (w : World) : Prop
    extends Ledger src dg start w where
  window : ∀ x ∈ rest, x ∈ src.logs ∧ since ≤ x.timestamp ∧ x.timestamp ≤ untilTime
  sorted : Ascending rest
  covered : ∀ x ∈ src.logs, since ≤ x.timestamp → x.timestamp ≤ untilTime → x ∈ w.sent ∨ x ∈ rest
  recent : ∀ y ∈ rest, ∀ z ∈ w.sent, z.timestamp.nanos ≤ y.timestamp.nanos + second
  ahead : Ahead src since w
  forward : since ≤ w.since

variable {src dg start} {w : World} {since untilTime : OffsetDateTime} {log : DataGeneratorLog}
  {rest : List DataGeneratorLog}

theorem Ledger.sent_le (h : Ledger src dg start w) {x : DataGeneratorLog} (hx : x ∈ w.sent) :
    x.timestamp ≤ w.lastSeen := by
  rw [h.lastSeen]
  have hmem : x.timestamp ∈ w.sent.map DataGeneratorLog.timestamp := List.mem_map_of_mem hx
  generalize w.sent.map DataGeneratorLog.timestamp = ts at hmem
  induction ts with
  | nil => cases hmem
  | cons t ts ih =>
    rcases List.mem_cons.mp hmem with rfl | hmem
    · exact le_max_left _ _
    · exact (ih hmem).trans (le_max_right _ _)

theorem Ledger.sent_of_seen (h : Ledger src dg start w) {x : DataGeneratorLog} (hx : x ∈ src.logs)
    (hseen : x.id ∈ w.seen.entries) : x ∈ w.sent := by
  rw [h.cache] at hseen
  obtain ⟨y, hy, hid⟩ := List.mem_map.mp (List.mem_of_mem_take hseen)
  have heq : y = x := src.unique y (h.known y hy) x hx hid
  rwa [heq] at hy

/-- A log sent within the last second is still in the cache. -/
theorem Ledger.seen_of_sent (h : Ledger src dg start w) (hsparse : src.Sparse dg.lruCacheSize)
    {x : DataGeneratorLog} (hx : x ∈ w.sent)
    (hrecent : ∀ z ∈ w.sent, z.timestamp.nanos ≤ x.timestamp.nanos + second) :
    x.id ∈ w.seen.entries := by
  obtain ⟨newer, older, hsplit⟩ := List.append_of_mem hx
  -- everything sent after `x` lies in the second that starts with it
  have hsecond : (newer ++ [x]).length ≤ dg.lruCacheSize := by
    have hsent : w.sent = newer ++ [x] ++ older := by simp [hsplit]
    have hnodup : w.sent.Nodup := h.ids.of_map _
    rw [hsent] at hnodup
    refine hsparse x.timestamp.nanos (newer ++ [x]) hnodup.of_append_left fun z hz => ?_
    have hzsent : z ∈ w.sent := by
      rw [hsent]
      exact List.mem_append_left _ hz
    have hzx : x.timestamp ≤ z.timestamp := by
      have hasc := h.ascending
      rw [hsplit] at hasc
      rcases List.mem_append.mp hz with hz | hz
      · exact (List.pairwise_append.mp hasc).2.2 z hz x List.mem_cons_self
      · rw [List.mem_singleton.mp hz]
    exact ⟨h.known z hzsent, hzx, hrecent z hzsent⟩
  have htake : (w.sent.map DataGeneratorLog.id).take dg.lruCacheSize =
      newer.map DataGeneratorLog.id ++
        (x.id :: older.map DataGeneratorLog.id).take (dg.lruCacheSize - newer.length) := by
    have hlen : newer.length ≤ dg.lruCacheSize := by
      rw [List.length_append] at hsecond
      omega
    rw [hsplit, List.map_append, List.map_cons, List.take_append, List.length_map,
      List.take_of_length_le (by rwa [List.length_map])]
  rw [h.cache, htake]
  apply List.mem_append_right
  obtain ⟨k, hk⟩ : ∃ k, dg.lruCacheSize - newer.length = k + 1 := by
    rw [List.length_append, List.length_singleton] at hsecond
    exact ⟨dg.lruCacheSize - newer.length - 1, by omega⟩
  rw [hk, List.take_succ_cons]
  exact List.mem_cons_self

theorem Ledger.note (h : Ledger src dg start w) {log : DataGeneratorLog} (hlog : log ∈ src.logs)
    (hnew : log ∉ w.sent) (hnewest : ∀ z ∈ w.sent, z.timestamp ≤ log.timestamp) :
    Ledger src dg start (w.note log) := by
  have hid : log.id ∉ w.sent.map DataGeneratorLog.id := by
    intro hmem
    obtain ⟨y, hy, hyid⟩ := List.mem_map.mp hmem
    have heq : y = log := src.unique y (h.known y hy) log hlog hyid
    rw [heq] at hy
    exact hnew hy
  have hseen : log.id ∉ w.seen.entries := by
    rw [h.cache]
    exact fun hmem => hid (List.mem_of_mem_take hmem)
  constructor
  · exact h.capacity
  · have hput : (w.note log).seen.entries = (log.id :: w.seen.entries).take dg.lruCacheSize := by
      rw [← h.capacity]
      exact put_entries_of_notMem hseen
    rw [hput, h.cache]
    change _ = (log.id :: w.sent.map DataGeneratorLog.id).take dg.lruCacheSize
    obtain ⟨k, hk⟩ : ∃ k, dg.lruCacheSize = k + 1 := ⟨dg.lruCacheSize - 1, by
      have := dg.lruCacheSize_pos
      omega⟩
    rw [hk, List.take_succ_cons, List.take_succ_cons, List.take_take, Nat.min_eq_left (by omega)]
  · intro x hx
    rcases List.mem_cons.mp hx with rfl | hx
    · exact hlog
    · exact h.known x hx
  · exact List.pairwise_cons.mpr ⟨hnewest, h.ascending⟩
  · exact List.nodup_cons.mpr ⟨hid, h.ids⟩
  · change max w.lastSeen log.timestamp = max log.timestamp _
    rw [← h.lastSeen, max_comm]

theorem since_mono {w t : World} (h : w.lastSeen ≤ t.lastSeen) : w.since ≤ t.since :=
  saturatingSub_mono h

theorem Batch.seen_iff (h : Batch src dg start since untilTime rest w)
    (hsparse : src.Sparse dg.lruCacheSize) (hlog : log ∈ rest) :
    log.id ∈ w.seen.entries ↔ log ∈ w.sent :=
  ⟨h.toLedger.sent_of_seen (h.window log hlog).1,
    fun hsent => h.toLedger.seen_of_sent hsparse hsent (h.recent log hlog)⟩

theorem Batch.skip (h : Batch src dg start since untilTime (log :: rest) w) (hsent : log ∈ w.sent) :
    Batch src dg start since untilTime rest w where
  toLedger := h.toLedger
  window x hx := h.window x (List.mem_cons_of_mem log hx)
  sorted := (List.pairwise_cons.mp h.sorted).2
  covered x hx hs hu := by
    rcases h.covered x hx hs hu with hx | hx
    · exact .inl hx
    · rcases List.mem_cons.mp hx with rfl | hx
      · exact .inl hsent
      · exact .inr hx
  recent y hy := h.recent y (List.mem_cons_of_mem log hy)
  ahead := h.ahead
  forward := h.forward

theorem Batch.note (h : Batch src dg start since untilTime (log :: rest) w) (hnew : log ∉ w.sent) :
    Batch src dg start since untilTime rest (w.note log) := by
  obtain ⟨hlog, hsince, huntil⟩ := h.window log List.mem_cons_self
  have hrest := (List.pairwise_cons.mp h.sorted).1
  refine ⟨h.toLedger.note hlog hnew (h.ahead log hlog hnew hsince), ?_, ?_, ?_, ?_, ?_, ?_⟩
  · exact fun x hx => h.window x (List.mem_cons_of_mem log hx)
  · exact (List.pairwise_cons.mp h.sorted).2
  · intro x hx hs hu
    rcases h.covered x hx hs hu with hx | hx
    · exact .inl (List.mem_cons_of_mem log hx)
    · rcases List.mem_cons.mp hx with rfl | hx
      · exact .inl List.mem_cons_self
      · exact .inr hx
  · intro y hy z hz
    rcases List.mem_cons.mp hz with rfl | hz
    · have hle := le_iff.mp (hrest y hy)
      have hpos : 0 ≤ second := by decide
      omega
    · exact h.recent y (List.mem_cons_of_mem log hy) z hz
  · intro x hx hx' hs z hz
    have hxsent : x ∉ w.sent := fun hmem => hx' (List.mem_cons_of_mem log hmem)
    rcases List.mem_cons.mp hz with rfl | hz
    · rcases le_or_gt x.timestamp untilTime with hu | hu
      · rcases h.covered x hx hs hu with hmem | hmem
        · exact absurd hmem hxsent
        · rcases List.mem_cons.mp hmem with rfl | hmem
          · exact absurd List.mem_cons_self hx'
          · exact hrest x hmem
      · exact huntil.trans hu.le
    · exact h.ahead x hx hxsent hs z hz
  · exact h.forward.trans (since_mono (le_max_left _ _))

theorem Batch.delivered (h : Batch src dg start since untilTime rest w) :
    Delivered src dg start w where
  toLedger := h.toLedger
  ahead x hx hx' hs := h.ahead x hx hx' (h.forward.trans hs)

theorem Delivered.batch (h : Delivered src dg start w) {ls : List DataGeneratorLog}
    (hasc : Ascending ls) (hexact : Exact src.logs w.since untilTime ls) :
    Batch src dg start w.since untilTime ls w where
  toLedger := h.toLedger
  window x hx := (hexact x).mp hx
  sorted := hasc
  covered x hx hs hu := .inr ((hexact x).mpr ⟨hx, hs, hu⟩)
  recent y hy z hz := by
    have hz' := le_iff.mp (h.toLedger.sent_le hz)
    have hy' := le_iff.mp ((hexact y).mp hy).2.1
    have hs := @le_saturatingSub_nanos w.lastSeen second (by decide)
    change w.lastSeen.nanos - second ≤ w.since.nanos at hs
    omega
  ahead := h.ahead
  forward := le_refl _

end ledger

section run
variable {src : Source} {dg : Config} {start : OffsetDateTime} {text : JsonText} {storage : Bool}

/-- At every request no id has been sent twice; outside the generator one also finds the last
timestamp up to date. -/
def Once (start : OffsetDateTime) (w : World) (e : Request) : Prop :=
  (w.sent.map DataGeneratorLog.id).Nodup ∧
    (e.own = false → w.lastSeen = (w.sent.map DataGeneratorLog.timestamp).foldr max start)

theorem Ledger.once {w : World} (h : Ledger src dg start w) (e : Request) : Once start w e :=
  ⟨h.ids, fun _ => h.lastSeen⟩

theorem Ledger.clock {w : World} (h : Ledger src dg start w) (n : ℕ) :
    Ledger src dg start { w with clock := n } :=
  { h with }

theorem Delivered.clock {w : World} (h : Delivered src dg start w) (n : ℕ) :
    Delivered src dg start { w with clock := n } where
  toLedger := h.toLedger.clock n
  ahead := h.ahead

theorem Ledger.store {w : World} (h : Ledger src dg start w) (store : StorageProvider.Content) :
    Ledger src dg start { w with store := store } :=
  { h with }

theorem Delivered.store {w : World} (h : Delivered src dg start w)
    (store : StorageProvider.Content) : Delivered src dg start { w with store := store } where
  toLedger := h.toLedger.store store
  ahead := h.ahead

theorem batch_loop (hsparse : src.Sparse dg.lruCacheSize) (since untilTime : OffsetDateTime) :
    LoopInvariant (Once start) fun _ rest w => Batch src dg start since untilTime rest w where
  skip h hseen := h.skip ((h.seen_iff hsparse List.mem_cons_self).mp hseen)
  note h hseen := h.note fun hsent => hseen ((h.seen_iff hsparse List.mem_cons_self).mpr hsent)
  looking h := h.toLedger.once _
  sending h _ := h.toLedger.once _
  marking {n log logs w} h hseen e he := by
    have hnext := h.note fun hsent => hseen ((h.seen_iff hsparse List.mem_cons_self).mpr hsent)
    have hids : ((log :: w.sent).map DataGeneratorLog.id).Nodup := hnext.ids
    exact ⟨⟨hids, by simp [he]⟩, ⟨hids, by simp [he]⟩⟩

end run

/-- The generator right after its constructor. -/
def booted (dg : Config) (w : World) (now : OffsetDateTime) : Machine :=
  ⟨w.boot dg now, .up (.done none), none⟩

section instances

/-- For a source given by a list the answers can be checked. -/
def Listed (L : List DataGeneratorLog) : World → Request → Choice → Prop
  | _, .fetchLogs since untilTime, .logs ls =>
    Ascending ls ∧ (∀ x ∈ ls, x ∈ L ∧ since ≤ x.timestamp ∧ x.timestamp ≤ untilTime) ∧
      ∀ x ∈ L, since ≤ x.timestamp → x.timestamp ≤ untilTime → x ∈ ls
  | _, _, _ => True

instance (L : List DataGeneratorLog) (w : World) (e : Request) (o : Choice) :
    Decidable (Listed L w e o) := by
  unfold Listed Ascending
  split <;> infer_instance

def sourceOf (L : List DataGeneratorLog)
    (h : ∀ x ∈ L, ∀ y ∈ L, x.id = y.id → x = y) : Source where
  logs := { x | x ∈ L }
  unique := h

theorem Listed.exact {L : List DataGeneratorLog} {w : World} {since untilTime : OffsetDateTime}
    {ls : List DataGeneratorLog} (h : Listed L w (.fetchLogs since untilTime) (.logs ls)) :
    Ascending ls ∧ Exact { x | x ∈ L } since untilTime ls := by
  obtain ⟨hasc, hsub, hall⟩ := h
  refine ⟨hasc, fun x => ⟨hsub x, ?_⟩⟩
  rintro ⟨hx, hs, hu⟩
  exact hall x hx hs hu

/-- Replies that fit the list. -/
def listedReply (L : List DataGeneratorLog) (w : World) (e : Request) (o : Choice) :
    Option (Reply e × World) :=
  if Listed L w e o then reply w e o else none

def sampleConfig (capacity : ℕ) (h : 0 < capacity) : Config :=
  ⟨20, 60, 10800, capacity, by decide, by decide, by decide, h⟩

instance sampleRange : NeZero (10000000 : ℕ) := ⟨by decide⟩

/-- The instant `ms` milliseconds after the epoch. -/
def instant (ms : Fin 10000000) : OffsetDateTime where
  nanos := ms * 1000000
  lower := by
    have h : minNanos ≤ 0 := by decide
    have h0 : (0 : ℤ) ≤ ms * 1000000 := by positivity
    exact h.trans h0
  upper := by
    have h : (10000000 : ℤ) * 1000000 ≤ maxNanos := by decide
    have hms : ((ms : ℕ) : ℤ) ≤ 10000000 := by exact_mod_cast ms.isLt.le
    omega

def sampleLog (id : String) (ms : Fin 10000000) : DataGeneratorLog := ⟨id, instant ms, []⟩

/-- The answers that a new log of a batch takes. -/
def fresh : List Label := [.answer .ok, .answer .ok, .answer .ok, .answer .ok, .answer .ok]

/-- A world in which nothing has happened. -/
def blankWorld : World := ⟨instant 0, empty String 1, ∅, [], 0⟩

def resumedConfig : Config := sampleConfig 2 (by decide)

end instances
end PlaidRuntime.GeneratorDelivery
