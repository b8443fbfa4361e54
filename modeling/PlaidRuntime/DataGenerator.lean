import PlaidRuntime.StepMachine
import PlaidRuntime.Decimal
import PlaidRuntime.RecencyCache
import PlaidRuntime.UtcInstant
import PlaidRuntime.JsonStrings

/-!
# Data generators

The polling loop that GitHub and Okta share (`data/mod.rs`): logs are fetched in overlapping
windows, duplicates are dropped by the ids seen last, and the state is stored after every
batch that sent something and restored at the next boot. The methods of the trait, the clock
and the storage are requests.
-/
namespace PlaidRuntime.DataGenerator
open EffectProgram Prog StepMachine MachineWord GuestMemory StorageProvider MessageCodec JsonStrings RecencyCache
open UtcInstant OffsetDateTime

structure DataGeneratorLog where
  id : String
  timestamp : OffsetDateTime
  payload : Bytes
  deriving DecidableEq

/-- The settings of a generator. They are read from TOML, whose integers are signed. -/
structure Config where
  canonTime : ℕ
  maxSinceUntil : ℕ
  maxCatchup : ℕ
  lruCacheSize : ℕ
  canonTime_lt : canonTime < 2 ^ 63
  maxSinceUntil_lt : maxSinceUntil < 2 ^ 63
  maxCatchup_lt : maxCatchup < 2 ^ 63
  lruCacheSize_pos : 0 < lruCacheSize

def lastSeenKey : String := "last_seen"
def alreadySeenUuidsKey : String := "already_seen_uuids"

inductive Request
  | getTime
  | nowUtc
  | getLastSeen
  | setLastSeen (v : OffsetDateTime)
  | wasAlreadySeen (id : String)
  | markAlreadySeen (id : String)
  | listAlreadySeen
  | fetchLogs (since untilTime : OffsetDateTime)
  /-- Only the payload goes into the channel; the log says whose it is. -/
  | sendForProcessing (log : DataGeneratorLog)
  | storageGet (key : String)
  | storageInsert (key : String) (value : Bytes)

abbrev Reply : Request → Type
  | .getTime => ℕ
  | .nowUtc => OffsetDateTime
  | .getLastSeen => OffsetDateTime
  | .setLastSeen _ => Unit
  | .wasAlreadySeen _ => Bool
  | .markAlreadySeen _ => Unit
  | .listAlreadySeen => List String
  | .fetchLogs _ _ => Except Unit (List DataGeneratorLog)
  | .sendForProcessing _ => Except Unit Unit
  | .storageGet _ => Except StorageError (Option Bytes)
  | .storageInsert _ _ => Except StorageError (Option Bytes)

abbrev Code (α : Type) := Prog Request Reply α

section programs

def getTime : Code ℕ := perform Request.getTime
def nowUtc : Code OffsetDateTime := perform Request.nowUtc
def getLastSeen : Code OffsetDateTime := perform Request.getLastSeen
def setLastSeen (v : OffsetDateTime) : Code Unit := perform (Request.setLastSeen v)
def wasAlreadySeen (id : String) : Code Bool := perform (Request.wasAlreadySeen id)
def markAlreadySeen (id : String) : Code Unit := perform (Request.markAlreadySeen id)
def listAlreadySeen : Code (List String) := perform Request.listAlreadySeen
def fetchLogs (since untilTime : OffsetDateTime) : Code (Except Unit (List DataGeneratorLog)) :=
  perform (Request.fetchLogs since untilTime)
def sendForProcessing (log : DataGeneratorLog) : Code (Except Unit Unit) :=
  perform (Request.sendForProcessing log)
def storageGet (key : String) : Code (Except StorageError (Option Bytes)) :=
  perform (Request.storageGet key)
def storageInsert (key : String) (value : Bytes) : Code (Except StorageError (Option Bytes)) :=
  perform (Request.storageInsert key value)

def second : ℤ := nanosPerSecond

/-- The last second of the window that is asked for, as an unsigned number. -/
def windowEnd (dg : Config) (since : OffsetDateTime) (now : ℕ) : ℕ :=
  min (subU64 now dg.canonTime) (addU64 (asU64 since.unixTimestamp) dg.maxSinceUntil)

def updateLastSeen (timestamp : OffsetDateTime) : Code Unit := do
  let lastSeen ← getLastSeen
  if lastSeen < timestamp then setLastSeen timestamp else pure ()

/-- The loop over a batch, with the number of logs sent so far. -/
def processLogs : List DataGeneratorLog → ℕ → Code (Except Unit ℕ)
  | [], sentForProcessing => pure (.ok sentForProcessing)
  | log :: logs, sentForProcessing => do
    if ← wasAlreadySeen log.id then
      processLogs logs sentForProcessing
    else
      match ← sendForProcessing log with
      | .error _ => pure (.error ())
      | .ok _ => do
        markAlreadySeen log.id
        updateLastSeen log.timestamp
        processLogs logs (sentForProcessing + 1)

/-- The two inserts at the end of a batch; their errors are logged and dropped. -/
def storeState (text : JsonText) : Code Unit := do
  let lastSeen ← getLastSeen
  let _ ← storageInsert lastSeenKey (asBytes (toString lastSeen.nanos))
  let alreadySeen ← listAlreadySeen
  let _ ← storageInsert alreadySeenUuidsKey (text.toVec (encodeStrings alreadySeen))
  pure ()

abbrev Exit := Except Unit Unit

/-- One round of the loop of `get_and_process_dg_logs`: `none` goes round again, after the
sleep. -/
def getAndProcessDgLogs (text : JsonText) (dg : Config) (storage : Bool) : Code (Option Exit) := do
  let lastSeen ← getLastSeen
  let since := lastSeen.saturatingSub second
  let now ← getTime
  match fromUnixTimestamp (asI64 (windowEnd dg since now)) with
  | none => pure (some (.error ()))
  | some untilTime =>
    let lastSeen ← getLastSeen
    if untilTime < lastSeen then pure (some (.ok ()))
    else
      match ← fetchLogs since untilTime with
      | .error _ => pure (some (.error ()))
      | .ok logs =>
        if logs.isEmpty then pure (some (.ok ()))
        else
          match ← processLogs logs 0 with
          | .error _ => pure (some (.error ()))
          | .ok sentForProcessing =>
            if sentForProcessing = 0 then pure (some (.ok ()))
            else if storage then do
              storeState text
              pure none
            else pure none

/-- What the two readers of the storage share; they differ in how they parse a value. -/
def readFromStorage {α : Type} (parse : Bytes → Option α) (storage : Bool) (key : String) :
    Code (Option α) := do
  if storage then
    match ← storageGet key with
    | .error _ => pure none
    | .ok none => pure none
    | .ok (some res) => pure (parse res)
  else pure none

def readStringFromStorage : Bool → String → Code (Option String) := readFromStorage fromUtf8

def readVecFromStorage (text : JsonText) : Bool → String → Code (Option (List String)) :=
  readFromStorage fun res => (text.fromSlice res).bind decodeStrings

/-- `parse::<i128>` and the conversion to an instant; both fall back to the present. -/
def parseLastSeen (s : String) : Code OffsetDateTime :=
  match (Decimal.parseInt (-2 ^ 127) (2 ^ 127 - 1) s).bind fromUnixTimestampNanos with
  | some t => pure t
  | none => nowUtc

/-- The stored instant, moved up when it is too long ago. -/
def capLastSeen (dg : Config) (lastSeen now : OffsetDateTime) : OffsetDateTime :=
  if dg.maxCatchup < asU64 (wholeSeconds (now.nanos - lastSeen.nanos)) then
    now.saturatingSub (asI64 dg.maxCatchup * nanosPerSecond)
  else lastSeen

def markAll : List String → Code Unit
  | [] => pure ()
  | id :: ids => do
    markAlreadySeen id
    markAll ids

def updateDgFromStorage (text : JsonText) (dg : Config) (storage : Bool) : Code Unit := do
  let lastSeen ← readStringFromStorage storage lastSeenKey
  let seenLogsUuids ← readVecFromStorage text storage alreadySeenUuidsKey
  match lastSeen, seenLogsUuids with
  | some lastSeen, some seenLogsUuids => do
    let lastSeen ← parseLastSeen lastSeen
    let now ← nowUtc
    setLastSeen (capLastSeen dg lastSeen now)
    markAll seenLogsUuids
  -- nothing is found, or only half of the state: it is ignored
  | _, _ => pure ()

end programs

section world

/-- A generator with its surroundings: the ids seen last, the namespace it stores its state
in, the logs it has put into the channel (newest first), and the last clock reading. -/
structure World where
  lastSeen : OffsetDateTime
  seen : Cache String
  store : Content
  sent : List DataGeneratorLog
  clock : ℕ

/-- How a request turns out. -/
inductive Choice
  | ok
  | time (n : ℕ)
  | instant (t : OffsetDateTime)
  | logs (ls : List DataGeneratorLog)
  | fails
  | storageFails (e : StorageError)

def reply (w : World) : (e : Request) → Choice → Option (Reply e × World)
  | .getTime, .time n => if n < 2 ^ 64 then some (n, { w with clock := n }) else none
  | .nowUtc, .instant t => some (t, w)
  | .getLastSeen, .ok => some (w.lastSeen, w)
  | .setLastSeen v, .ok => some ((), { w with lastSeen := v })
  | .wasAlreadySeen id, .ok => some (w.seen.contains id, w)
  | .markAlreadySeen id, .ok => some ((), { w with seen := w.seen.put id })
  | .listAlreadySeen, .ok => some (w.seen.entries, w)
  | .fetchLogs _ _, .logs ls => some (.ok ls, w)
  | .fetchLogs _ _, .fails => some (.error (), w)
  | .sendForProcessing log, .ok => some (.ok (), { w with sent := log :: w.sent })
  | .sendForProcessing _, .fails => some (.error (), w)
  | .storageGet key, .ok => some (.ok (w.store.lookup key), w)
  | .storageGet _, .storageFails e => some (.error e, w)
  | .storageInsert key value, .ok =>
    some (.ok (w.store.lookup key), { w with store := w.store.insert key value })
  | .storageInsert _ _, .storageFails e => some (.error e, w)
  | _, _ => none

/-- The request stays inside the generator; nothing else runs meanwhile. -/
def Request.own : Request → Bool
  | .getLastSeen | .setLastSeen _ | .wasAlreadySeen _ | .markAlreadySeen _ | .listAlreadySeen => true
  | _ => false

/-- The generator as its constructor makes it. -/
def World.boot (dg : Config) (w : World) (now : OffsetDateTime) : World :=
  { w with lastSeen := now, seen := empty String dg.lruCacheSize }

/-- The world after a log has been sent and noted. -/
def World.note (w : World) (log : DataGeneratorLog) : World :=
  { w with
    sent := log :: w.sent
    seen := w.seen.put log.id
    lastSeen := max w.lastSeen log.timestamp }

/-- The first instant that is asked for. -/
def World.since (w : World) : OffsetDateTime := w.lastSeen.saturatingSub second

/-- The last instant that is asked for when the clock shows `n`. -/
def World.untilTime (dg : Config) (w : World) (n : ℕ) : Option OffsetDateTime :=
  fromUnixTimestamp (asI64 (windowEnd dg w.since n))

/-- What may be answered when the environment keeps to `A`. -/
def answers (A : World → Request → Choice → Prop) : Handler Request Reply World :=
  fun w e r t => ∃ o, A w e o ∧ reply w e o = some (r, t)

end world

section rules
variable {α : Type} {A : World → Request → Choice → Prop} {I : World → Request → Prop}
  {Q : α → World → Prop} {w : World}

theorem guards_perform {e : Request} {f : Reply e → Code α} (hI : I w e)
    (h : ∀ o r t, A w e o → reply w e o = some (r, t) → (f r).Guards (answers A) I Q t) :
    (perform e >>= f).Guards (answers A) I Q w :=
  ⟨hI, fun r t ⟨o, ha, ht⟩ => h o r t ha ht⟩

/-- The generator's own fields are read and written in one way. -/
theorem guards_own {e : Request} {f : Reply e → Code α} {r : Reply e} {t : World}
    (he : e.own = true) (hr : reply w e .ok = some (r, t)) (hI : I w e)
    (h : (f r).Guards (answers A) I Q t) : (perform e >>= f).Guards (answers A) I Q w := by
  refine guards_perform hI fun o r' t' _ ht => ?_
  have ho : o = .ok := by
    cases e <;> first
      | exact absurd he Bool.false_ne_true
      | cases o <;> first | rfl | cases ht
  subst ho
  rw [hr] at ht
  cases ht
  exact h

theorem guards_getTime {f : ℕ → Code α} (hI : I w .getTime)
    (h : ∀ n < 2 ^ 64, (f n).Guards (answers A) I Q { w with clock := n }) :
    (getTime >>= f).Guards (answers A) I Q w := by
  refine guards_perform hI fun o r t _ ht => ?_
  cases o with
  | time n =>
    simp only [reply] at ht
    split at ht
    · cases ht
      exact h _ ‹_›
    · cases ht
  | _ => cases ht

theorem guards_fetchLogs {since untilTime : OffsetDateTime}
    {f : Except Unit (List DataGeneratorLog) → Code α} (hI : I w (.fetchLogs since untilTime))
    (hok : ∀ ls, A w (.fetchLogs since untilTime) (.logs ls) →
      (f (.ok ls)).Guards (answers A) I Q w)
    (herr : (f (.error ())).Guards (answers A) I Q w) :
    (fetchLogs since untilTime >>= f).Guards (answers A) I Q w := by
  refine guards_perform hI fun o r t ha ht => ?_
  cases o with
  | logs ls =>
    cases ht
    exact hok ls ha
  | fails =>
    cases ht
    exact herr
  | _ => cases ht

theorem guards_sendForProcessing {log : DataGeneratorLog} {f : Except Unit Unit → Code α}
    (hI : I w (.sendForProcessing log))
    (hok : (f (.ok ())).Guards (answers A) I Q { w with sent := log :: w.sent })
    (herr : A w (.sendForProcessing log) .fails → (f (.error ())).Guards (answers A) I Q w) :
    (sendForProcessing log >>= f).Guards (answers A) I Q w := by
  refine guards_perform hI fun o r t ha ht => ?_
  cases o with
  | ok =>
    cases ht
    exact hok
  | fails =>
    cases ht
    exact herr ha
  | _ => cases ht

theorem guards_storageInsert {key : String} {value : Bytes}
    {f : Except StorageError (Option Bytes) → Code α} (hI : I w (.storageInsert key value))
    (hok : ∀ r, (f r).Guards (answers A) I Q { w with store := w.store.insert key value })
    (herr : ∀ e r, A w (.storageInsert key value) (.storageFails e) →
      (f r).Guards (answers A) I Q w) :
    (storageInsert key value >>= f).Guards (answers A) I Q w := by
  refine guards_perform hI fun o r t ha ht => ?_
  cases o with
  | ok =>
    cases ht
    exact hok _
  | storageFails e =>
    cases ht
    exact herr e _ ha
  | _ => cases ht

/-- `K n logs w`: `n` logs of the batch have been sent and `logs` are left. -/
structure LoopInvariant (I : World → Request → Prop) (K : ℕ → List DataGeneratorLog → World → Prop) :
    Prop where
  skip : ∀ {n log logs w}, K n (log :: logs) w → log.id ∈ w.seen.entries → K n logs w
  note : ∀ {n log logs w}, K n (log :: logs) w → log.id ∉ w.seen.entries →
    K (n + 1) logs (w.note log)
  looking : ∀ {n log logs w}, K n (log :: logs) w → I w (.wasAlreadySeen log.id)
  sending : ∀ {n log logs w}, K n (log :: logs) w → log.id ∉ w.seen.entries →
    I w (.sendForProcessing log)
  marking : ∀ {n log logs w}, K n (log :: logs) w → log.id ∉ w.seen.entries → ∀ e : Request,
    e.own = true → I { w with sent := log :: w.sent } e ∧
      I { w with sent := log :: w.sent, seen := w.seen.put log.id } e

theorem guards_updateLastSeen {timestamp : OffsetDateTime} {f : Unit → Code α}
    (hI : ∀ e : Request, e.own = true → I w e)
    (h : (f ()).Guards (answers A) I Q { w with lastSeen := max w.lastSeen timestamp }) :
    (updateLastSeen timestamp >>= f).Guards (answers A) I Q w := by
  rw [updateLastSeen, bind_assoc]
  refine guards_own rfl rfl (hI _ rfl) ?_
  split
  · rename_i hlt
    refine guards_own rfl rfl (hI _ rfl) ?_
    rwa [max_eq_right hlt.le] at h
  · rename_i hle
    rwa [max_eq_left (not_lt.mp hle)] at h

theorem guards_processLogs {K : ℕ → List DataGeneratorLog → World → Prop}
    {Q : Except Unit ℕ → World → Prop} (hK : LoopInvariant I K)
    (hend : ∀ n w, K n [] w → Q (.ok n) w)
    (hfail : ∀ n log logs w, K n (log :: logs) w → log.id ∉ w.seen.entries →
      A w (.sendForProcessing log) .fails → Q (.error ()) w)
    {n : ℕ} {logs : List DataGeneratorLog} {w : World} (h : K n logs w) :
    (processLogs logs n).Guards (answers A) I Q w := by
  induction logs generalizing n w with
  | nil => exact hend n w h
  | cons log logs ih =>
    rw [processLogs]
    refine guards_own rfl rfl (hK.looking h) ?_
    by_cases hseen : log.id ∈ w.seen.entries
    · rw [if_pos (contains_iff.mpr hseen)]
      exact ih (hK.skip h hseen)
    · rw [if_neg (fun hc => hseen (contains_iff.mp hc))]
      refine guards_sendForProcessing (hK.sending h hseen) ?_ (hfail n log logs w h hseen)
      refine guards_own rfl rfl (hK.marking h hseen _ rfl).1 ?_
      refine guards_updateLastSeen (fun e he => (hK.marking h hseen e he).2) ?_
      exact ih (hK.note h hseen)

/-- Whatever becomes of the two inserts, what both of them keep is kept. -/
theorem guards_storeState {text : JsonText} {J : World → Prop} (hI : ∀ w e, J w → I w e)
    (hlastSeen : ∀ w, J w → J { w with
      store := w.store.insert lastSeenKey (asBytes (toString w.lastSeen.nanos)) })
    (huuids : ∀ w, J w → J { w with
      store := w.store.insert alreadySeenUuidsKey (text.toVec (encodeStrings w.seen.entries)) })
    (h : J w) : (storeState text).Guards (answers A) I (fun _ => J) w := by
  have hsecond : ∀ t, J t → (do
      let alreadySeen ← listAlreadySeen
      let _ ← storageInsert alreadySeenUuidsKey (text.toVec (encodeStrings alreadySeen))
      pure () : Code Unit).Guards (answers A) I (fun _ => J) t := by
    intro t ht
    refine guards_own rfl rfl (hI t _ ht) ?_
    exact guards_storageInsert (hI t _ ht) (fun _ => huuids t ht) fun _ _ _ => ht
  rw [storeState]
  refine guards_own rfl rfl (hI w _ h) ?_
  refine guards_storageInsert (hI w _ h) (fun _ => ?_) fun _ _ _ => ?_
  · exact hsecond _ (hlastSeen w h)
  · exact hsecond w h

/-- The rounds of the loop: every exit, and the batches. -/
theorem guards_getAndProcessDgLogs {text : JsonText} {dg : Config} {storage : Bool}
    {Q : Option Exit → World → Prop} {R : World → Prop} (hown : I w .getLastSeen)
    (htime : I w .getTime)
    (hbad : ∀ n < 2 ^ 64, w.untilTime dg n = none → Q (some (.error ())) { w with clock := n })
    (hlook : ∀ n < 2 ^ 64, I { w with clock := n } .getLastSeen)
    (hwait : ∀ n < 2 ^ 64, ∀ u, w.untilTime dg n = some u → u < w.lastSeen →
      Q (some (.ok ())) { w with clock := n })
    (hask : ∀ n < 2 ^ 64, ∀ u, I { w with clock := n } (.fetchLogs w.since u))
    (hfetch : ∀ n < 2 ^ 64, Q (some (.error ())) { w with clock := n })
    (hbatch : ∀ n < 2 ^ 64, ∀ u, w.untilTime dg n = some u → w.lastSeen ≤ u → ∀ logs,
      A { w with clock := n } (.fetchLogs w.since u) (.logs logs) →
      (logs = [] → Q (some (.ok ())) { w with clock := n }) ∧
      (processLogs logs 0).Guards (answers A) I (fun r t =>
        (r = .error () → Q (some (.error ())) t) ∧ (r = .ok 0 → Q (some (.ok ())) t) ∧
        ∀ c, r = .ok (c + 1) → R t) { w with clock := n })
    (hnone : storage = false → ∀ t, R t → Q none t)
    (hstore : storage = true → ∀ t, R t → (storeState text).Guards (answers A) I (fun _ => Q none) t) :
    (getAndProcessDgLogs text dg storage).Guards (answers A) I Q w := by
  rw [getAndProcessDgLogs]
  refine guards_own rfl rfl hown ?_
  refine guards_getTime htime fun n hn => ?_
  split
  · rename_i hu
    exact hbad n hn hu
  rename_i u hu
  refine guards_own rfl rfl (hlook n hn) ?_
  split
  · rename_i hlt
    exact hwait n hn u hu hlt
  rename_i hle
  refine guards_fetchLogs (hask n hn u) (fun logs ha => ?_) (hfetch n hn)
  obtain ⟨hempty, hloop⟩ := hbatch n hn u hu (not_lt.mp hle) logs ha
  dsimp only
  split
  · rename_i hnil
    exact hempty (List.isEmpty_iff.mp hnil)
  refine (hloop.mono fun r t hr => ?_).bind
  obtain ⟨herr, hzero, hsome⟩ := hr
  cases r with
  | error e => exact herr rfl
  | ok c =>
    dsimp only
    split
    · rename_i hc
      exact hzero (congrArg _ hc)
    · rename_i hc
      have hR : R t := hsome (c - 1) (congrArg _ (by omega))
      split
      · rename_i hs
        exact (hstore hs t hR).bind
      · rename_i hs
        exact hnone (by simpa using hs) t hR

end rules

section machine

inductive Phase
  | down
  | up (code : Code (Option Exit))

/-- A generator that is booted, polled and killed; `stopped` is when it was killed last. -/
structure Machine where
  world : World
  phase : Phase
  stopped : Option OffsetDateTime

inductive Label
  /-- The constructor at `now`, then `update_dg_from_storage`; its requests turn out as listed. -/
  | boot (now : OffsetDateTime) (outcomes : List Choice)
  /-- The loop begins a round, in the same call or in the next one. -/
  | poll
  | answer (o : Choice)
  | crash (now : OffsetDateTime)

variable (text : JsonText) (dg : Config) (storage : Bool)

/-- A boot only reads the storage, so one that is cut short is no step. -/
def step (m : Machine) : Label → Option Machine
  | .boot now os =>
    match m.phase with
    | .down => ((updateDgFromStorage text dg storage).replay reply (m.world.boot dg now) os).map
        fun r => { m with world := r.2, phase := .up (.done none) }
    | .up _ => none
  | .poll =>
    match m.phase with
    | .up (.done _) => some { m with phase := .up (getAndProcessDgLogs text dg storage) }
    | _ => none
  | .answer o =>
    match m.phase with
    | .up (.request e next) =>
      (reply m.world e o).map fun r => { m with world := r.2, phase := .up (next r.1) }
    | _ => none
  | .crash now =>
    match m.phase with
    | .up _ => some { m with phase := .down, stopped := some now }
    | .down => none

/-- The requests are answered within `A`, the boots are within `B`, and whether the generator
may be killed. -/
def Permits (A : World → Request → Choice → Prop) (B : World → OffsetDateTime → List Choice → Prop)
    (crashes : Prop) (m : Machine) : Label → Prop
  | .boot now os => B m.world now os
  | .poll => True
  | .answer o =>
    match m.phase with
    | .up (.request e _) => A m.world e o
    | _ => True
  | .crash _ => crashes

theorem permits_mono {A A' : World → Request → Choice → Prop}
    {B : World → OffsetDateTime → List Choice → Prop} {crashes : Prop}
    (hA : ∀ w e o, A w e o → A' w e o) {m : Machine} {l : Label} (h : Permits A B crashes m l) :
    Permits A' B crashes m l := by
  rcases m with ⟨w, phase, stopped⟩
  cases l with
  | answer o =>
    cases phase with
    | down => trivial
    | up code =>
      cases code with
      | done r => trivial
      | request e next => exact hA w e o h
  | _ => exact h

theorem permits_boot {A : World → Request → Choice → Prop}
    {B B' : World → OffsetDateTime → List Choice → Prop} {crashes : Prop}
    (hB : ∀ {w now os}, B w now os → B' w now os) {m : Machine} {l : Label}
    (h : Permits A B crashes m l) : Permits A B' crashes m l := by
  cases l with
  | boot now os => exact hB h
  | _ => exact h

instance decidablePermits {A : World → Request → Choice → Prop}
    {B : World → OffsetDateTime → List Choice → Prop} {crashes : Prop} [∀ w e o, Decidable (A w e o)]
    [∀ w now os, Decidable (B w now os)] [Decidable crashes] :
    (m : Machine) → (l : Label) → Decidable (Permits A B crashes m l)
  | m, .boot now os => inferInstanceAs (Decidable (B m.world now os))
  | _, .poll => .isTrue trivial
  | ⟨w, .up (.request e _), _⟩, .answer o => inferInstanceAs (Decidable (A w e o))
  | ⟨_, .up (.done _), _⟩, .answer _ => .isTrue trivial
  | ⟨_, .down, _⟩, .answer _ => .isTrue trivial
  | _, .crash _ => inferInstanceAs (Decidable crashes)

/-- The generator is idle, or waits for the clock, the source, the channel or the storage. -/
def Phase.AtRest : Phase → Prop
  | .down => True
  | .up (.done _) => True
  | .up (.request e _) => e.own = false

/-- What holds of a machine whose rounds are guarded: `D` while it is down, `J` between rounds. -/
def Guarded (A : World → Request → Choice → Prop) (I : World → Request → Prop) (J D : World → Prop)
    (m : Machine) : Prop :=
  match m.phase with
  | .down => D m.world
  | .up code => code.Guards (answers A) I (fun _ => J) m.world

variable {text dg storage} {A : World → Request → Choice → Prop} {I : World → Request → Prop}
  {J D : World → Prop} {B : World → OffsetDateTime → List Choice → Prop} {crashes : Prop}

theorem step_guarded
    (hpoll : ∀ w, J w → (getAndProcessDgLogs text dg storage).Guards (answers A) I (fun _ => J) w)
    (hcrash : crashes → ∀ w, (J w → D w) ∧ ∀ e, I w e → D w)
    (hboot : ∀ w now os w', D w → B w now os →
      (updateDgFromStorage text dg storage).replay reply (w.boot dg now) os = some ((), w') → J w')
    {m m' : Machine} {l : Label} (h : Guarded A I J D m) (hl : Permits A B crashes m l)
    (hs : step text dg storage m l = some m') : Guarded A I J D m' := by
  rcases m with ⟨w, phase, stopped⟩
  cases l with
  | boot now os =>
    cases phase with
    | up code => cases hs
    | down =>
      obtain ⟨⟨u, w'⟩, hr, rfl⟩ := Option.map_eq_some_iff.mp hs
      exact hboot w now os w' h hl hr
  | poll =>
    cases phase with
    | down => cases hs
    | up code =>
      cases code with
      | done r =>
        cases hs
        exact hpoll w h
      | request e next => cases hs
  | answer o =>
    cases phase with
    | down => cases hs
    | up code =>
      cases code with
      | done r => cases hs
      | request e next =>
        obtain ⟨⟨r, w'⟩, hr, rfl⟩ := Option.map_eq_some_iff.mp hs
        exact h.2 r w' ⟨o, hl, hr⟩
  | crash now =>
    cases phase with
    | down => cases hs
    | up code =>
      cases hs
      cases code with
      | done r => exact (hcrash hl w).1 h
      | request e next => exact (hcrash hl w).2 e h.1

theorem run_guarded
    (hpoll : ∀ w, J w → (getAndProcessDgLogs text dg storage).Guards (answers A) I (fun _ => J) w)
    (hcrash : crashes → ∀ w, (J w → D w) ∧ ∀ e, I w e → D w)
    (hboot : ∀ w now os w', D w → B w now os →
      (updateDgFromStorage text dg storage).replay reply (w.boot dg now) os = some ((), w') → J w')
    {m m' : Machine} {ls : List Label} (h : Guarded A I J D m)
    (hls : Along (step text dg storage) (Permits A B crashes) m ls)
    (hr : run (step text dg storage) m ls = some m') : Guarded A I J D m' :=
  run_invariant_along (fun _ _ _ h hl hs => step_guarded hpoll hcrash hboot h hl hs) h hls hr

end machine
end PlaidRuntime.DataGenerator
