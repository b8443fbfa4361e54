import PlaidRuntime.GeneratorWindow

/-!
# What a boot restores

The state of a generator is stored as the text of a timestamp and the list of ids, newest
first. Booting replays that list through the cache, which turns its order round.
-/
namespace PlaidRuntime.GeneratorBoot
open StepMachine EffectProgram Prog MachineWord GuestMemory MessageCodec JsonStrings RecencyCache
open UtcInstant DataGenerator GeneratorDelivery GeneratorWindow OffsetDateTime

section stored

/-- The timestamp a boot would parse. -/
def storedLastSeen (w : World) : Option OffsetDateTime :=
  ((w.store.lookup lastSeenKey).bind fromUtf8).bind fun s =>
    (Decimal.parseInt (-2 ^ 127) (2 ^ 127 - 1) s).bind fromUnixTimestampNanos

/-- The ids a boot would read. -/
def storedUuids (text : JsonText) (w : World) : Option (List String) :=
  (w.store.lookup alreadySeenUuidsKey).bind fun b => (text.fromSlice b).bind decodeStrings

variable {text : JsonText} {dg : Config} {w w' : World}

theorem parse_nanos (t : OffsetDateTime) :
    (Decimal.parseInt (-2 ^ 127) (2 ^ 127 - 1) (toString t.nanos)).bind fromUnixTimestampNanos =
      some t := by
  have hlo : (-2 ^ 127 : ℤ) ≤ t.nanos := le_trans (by decide) t.lower
  have hhi : t.nanos ≤ 2 ^ 127 - 1 := le_trans t.upper (by decide)
  rw [Decimal.parseInt_toString hlo hhi, Option.bind_some, fromUnixTimestampNanos_self]

def insertKey (w : World) (key : String) (value : Bytes) : World :=
  { w with store := w.store.insert key value }

/-- The world with its state stored. -/
def persisted (text : JsonText) (w : World) : World :=
  insertKey (insertKey w lastSeenKey (asBytes (toString w.lastSeen.nanos))) alreadySeenUuidsKey
    (text.toVec (encodeStrings w.seen.entries))

theorem storedLastSeen_of_lookup {t : OffsetDateTime}
    (h : w.store.lookup lastSeenKey = some (asBytes (toString t.nanos))) :
    storedLastSeen w = some t := by
  simp only [storedLastSeen, h, Option.bind_some, fromUtf8_asBytes]
  exact parse_nanos t

theorem storedUuids_of_lookup {ids : List String} (htext : text.RoundTrips (encodeStrings ids))
    (h : w.store.lookup alreadySeenUuidsKey = some (text.toVec (encodeStrings ids))) :
    storedUuids text w = some ids := by
  simp only [storedUuids, h, Option.bind_some]
  rw [htext, Option.bind_some, decodeStrings_encodeStrings]

theorem storedLastSeen_insert {t : OffsetDateTime} :
    storedLastSeen (insertKey w lastSeenKey (asBytes (toString t.nanos))) = some t :=
  storedLastSeen_of_lookup (AList.lookup_insert _)

theorem storedLastSeen_insert_uuids {b : Bytes} :
    storedLastSeen (insertKey w alreadySeenUuidsKey b) = storedLastSeen w := by
  have hne : lastSeenKey ≠ alreadySeenUuidsKey := by decide
  simp only [storedLastSeen, insertKey, AList.lookup_insert_ne hne]

theorem storedUuids_insert {ids : List String} (htext : text.RoundTrips (encodeStrings ids)) :
    storedUuids text (insertKey w alreadySeenUuidsKey (text.toVec (encodeStrings ids))) = some ids :=
  storedUuids_of_lookup htext (AList.lookup_insert _)

theorem storedUuids_insert_lastSeen {b : Bytes} :
    storedUuids text (insertKey w lastSeenKey b) = storedUuids text w := by
  have hne : alreadySeenUuidsKey ≠ lastSeenKey := by decide
  simp only [storedUuids, insertKey, AList.lookup_insert_ne hne]

theorem replay_storeState :
    (storeState text).replay reply w [.ok, .ok, .ok, .ok] = some ((), persisted text w) := rfl

theorem persisted_lastSeen : storedLastSeen (persisted text w) = some w.lastSeen := by
  rw [persisted, storedLastSeen_insert_uuids, storedLastSeen_insert]

theorem persisted_uuids (htext : text.RoundTrips (encodeStrings w.seen.entries)) :
    storedUuids text (persisted text w) = some w.seen.entries :=
  storedUuids_insert htext

end stored

section boot
variable {text : JsonText} {dg : Config} {w w' : World} {os : List Choice}

theorem replay_perform {α : Type} {e : Request} {f : Reply e → Code α} {a : α}
    (h : (perform e >>= f).replay reply w os = some (a, w')) :
    ∃ o rest r t, os = o :: rest ∧ reply w e o = some (r, t) ∧
      (f r).replay reply t rest = some (a, w') :=
  replay_request h

theorem replay_readFromStorage {α : Type} {parse : Bytes → Option α} {key : String} {r : Option α}
    (h : (readFromStorage parse true key).replay reply w os = some (r, w')) :
    w' = w ∧ (os = [.ok] ∧ r = (w.store.lookup key).bind parse ∨
      r = none ∧ ∃ e, os = [.storageFails e]) := by
  obtain ⟨o, rest, res, t, rfl, hr, hrest⟩ := replay_perform h
  cases o with
  | ok =>
    cases hr
    cases hlookup : w.store.lookup key with
    | none =>
      simp only [hlookup] at hrest
      obtain ⟨rfl, rfl, rfl⟩ := replay_done hrest
      exact ⟨rfl, .inl ⟨rfl, rfl⟩⟩
    | some b =>
      simp only [hlookup] at hrest
      obtain ⟨rfl, rfl, rfl⟩ := replay_done hrest
      exact ⟨rfl, .inl ⟨rfl, rfl⟩⟩
  | storageFails e =>
    cases hr
    obtain ⟨rfl, rfl, rfl⟩ := replay_done hrest
    exact ⟨rfl, .inr ⟨rfl, e, rfl⟩⟩
  | _ => cases hr

theorem replay_readFromStorage_ok {α : Type} {parse : Bytes → Option α} {key : String} :
    (readFromStorage parse true key).replay reply w [.ok] =
      some ((w.store.lookup key).bind parse, w) := by
  have hget : (storageGet key).replay reply w [.ok] = some (.ok (w.store.lookup key), w) := rfl
  rw [readFromStorage, if_pos rfl]
  cases hlookup : w.store.lookup key with
  | none =>
    rw [hlookup] at hget
    exact replay_append hget rfl
  | some b =>
    rw [hlookup] at hget
    exact replay_append hget rfl

theorem replay_markAll {ids : List String}
    (h : (markAll ids).replay reply w os = some ((), w')) :
    w' = { w with seen := w.seen.putAll ids } := by
  induction ids generalizing w os with
  | nil =>
    obtain ⟨-, -, rfl⟩ := replay_done h
    rfl
  | cons id ids ih =>
    obtain ⟨o, rest, r, t, rfl, hr, hrest⟩ := replay_perform h
    cases o with
    | ok =>
      cases hr
      exact ih hrest
    | _ => cases hr

/-- A boot that reads both halves of the state ends up with the stored timestamp, or with a
later one, and with the ids put one after the other. -/
theorem replay_boot {now now' t : OffsetDateTime} {ids : List String} {rest : List Choice}
    (hlast : storedLastSeen w = some t) (huuids : storedUuids text w = some ids)
    (h : (updateDgFromStorage text dg true).replay reply (w.boot dg now)
      (.ok :: .ok :: .instant now' :: rest) = some ((), w')) :
    w' = { w with
      lastSeen := capLastSeen dg t now'
      seen := (empty String dg.lruCacheSize).putAll ids } := by
  rw [updateDgFromStorage] at h
  obtain ⟨os₁, rest₁, r₁, w₁, hos, hread, h⟩ := replay_bind h
  obtain ⟨rfl, ⟨rfl, rfl⟩ | ⟨-, e, rfl⟩⟩ := replay_readFromStorage hread
  swap
  · cases hos
  obtain ⟨os₂, rest₂, r₂, w₂, rfl, hvec, h⟩ := replay_bind h
  obtain ⟨rfl, ⟨rfl, rfl⟩ | ⟨-, e, rfl⟩⟩ := replay_readFromStorage hvec
  swap
  · cases hos
  obtain ⟨s, hs, hparse⟩ := Option.bind_eq_some_iff.mp hlast
  have huuids' : ((w.boot dg now).store.lookup alreadySeenUuidsKey).bind
      (fun b => (text.fromSlice b).bind decodeStrings) = some ids := huuids
  have hs' : ((w.boot dg now).store.lookup lastSeenKey).bind fromUtf8 = some s := hs
  rw [hs', huuids'] at h
  simp only [parseLastSeen, hparse] at h
  cases hos
  obtain ⟨o, rest₃, n, t₁, ho, hr, h⟩ := replay_perform h
  cases ho
  cases hr
  obtain ⟨o, rest₄, u, t₂, ho, hr, h⟩ := replay_perform h
  cases o with
  | ok =>
    cases hr
    exact replay_markAll h
  | _ => cases hr

/-- However its reads turn out, a boot keeps what the constructor has set, or puts the stored ids
into the cache. -/
theorem replay_boot_cases {now : OffsetDateTime}
    (h : (updateDgFromStorage text dg true).replay reply (w.boot dg now) os = some ((), w')) :
    w' = w.boot dg now ∨ ∃ ids t, storedUuids text w = some ids ∧
      w' = { w with lastSeen := t, seen := (empty String dg.lruCacheSize).putAll ids } := by
  rw [updateDgFromStorage] at h
  obtain ⟨os₁, rest₁, r₁, w₁, rfl, hread, h⟩ := replay_bind h
  obtain ⟨rfl, -⟩ := replay_readFromStorage hread
  obtain ⟨os₂, rest₂, r₂, w₂, rfl, hvec, h⟩ := replay_bind h
  obtain ⟨rfl, hr₂⟩ := replay_readFromStorage hvec
  cases r₁ with
  | none =>
    obtain ⟨-, -, rfl⟩ := replay_done h
    exact .inl rfl
  | some s =>
    cases r₂ with
    | none =>
      obtain ⟨-, -, rfl⟩ := replay_done h
      exact .inl rfl
    | some ids =>
      rcases hr₂ with ⟨-, hids⟩ | ⟨hnone, -⟩
      swap
      · cases hnone
      obtain ⟨os₃, rest₃, last, w₃, rfl, hlast, h⟩ := replay_bind h
      have hkept : w₃ = w.boot dg now := by
        unfold parseLastSeen at hlast
        split at hlast
        · exact (replay_done hlast).2.2
        · obtain ⟨o, rest, n, t, rfl, hr, hlast⟩ := replay_request hlast
          cases o with
          | instant n =>
            cases hr
            exact (replay_done hlast).2.2
          | _ => cases hr
      subst hkept
      obtain ⟨o, rest₄, n, t₁, rfl, hr, h⟩ := replay_perform h
      cases o with
      | instant n =>
        cases hr
        obtain ⟨o, rest₅, u, t₂, rfl, hr, h⟩ := replay_perform h
        cases o with
        | ok =>
          cases hr
          exact .inr ⟨ids, capLastSeen dg last n, hids.symm, replay_markAll h⟩
        | _ => cases hr
      | _ => cases hr

theorem replay_marks {ids : List String} :
    (markAll ids).replay reply w (List.replicate ids.length .ok) =
      some ((), { w with seen := w.seen.putAll ids }) := by
  induction ids generalizing w with
  | nil => rfl
  | cons id ids ih =>
    rw [List.length_cons, List.replicate_succ]
    exact @ih { w with seen := w.seen.put id }

/-- Such a boot comes to its end. -/
theorem replay_boot_some {now now' t : OffsetDateTime} {ids : List String}
    (hlast : storedLastSeen w = some t) (huuids : storedUuids text w = some ids) :
    ∃ w', (updateDgFromStorage text dg true).replay reply (w.boot dg now)
      (.ok :: .ok :: .instant now' :: .ok :: List.replicate ids.length .ok) = some ((), w') := by
  obtain ⟨s, hs, hparse⟩ := Option.bind_eq_some_iff.mp hlast
  have hread : (readStringFromStorage true lastSeenKey).replay reply (w.boot dg now) [.ok] =
      some (some s, w.boot dg now) := by
    rw [← hs]
    exact replay_readFromStorage_ok
  have hvec : (readVecFromStorage text true alreadySeenUuidsKey).replay reply (w.boot dg now) [.ok] =
      some (some ids, w.boot dg now) := by
    rw [← huuids]
    exact replay_readFromStorage_ok
  refine ⟨{ w with
    lastSeen := capLastSeen dg t now'
    seen := (empty String dg.lruCacheSize).putAll ids }, ?_⟩
  refine replay_append hread (replay_append hvec ?_)
  simp only [parseLastSeen, hparse]
  exact replay_marks

end boot

section cap
variable {dg : Config} {t now : OffsetDateTime}

theorem capLastSeen_of_le (h : asU64 (wholeSeconds (now.nanos - t.nanos)) ≤ dg.maxCatchup) :
    capLastSeen dg t now = t :=
  if_neg (not_lt.mpr h)

/-- A timestamp that is moved is not moved onto itself. -/
theorem capLastSeen_eq_iff :
    capLastSeen dg t now = t ↔ asU64 (wholeSeconds (now.nanos - t.nanos)) ≤ dg.maxCatchup := by
  constructor
  · intro heq
    by_contra hlt
    rw [capLastSeen, if_pos (not_le.mp hlt), asI64_of_lt dg.maxCatchup_lt] at heq
    have hnanos : max minNanos (min maxNanos (now.nanos - dg.maxCatchup * nanosPerSecond)) = t.nanos :=
      congrArg OffsetDateTime.nanos heq
    have hlow := t.lower
    have hup := now.upper
    have hnow := now.lower
    have hsec : nanosPerSecond = 1000000000 := rfl
    rw [hsec] at hnanos
    rcases lt_or_ge now.nanos t.nanos with hpast | hfuture
    · omega
    · have hpos : 0 ≤ now.nanos - t.nanos := by omega
      have hws : wholeSeconds (now.nanos - t.nanos) = (now.nanos - t.nanos) / nanosPerSecond := by
        rw [wholeSeconds, Int.tdiv_eq_ediv_of_nonneg hpos]
      have hws0 : 0 ≤ wholeSeconds (now.nanos - t.nanos) := by
        rw [hws]
        exact Int.ediv_nonneg hpos (by decide)
      have hrange : wholeSeconds (now.nanos - t.nanos) < 2 ^ 64 := by
        have hspan : maxNanos - minNanos < 2 ^ 63 * 1000000000 := by decide
        rw [hws, hsec]
        omega
      have hcast := asU64_of_nonneg hws0 hrange
      rw [hws, hsec] at hcast
      rw [hws, hsec] at hlt
      omega
  · exact capLastSeen_of_le

end cap

theorem reverse_eq_self_iff {α : Type} {l : List α} (hl : l.Nodup) :
    l.reverse = l ↔ l.length ≤ 1 := by
  constructor
  · intro h
    match l, hl, h with
    | [], _, _ => simp
    | [x], _, _ => simp
    | x :: y :: rest, hl, h =>
      have hhead : (x :: y :: rest).reverse.head? = some x := by
        rw [h]
        rfl
      rw [List.head?_reverse, List.getLast?_cons_cons] at hhead
      have hmem : x ∈ y :: rest := List.mem_of_getLast? hhead
      exact absurd hmem (List.nodup_cons.mp hl).1
  · intro h
    match l, h with
    | [], _ => rfl
    | [x], _ => rfl
    | x :: y :: rest, h => simp at h

/-- The restarted generator cannot be told from the one that went on. -/
structure Transparent (text : JsonText) (dg : Config) (before after : World) : Prop where
  lastSeen : after.lastSeen = before.lastSeen
  ids : ∀ id, id ∈ after.seen.entries ↔ id ∈ before.seen.entries
  order : after.seen.entries = before.seen.entries
  later : ∀ ls, (run (step text dg true) ⟨after, .up (.done none), none⟩ ls).map
    (fun m => m.world.sent) =
      (run (step text dg true) ⟨before, .up (.done none), none⟩ ls).map fun m => m.world.sent

/-- Storing the state and booting from it goes unnoticed exactly when at most one id is
remembered and the last timestamp is recent enough. -/
theorem restart_transparent_iff (text : JsonText) (dg : Config) (w before after : World)
    (now now' : OffsetDateTime) (rest : List Choice) (hcapacity : w.seen.capacity = dg.lruCacheSize)
    (htext : text.RoundTrips (encodeStrings w.seen.entries))
    (hstore : (storeState text).replay reply w [.ok, .ok, .ok, .ok] = some ((), before))
    (hboot : (updateDgFromStorage text dg true).replay reply (before.boot dg now)
      (.ok :: .ok :: .instant now' :: rest) = some ((), after)) :
    Transparent text dg before after ↔
      w.seen.entries.length ≤ 1 ∧
        asU64 (wholeSeconds (now'.nanos - w.lastSeen.nanos)) ≤ dg.maxCatchup := by
  have hbefore : before = persisted text w := by
    rw [replay_storeState] at hstore
    cases hstore
    rfl
  have hstored : storedLastSeen before = some w.lastSeen := by
    rw [hbefore, persisted_lastSeen]
  have huuids : storedUuids text before = some w.seen.entries := by
    rw [hbefore, persisted_uuids htext]
  have hafter := replay_boot hstored huuids hboot
  have hentries : after.seen.entries = w.seen.entries.reverse := by
    rw [hafter, ← hcapacity]
    exact putAll_listing w.seen
  have hlast : after.lastSeen = capLastSeen dg w.lastSeen now' := by
    rw [hafter]
  have hseen : before.seen = w.seen := by
    rw [hbefore]
    rfl
  have hsame : before.lastSeen = w.lastSeen := by
    rw [hbefore]
    rfl
  constructor
  · intro h
    constructor
    · rw [← reverse_eq_self_iff w.seen.nodup, ← hentries, h.order, hseen]
    · rw [← capLastSeen_eq_iff, ← hlast, h.lastSeen, hsame]
  · rintro ⟨hshort, hrecent⟩
    have hlast' : after.lastSeen = before.lastSeen := by
      rw [hlast, capLastSeen_of_le hrecent, hsame]
    have horder : after.seen.entries = before.seen.entries := by
      rw [hentries, hseen]
      exact (reverse_eq_self_iff w.seen.nodup).mpr hshort
    have heq : after = before := by
      have hcap : after.seen.capacity = before.seen.capacity := by
        rw [hseen, hcapacity, hafter, putAll_capacity]
        rfl
      have hcache : after.seen = before.seen := Cache.ext_entries hcap horder
      rw [hafter] at hlast' hcache ⊢
      cases before
      simp only at hlast' hcache
      subst hlast' hcache
      rfl
    exact ⟨hlast', fun id => by rw [horder], horder, fun ls => by rw [heq]⟩

section instances

/-- Two logs within half a second, and a third one that comes after a restart. -/
def threeLogs : List DataGeneratorLog :=
  [sampleLog "a" 1010000, sampleLog "b" 1010500, sampleLog "c" 1011200]

def lastTwo : List DataGeneratorLog := [sampleLog "b" 1010500, sampleLog "c" 1011200]

/-- The first two logs are sent. -/
def firstRound : List Choice :=
  [.ok, .time 1031, .ok, .logs [sampleLog "a" 1010000, sampleLog "b" 1010500]] ++
    List.replicate 14 .ok

/-- The third log is sent. -/
def thirdLogRound : List Choice := [.ok, .time 1040, .ok, .logs threeLogs] ++ List.replicate 11 .ok

/-- The last two logs are fetched again and both are known. -/
def knownRound : List Choice := [.ok, .time 1050, .ok, .logs lastTwo, .ok, .ok]

/-- The last two logs are fetched again and the older one is taken for new. -/
def forgottenRound : List Choice := [.ok, .time 1050, .ok, .logs lastTwo] ++ List.replicate 9 .ok

def runningWorld : World := ranTo threeLogs firstRound bootedWorld

/-- The generator booted from the state that is stored. -/
def rebooted (w : World) (now : OffsetDateTime) : World :=
  { persisted stringsText w with
    lastSeen := capLastSeen resumedConfig w.lastSeen now
    seen := (empty String resumedConfig.lruCacheSize).putAll w.seen.entries }

theorem reboots (w : World) (now now' : OffsetDateTime) :
    (updateDgFromStorage stringsText resumedConfig true).replay reply
      ((persisted stringsText w).boot resumedConfig now)
      (.ok :: .ok :: .instant now' :: .ok :: List.replicate w.seen.entries.length .ok) =
        some ((), rebooted w now') := by
  have huuids := @persisted_uuids stringsText w (stringsText_roundTrips _)
  obtain ⟨w', hw'⟩ := @replay_boot_some stringsText resumedConfig (persisted stringsText w)
    now now' _ _ persisted_lastSeen huuids
  rw [replay_boot persisted_lastSeen huuids hw'] at hw'
  exact hw'

/-- After one log nothing is lost by a restart. -/
theorem single_log_transparent :
    ∃ before after : World,
      (storeState stringsText).replay reply (ranTo [busyLog] busyRound bootedWorld)
        [.ok, .ok, .ok, .ok] = some ((), before) ∧
      (updateDgFromStorage stringsText resumedConfig true).replay reply
        (before.boot resumedConfig (instant 1034000))
        [.ok, .ok, .instant (instant 1035000), .ok, .ok] = some ((), after) ∧
      Transparent stringsText resumedConfig before after := by
  have hlen : (ranTo [busyLog] busyRound bootedWorld).seen.entries.length = 1 := by decide +kernel
  have hboot := reboots (ranTo [busyLog] busyRound bootedWorld) (instant 1034000) (instant 1035000)
  rw [hlen] at hboot
  refine ⟨_, _, replay_storeState, hboot, ?_⟩
  refine (restart_transparent_iff stringsText resumedConfig (ranTo [busyLog] busyRound bootedWorld)
    _ _ (instant 1034000) (instant 1035000) _ (by decide +kernel) (stringsText_roundTrips _)
    replay_storeState hboot).mpr ⟨hlen.le, ?_⟩
  decide +kernel

/-- In the same source the generator that went on sends each log once, and the one that was
restarted sends the second log again. -/
theorem restart_resends :
    ∃ src : Source, ∃ w before after kept resent : World,
      Exec (answers (Fetching src)) (getAndProcessDgLogs stringsText resumedConfig true) bootedWorld
        none w ∧
      (storeState stringsText).replay reply w [.ok, .ok, .ok, .ok] = some ((), before) ∧
      (updateDgFromStorage stringsText resumedConfig true).replay reply
        (before.boot resumedConfig (instant 1034000))
        [.ok, .ok, .instant (instant 1035000), .ok, .ok, .ok] = some ((), after) ∧
      after.lastSeen = before.lastSeen ∧
      before.seen.entries = ["b", "a"] ∧ after.seen.entries = ["a", "b"] ∧
      Call stringsText resumedConfig true (answers (Fetching src)) before (.ok ()) kept ∧
      kept.sent.map DataGeneratorLog.id = ["c", "b", "a"] ∧
      Call stringsText resumedConfig true (answers (Fetching src)) after (.ok ()) resent ∧
      resent.sent.map DataGeneratorLog.id = ["b", "c", "b", "a"] := by
  have hunique : ∀ x ∈ threeLogs, ∀ y ∈ threeLogs, x.id = y.id → x = y := by decide
  have hentries : runningWorld.seen.entries = ["b", "a"] := by decide +kernel
  have hboot := reboots runningWorld (instant 1034000) (instant 1035000)
  rw [hentries] at hboot
  have hkept : Call stringsText resumedConfig true (answers (Fetching (sourceOf threeLogs hunique)))
      (persisted stringsText runningWorld) (.ok ())
      (ranTo threeLogs knownRound
        (ranTo threeLogs thirdLogRound (persisted stringsText runningWorld))) :=
    .again (exec_roundOf hunique (by decide +kernel))
      (.exit (exec_roundOf hunique (by decide +kernel)))
  have hresent : Call stringsText resumedConfig true (answers (Fetching (sourceOf threeLogs hunique)))
      (rebooted runningWorld (instant 1035000)) (.ok ())
      (ranTo threeLogs knownRound
        (ranTo threeLogs forgottenRound
          (ranTo threeLogs thirdLogRound (rebooted runningWorld (instant 1035000))))) :=
    .again (exec_roundOf hunique (by decide +kernel))
      (.again (exec_roundOf hunique (by decide +kernel))
        (.exit (exec_roundOf hunique (by decide +kernel))))
  refine ⟨sourceOf threeLogs hunique, runningWorld, persisted stringsText runningWorld,
    rebooted runningWorld (instant 1035000), _, _, exec_roundOf hunique (by decide +kernel),
    replay_storeState, hboot, ?_, hentries, ?_, hkept, ?_, hresent, ?_⟩
  · decide +kernel
  · decide +kernel
  · decide +kernel
  · decide +kernel

end instances
end PlaidRuntime.GeneratorBoot
