import PlaidRuntime.LogbackMessage
import PlaidRuntime.StorageProvider

/-!
# Persisting delayed messages

Delayed messages are stored as JSON (`persist_delayed_log`) and read back before each poll
(`fill_heap_from_db`, `data/internal/mod.rs`). Encoding is unbounded; the adapters of
`executor/mod.rs` check sizes and counts on decoding only.
-/
namespace PlaidRuntime.MessageCodec
open GuestMemory MachineWord StorageProvider LogbackMessage

/-- `other` is a number that is no natural number, as it is written. -/
inductive Json
  | null
  | bool (b : Bool)
  | num (n : ℕ)
  | other (number : String)
  | str (s : String)
  | arr (items : List Json)
  | obj (fields : List (String × Json))

/-- The text level, `serde_json::to_vec` and `serde_json::from_slice`. -/
structure JsonText where
  toVec : Json → Bytes
  fromSlice : Bytes → Option Json

/-- Writing a value and parsing the text gives the value back. -/
def JsonText.RoundTrips (text : JsonText) (j : Json) : Prop := text.fromSlice (text.toVec j) = some j

def maxBytes : ℕ := 5 * 1024 * 1024
def maxEntries : ℕ := 20
def maxKeyLen : ℕ := 100

section encode

def encodeBytes (b : Bytes) : Json := .arr (b.map fun x => .num x.toNat)

def encodeMap (m : ByteMap) : Json := .obj (m.entries.map fun e => (e.1, encodeBytes e.2))

def encodeGenerator : Generator → Json
  | .github => .str "Github"
  | .okta => .str "Okta"
  | .interval job => .obj [("Interval", .str job)]
  | .sqs name => .obj [("SQS", .str name)]
  | .webSocketExternal ws => .obj [("WebSocketExternal", .str ws)]

def encodeSource : LogSource → Json
  | .generator g => .obj [("Generator", encodeGenerator g)]
  | .webhookPost w => .obj [("WebhookPost", .str w)]
  | .webhookGet w => .obj [("WebhookGet", .str w)]
  | .logback m => .obj [("Logback", .str m)]

def encodeAllowed : LogbacksAllowed → Json
  | .unlimited => .str "Unlimited"
  | .limited n => .obj [("Limited", .num n.toNat)]

/-- The derived serializer; `response_sender` and `module` are skipped. -/
def encodeMessage (m : Message) : Json :=
  .obj [("id", .str m.id), ("type_", .str m.type_), ("data", encodeBytes m.data),
    ("headers", encodeMap m.headers), ("query_params", encodeMap m.queryParams),
    ("source", encodeSource m.source), ("logbacks_allowed", encodeAllowed m.logbacksAllowed)]

def encodeDelayed (d : DelayedMessage) : Json :=
  .obj [("delay", .num d.delay), ("message", encodeMessage d.message)]

end encode

section decode

def decodeU8 : Json → Option UInt8
  | .num n => if n < 2 ^ 8 then some (UInt8.ofNat n) else none
  | _ => none

def decodeBytes : Json → Option Bytes
  | .arr items => items.mapM decodeU8
  | _ => none

/-- `VecMax<MAX_BYTES>`. -/
def decodeVecMax (j : Json) : Option Bytes :=
  (decodeBytes j).bind fun v => if maxBytes < v.length then none else some v

def decodeString : Json → Option String
  | .str s => some s
  | _ => none

/-- The entries in turn; a repeated key is overwritten. -/
def decodeEntries : List (String × Json) → ByteMap → Option ByteMap
  | [], m => some m
  | (k, v) :: fields, m => (decodeVecMax v).bind fun b => decodeEntries fields (m.insert k b)

def mapWithLimits : Json → Option ByteMap
  | .obj fields => (decodeEntries fields ∅).bind fun m =>
    if maxEntries < m.entries.length then none
    else if m.entries.any fun e => maxKeyLen < e.1.length then none
    else some m
  | _ => none

def decodeGenerator : Json → Option Generator
  | .str "Github" => some .github
  | .str "Okta" => some .okta
  | .obj [("Github", .null)] => some .github
  | .obj [("Okta", .null)] => some .okta
  | .obj [("Interval", j)] => (decodeString j).map .interval
  | .obj [("SQS", j)] => (decodeString j).map .sqs
  | .obj [("WebSocketExternal", j)] => (decodeString j).map .webSocketExternal
  | _ => none

def decodeSource : Json → Option LogSource
  | .obj [("Generator", j)] => (decodeGenerator j).map .generator
  | .obj [("WebhookPost", j)] => (decodeString j).map .webhookPost
  | .obj [("WebhookGet", j)] => (decodeString j).map .webhookGet
  | .obj [("Logback", j)] => (decodeString j).map .logback
  | _ => none

def decodeU32 : Json → Option UInt32
  | .num n => if n < 2 ^ 32 then some (UInt32.ofNat n) else none
  | _ => none

def decodeU64 : Json → Option ℕ
  | .num n => if n < 2 ^ 64 then some n else none
  | _ => none

def decodeAllowed : Json → Option LogbacksAllowed
  | .str "Unlimited" => some .unlimited
  | .obj [("Unlimited", .null)] => some .unlimited
  | .obj [("Limited", j)] => (decodeU32 j).map .limited
  | _ => none

/-- All values given for a field. -/
def fieldValues (j : Json) (name : String) : List Json :=
  match j with
  | .obj fields => (fields.filter fun f => f.1 = name).map Prod.snd
  | _ => []

/-- A field of a derived struct: missing and repeated fields are errors. -/
def field (j : Json) (name : String) : Option Json :=
  match fieldValues j name with
  | [v] => some v
  | _ => none

/-- A map field with `default`: it may be missing. -/
def mapField (j : Json) (name : String) : Option ByteMap :=
  match fieldValues j name with
  | [] => some ∅
  | [v] => mapWithLimits v
  | _ => none

/-- A derived struct is also read from an array, which gives every field in its place. -/
def inOrder (names : List String) : Json → Json
  | .arr items => if items.length ≤ names.length then .obj (names.zip items) else .null
  | j => j

def decodeMessage (j : Json) : Option Message := do
  let j := inOrder
    ["id", "type_", "data", "headers", "query_params", "source", "logbacks_allowed"] j
  let id ← (← field j "id") |> decodeString
  let type_ ← (← field j "type_") |> decodeString
  let data ← (← field j "data") |> decodeVecMax
  let headers ← mapField j "headers"
  let queryParams ← mapField j "query_params"
  let source ← (← field j "source") |> decodeSource
  let logbacksAllowed ← (← field j "logbacks_allowed") |> decodeAllowed
  return ⟨id, type_, data, headers, queryParams, source, logbacksAllowed, none⟩

def decodeDelayed (j : Json) : Option DelayedMessage := do
  let j := inOrder ["delay", "message"] j
  let delay ← (← field j "delay") |> decodeU64
  let message ← (← field j "message") |> decodeMessage
  return ⟨delay, message⟩

end decode

section persist
variable (text : JsonText)

def logbackNs : String := "logback_internal"

/-- What `persist_delayed_log` stores, and under which key. -/
def persistDelayedLog (now : ℕ) (log : DelayedMessage) : BackendRequest :=
  let log := { log with delay := addU64 log.delay now }
  .insert logbackNs log.message.id (text.toVec (encodeDelayed log))

/-- The entries of the heap; values that do not parse are skipped. -/
def fillHeapFromDb (all : Listing) : List DelayedMessage :=
  all.filterMap fun e => e.2.bind fun value => (text.fromSlice value).bind decodeDelayed

end persist

section roundtrip

theorem decodeU8_num (x : UInt8) : decodeU8 (.num x.toNat) = some x := by
  have hx : x.toNat < 2 ^ 8 := x.toNat_lt
  simp only [decodeU8, if_pos hx, UInt8.ofNat_toNat]

theorem decodeU64_num {n : ℕ} (h : n < 2 ^ 64) : decodeU64 (.num n) = some n := if_pos h

theorem decodeBytes_encodeBytes (b : Bytes) : decodeBytes (encodeBytes b) = some b := by
  simp only [encodeBytes, decodeBytes]
  induction b with
  | nil => rfl
  | cons x b ih => simp [decodeU8_num, ih]

theorem decodeVecMax_encodeBytes (b : Bytes) :
    decodeVecMax (encodeBytes b) = if maxBytes < b.length then none else some b := by
  rw [decodeVecMax, decodeBytes_encodeBytes, Option.bind_some]

theorem decodeSource_encodeSource (src : LogSource) : decodeSource (encodeSource src) = some src := by
  cases src with
  | generator g => cases g <;> rfl
  | _ => rfl

theorem decodeAllowed_encodeAllowed (l : LogbacksAllowed) :
    decodeAllowed (encodeAllowed l) = some l := by
  cases l with
  | unlimited => rfl
  | limited n =>
    have hn : n.toNat < 2 ^ 32 := n.toNat_lt
    simp only [encodeAllowed, decodeAllowed, decodeU32, if_pos hn, UInt32.ofNat_toNat,
      Option.map_some]

theorem mapWithLimits_empty : mapWithLimits (encodeMap ∅) = some ∅ := rfl

/-- A message without headers and query parameters is read back exactly when its data is
within the limit of the decoder. -/
theorem decodeMessage_encodeMessage {m : Message} (hh : m.headers = ∅) (hq : m.queryParams = ∅) :
    decodeMessage (encodeMessage m) =
      if maxBytes < m.data.length then none else some m.createDuplicate := by
  rcases m with ⟨id, type_, data, headers, queryParams, source, allowed, module⟩
  simp only at hh hq
  subst hh hq
  have hfields : decodeMessage (encodeMessage ⟨id, type_, data, ∅, ∅, source, allowed, module⟩) =
      (decodeVecMax (encodeBytes data)).bind fun data =>
        some ⟨id, type_, data, ∅, ∅, source, allowed, none⟩ := by
    simp [decodeMessage, encodeMessage, inOrder, field, mapField, fieldValues, decodeString,
      mapWithLimits_empty, decodeSource_encodeSource, decodeAllowed_encodeAllowed]
  rw [hfields, decodeVecMax_encodeBytes]
  split <;> rfl

/-- The heap entry carries everything of the message that is persisted. -/
structure SameMessage (m d : Message) : Prop where
  id : d.id = m.id
  type_ : d.type_ = m.type_
  data : d.data = m.data
  headers : d.headers = m.headers
  queryParams : d.queryParams = m.queryParams
  source : d.source = m.source
  logbacksAllowed : d.logbacksAllowed = m.logbacksAllowed

theorem decodeDelayed_encodeDelayed {d : DelayedMessage} (hd : d.delay < 2 ^ 64)
    (hh : d.message.headers = ∅) (hq : d.message.queryParams = ∅) :
    decodeDelayed (encodeDelayed d) =
      if maxBytes < d.message.data.length then none
      else some ⟨d.delay, d.message.createDuplicate⟩ := by
  have hfields : decodeDelayed (encodeDelayed d) =
      (decodeMessage (encodeMessage d.message)).bind fun message => some ⟨d.delay, message⟩ := by
    simp [decodeDelayed, encodeDelayed, inOrder, field, fieldValues, decodeU64_num hd]
  rw [hfields, decodeMessage_encodeMessage hh hq]
  split <;> rfl

end roundtrip

section limits
variable {m m' : ByteMap} {j : Json} {fields : List (String × Json)}

/-- What `map_with_limits` lets through. -/
structure MapWithin (m : ByteMap) : Prop where
  entries : m.entries.length ≤ maxEntries
  keys : ∀ k ∈ m, k.length ≤ maxKeyLen
  values : ∀ k b, m.lookup k = some b → b.length ≤ maxBytes

structure WithinLimits (m : Message) : Prop where
  data : m.data.length ≤ maxBytes
  headers : MapWithin m.headers
  queryParams : MapWithin m.queryParams

theorem decodeVecMax_length {b : Bytes} (h : decodeVecMax j = some b) : b.length ≤ maxBytes := by
  obtain ⟨v, -, hv⟩ := Option.bind_eq_some_iff.mp h
  split_ifs at hv with hbig
  obtain rfl := Option.some.inj hv
  exact Nat.le_of_not_lt hbig

theorem decodeEntries_values (h : decodeEntries fields m = some m')
    (hm : ∀ k b, m.lookup k = some b → b.length ≤ maxBytes) :
    ∀ k b, m'.lookup k = some b → b.length ≤ maxBytes := by
  induction fields generalizing m with
  | nil =>
    obtain rfl := Option.some.inj h
    exact hm
  | cons e fields ih =>
    obtain ⟨v, hv, hrest⟩ := Option.bind_eq_some_iff.mp h
    refine ih hrest fun k b hk => ?_
    by_cases hke : k = e.1
    · rw [hke, AList.lookup_insert] at hk
      exact Option.some.inj hk ▸ decodeVecMax_length hv
    · rw [AList.lookup_insert_ne hke] at hk
      exact hm k b hk

theorem mapWithin_empty : MapWithin ∅ where
  entries := Nat.zero_le _
  keys k hk := absurd hk (AList.notMem_empty k)
  values k b hk := by simp at hk

theorem mapWithLimits_within (h : mapWithLimits j = some m) : MapWithin m := by
  cases j with
  | obj fields =>
    obtain ⟨m', hm', hlimits⟩ := Option.bind_eq_some_iff.mp h
    split_ifs at hlimits with hentries hkeys
    obtain rfl := Option.some.inj hlimits
    refine ⟨Nat.le_of_not_lt hentries, fun k hk => ?_, decodeEntries_values hm' mapWithin_empty.values⟩
    obtain ⟨e, he, rfl⟩ := List.mem_map.mp (AList.mem_keys.mp hk)
    by_contra hlong
    exact hkeys (List.any_eq_true.mpr ⟨e, he, by simpa using hlong⟩)
  | _ => cases h

theorem mapField_within {name : String} (h : mapField j name = some m) : MapWithin m := by
  unfold mapField at h
  split at h
  · exact Option.some.inj h ▸ mapWithin_empty
  · exact mapWithLimits_within h
  · cases h

/-- Entries that were written are read one by one, and none is added. -/
theorem decodeEntries_encoded {l : List (Sigma fun _ : String => Bytes)}
    (hl : ∀ e ∈ l, e.2.length ≤ maxBytes) :
    ∃ m', decodeEntries (l.map fun e => (e.1, encodeBytes e.2)) m = some m' ∧
      m'.entries.length ≤ m.entries.length + l.length ∧ ∀ k ∈ m', k ∈ m ∨ ∃ e ∈ l, e.1 = k := by
  induction l generalizing m with
  | nil => exact ⟨m, rfl, Nat.le_refl _, fun k hk => Or.inl hk⟩
  | cons e l ih =>
    obtain ⟨m', hm', hlen, hkeys⟩ := @ih (m.insert e.1 e.2) fun e' he' => hl e' (List.mem_cons_of_mem _ he')
    have hvalue : decodeVecMax (encodeBytes e.2) = some e.2 := by
      rw [decodeVecMax_encodeBytes, if_neg (Nat.not_lt.mpr (hl e List.mem_cons_self))]
    have hinsert : (m.insert e.1 e.2).entries.length ≤ m.entries.length + 1 := by
      rw [AList.entries_insert]
      exact Nat.succ_le_succ (List.kerase_sublist e.1 m.entries).length_le
    refine ⟨m', ?_, by rw [List.length_cons]; omega, fun k hk => ?_⟩
    · rw [List.map_cons, decodeEntries, hvalue, Option.bind_some, hm']
    · rcases hkeys k hk with hin | ⟨e', he', rfl⟩
      · rcases (AList.mem_insert m).mp hin with rfl | hin
        · exact Or.inr ⟨e, List.mem_cons_self, rfl⟩
        · exact Or.inl hin
      · exact Or.inr ⟨e', List.mem_cons_of_mem _ he', rfl⟩

theorem mapWithLimits_encodeMap (h : MapWithin m) :
    ∃ m', mapWithLimits (encodeMap m) = some m' := by
  have hvalues : ∀ e ∈ m.entries, e.2.length ≤ maxBytes := fun e he =>
    h.values e.1 e.2 (AList.mem_lookup_iff.mpr he)
  obtain ⟨m', hm', hlen, hkeys⟩ := @decodeEntries_encoded ∅ m.entries hvalues
  refine ⟨m', ?_⟩
  have hentries : ¬ maxEntries < m'.entries.length := by
    have hm := h.entries
    have hempty : (∅ : ByteMap).entries.length = 0 := rfl
    omega
  have hlong : ¬ m'.entries.any fun e => maxKeyLen < e.1.length := by
    simp only [List.any_eq_true, decide_eq_true_iff, not_exists, not_and, not_lt]
    intro e he
    have hk : e.1 ∈ m' := List.mem_keys_of_mem he
    obtain ⟨e', he', hk⟩ := (hkeys e.1 hk).resolve_left (AList.notMem_empty _)
    exact hk ▸ h.keys e'.1 (List.mem_keys_of_mem he')
  simp only [encodeMap, mapWithLimits, hm', Option.bind_some, if_neg hentries, if_neg hlong]

/-- An object is read as a message field by field. -/
theorem decodeMessage_obj {msg : Message} : decodeMessage (.obj fields) = some msg ↔
    (field (.obj fields) "id").bind decodeString = some msg.id ∧
    (field (.obj fields) "type_").bind decodeString = some msg.type_ ∧
    (field (.obj fields) "data").bind decodeVecMax = some msg.data ∧
    mapField (.obj fields) "headers" = some msg.headers ∧
    mapField (.obj fields) "query_params" = some msg.queryParams ∧
    (field (.obj fields) "source").bind decodeSource = some msg.source ∧
    (field (.obj fields) "logbacks_allowed").bind decodeAllowed = some msg.logbacksAllowed ∧
    msg.module = none := by
  rcases msg with ⟨id, type_, data, headers, queryParams, source, allowed, module⟩
  simp only [decodeMessage, inOrder, Option.bind_eq_bind, Option.bind_eq_some_iff, Option.pure_def,
    Option.some.injEq, Message.mk.injEq]
  constructor
  · rintro ⟨i, hi, _, hid, t, ht, _, htype, d, hd, _, hdata, _, hheaders, _, hquery,
      s, hs, _, hsource, a, ha, _, hallowed, rfl, rfl, rfl, rfl, rfl, rfl, rfl, rfl⟩
    exact ⟨⟨i, hi, hid⟩, ⟨t, ht, htype⟩, ⟨d, hd, hdata⟩, hheaders, hquery, ⟨s, hs, hsource⟩,
      ⟨a, ha, hallowed⟩, rfl⟩
  · rintro ⟨⟨i, hi, hid⟩, ⟨t, ht, htype⟩, ⟨d, hd, hdata⟩, hheaders, hquery, ⟨s, hs, hsource⟩,
      ⟨a, ha, hallowed⟩, rfl⟩
    exact ⟨i, hi, _, hid, t, ht, _, htype, d, hd, _, hdata, _, hheaders, _, hquery,
      s, hs, _, hsource, a, ha, _, hallowed, rfl, rfl, rfl, rfl, rfl, rfl, rfl, rfl⟩

/-- A message within the limits is read again once it is written, but for the order of its maps. -/
theorem decodeMessage_encodeMessage_within {msg : Message} (h : WithinLimits msg) :
    ∃ msg', decodeMessage (encodeMessage msg) = some msg' ∧ msg'.id = msg.id ∧
      msg'.type_ = msg.type_ ∧ msg'.data = msg.data := by
  obtain ⟨headers, hheaders⟩ := mapWithLimits_encodeMap h.headers
  obtain ⟨query, hquery⟩ := mapWithLimits_encodeMap h.queryParams
  have hdata : decodeVecMax (encodeBytes msg.data) = some msg.data := by
    rw [decodeVecMax_encodeBytes, if_neg (Nat.not_lt.mpr h.data)]
  refine ⟨⟨msg.id, msg.type_, msg.data, headers, query, msg.source, msg.logbacksAllowed, none⟩, ?_,
    rfl, rfl, rfl⟩
  rw [encodeMessage, decodeMessage_obj]
  simp [field, mapField, fieldValues, decodeString, hdata, hheaders, hquery,
    decodeSource_encodeSource, decodeAllowed_encodeAllowed]

theorem decodeMessage_within {msg : Message} (h : decodeMessage (.obj fields) = some msg) :
    WithinLimits msg := by
  obtain ⟨-, -, hdata, hheaders, hquery, -, -, -⟩ := decodeMessage_obj.mp h
  obtain ⟨j, -, hj⟩ := Option.bind_eq_some_iff.mp hdata
  exact ⟨decodeVecMax_length hj, mapField_within hheaders, mapField_within hquery⟩

theorem decodeDelayed_encodeDelayed_within {d : DelayedMessage} (hd : d.delay < 2 ^ 64)
    (h : WithinLimits d.message) :
    ∃ d', decodeDelayed (encodeDelayed d) = some d' ∧ d'.delay = d.delay ∧
      d'.message.id = d.message.id ∧ d'.message.type_ = d.message.type_ ∧
      d'.message.data = d.message.data := by
  obtain ⟨msg', hmsg, hid, htype, hdata⟩ := decodeMessage_encodeMessage_within h
  refine ⟨⟨d.delay, msg'⟩, ?_, rfl, hid, htype, hdata⟩
  simp [decodeDelayed, encodeDelayed, inOrder, field, fieldValues, decodeU64_num hd, hmsg]

end limits

/-- A delayed logback that a rule has sent is found again in the heap, with its delay made
absolute, exactly when its payload is within the limit of the decoder. -/
theorem delayed_roundtrip_iff (text : JsonText) {env env' : Env} {args : LogBackArgs} {id : String}
    {msg : Message} (hcall : logBackDetailed env args id = (env', .ok msg))
    {cancelled immediateSender : Bool} {delay : ℕ}
    (hroute : dispatchRoute cancelled args.delay immediateSender = .delayed delay) {now : ℕ}
    (hnow : now < 2 ^ 63) (htext : text.RoundTrips (encodeDelayed ⟨delay + now, msg⟩)) :
    (∀ key value (all : Listing),
      persistDelayedLog text now ⟨delay, msg⟩ = .insert logbackNs key value →
      (key, some value) ∈ all →
      ∃ d ∈ fillHeapFromDb text all, d.delay = delay + now ∧ SameMessage msg d.message) ↔
    args.logBufLen.toNat ≤ maxBytes := by
  obtain ⟨type_, log, budget, hmsg, hlen⟩ := logBackDetailed_ok hcall
  have hdata : msg.data.length = args.logBufLen.toNat := by rw [hmsg]; exact hlen
  have hdelay : delay + now < 2 ^ 64 := by
    have h32 : args.delay.toNat < 2 ^ 32 := args.delay.toNat_lt
    have hd := dispatchRoute_delayed hroute
    omega
  have hadd : addU64 delay now = delay + now := addU64_of_lt hdelay
  have hdec : decodeDelayed (encodeDelayed ⟨delay + now, msg⟩) =
      if maxBytes < msg.data.length then none else some ⟨delay + now, msg.createDuplicate⟩ :=
    decodeDelayed_encodeDelayed hdelay (by rw [hmsg]; rfl) (by rw [hmsg]; rfl)
  have hread : (text.fromSlice (text.toVec (encodeDelayed ⟨delay + now, msg⟩))).bind decodeDelayed =
      if maxBytes < msg.data.length then none else some ⟨delay + now, msg.createDuplicate⟩ := by
    rw [htext, Option.bind_some, hdec]
  simp only [persistDelayedLog, hadd, BackendRequest.insert.injEq, true_and]
  constructor
  · intro h
    by_contra hbig
    obtain ⟨d, hd, -⟩ := h _ _ [(msg.id, some _)] ⟨rfl, rfl⟩ List.mem_cons_self
    have hbig' : maxBytes < msg.data.length := by omega
    simp [fillHeapFromDb, hread, hbig'] at hd
  · rintro hsmall key value all ⟨rfl, rfl⟩ hmem
    have hsmall' : ¬ maxBytes < msg.data.length := by omega
    refine ⟨⟨delay + now, msg.createDuplicate⟩, ?_, rfl, ⟨rfl, rfl, rfl, rfl, rfl, rfl, rfl⟩⟩
    apply List.mem_filterMap.mpr
    refine ⟨_, hmem, ?_⟩
    simp only [Option.bind_some, hread, if_neg hsmall']

section text

def escapeChar (c : Char) : List Char :=
  if c = '"' then ['\\', '"']
  else if c = '\\' then ['\\', '\\']
  else if c = '\n' then ['\\', 'n']
  else if c = '\r' then ['\\', 'r']
  else if c = '\t' then ['\\', 't']
  else if c.toNat = 8 then ['\\', 'b']
  else if c.toNat = 12 then ['\\', 'f']
  else if c.toNat < 32 then
    ['\\', 'u', '0', '0', Nat.digitChar (c.toNat / 16), Nat.digitChar (c.toNat % 16)]
  else [c]

def quoteChars (s : String) : List Char := '"' :: (s.toList.flatMap escapeChar ++ ['"'])

mutual

/-- The compact text of a value. -/
def renderJson : Json → List Char
  | .null => "null".toList
  | .bool b => (toString b).toList
  | .num n => Nat.toDigits 10 n
  | .other number => number.toList
  | .str s => quoteChars s
  | .arr items => '[' :: (renderItems items ++ [']'])
  | .obj fields => '\x7b' :: (renderFields fields ++ ['\x7d'])

def renderItems : List Json → List Char
  | [] => []
  | [j] => renderJson j
  | j :: items => renderJson j ++ ',' :: renderItems items

def renderFields : List (String × Json) → List Char
  | [] => []
  | [(k, j)] => quoteChars k ++ ':' :: renderJson j
  | (k, j) :: fields => quoteChars k ++ ':' :: (renderJson j ++ ',' :: renderFields fields)

end

/-- The text level as it acts on one value: written compactly and parsed back. -/
def textOf (j : Json) : JsonText where
  toVec j := (String.ofList (renderJson j)).toUTF8.toList
  fromSlice b := if b = (String.ofList (renderJson j)).toUTF8.toList then some j else none

theorem textOf_roundTrips (j : Json) : (textOf j).RoundTrips j := if_pos rfl

/-- The text level as it acts on some values. -/
def textsOf (known : List Json) : JsonText where
  toVec j := asBytes (String.ofList (renderJson j))
  fromSlice b := known.find? fun j => b = asBytes (String.ofList (renderJson j))

end text

section instances

/-- A rule with a limit of 100 pages whose memory holds its log type and a payload. -/
def ruleEnv (payload : Bytes) : Env :=
  ⟨⟨"rule.wasm", 100⟩, .new "0" "t" [] (.webhookPost "w") (.limited 1), some ⟨116 :: payload⟩⟩

def payloadArgs (size : UInt32) : LogBackArgs := ⟨0, 1, 1, size, 5, .limited 0⟩

def payloadMessage (payload : Bytes) : Message :=
  .new "id" "t" payload (.logback "rule.wasm") (.limited 0)

theorem logBackDetailed_payload {payload : Bytes} {size : UInt32}
    (hsize : payload.length = size.toNat) (hlimit : size.toNat ≤ calculateMaxBufferSize 100) :
    (logBackDetailed (ruleEnv payload) (payloadArgs size) "id").2 = .ok (payloadMessage payload) := by
  have hcharge : (chargeBudget (.limited 1) (.limited 0)).assigned = .ok (.limited 0) := rfl
  have htype : safelyGetString ⟨116 :: payload⟩ 0 1 = .ok "t" := by
    have hread : MemoryView.read ⟨116 :: payload⟩ 0 1 = some [116] := by
      simp [MemoryView.read]
    simp only [safelyGetString, UInt32.toNat_zero, UInt32.toNat_one, hread]
    rfl
  have hlog : safelyGetMemory ⟨116 :: payload⟩ 1 size (calculateMaxBufferSize 100) = .ok payload := by
    have hread : MemoryView.read ⟨116 :: payload⟩ 1 size.toNat = some payload := by
      simp [MemoryView.read, ← hsize, Nat.add_comm]
    simp only [safelyGetMemory, Nat.not_lt.mpr hlimit, if_false, UInt32.toNat_one, hread]
  simp [logBackDetailed, readMessage, ruleEnv, payloadArgs, payloadMessage, Message.new, hcharge,
    htype, hlog]

/-- Whatever exceeds the limit of the decoder is stored and then never read back. -/
theorem oversized_skipped {payload : Bytes} (hbig : maxBytes < payload.length) :
    ∃ value, persistDelayedLog (textOf (encodeDelayed ⟨1005, payloadMessage payload⟩)) 1000
        ⟨5, payloadMessage payload⟩ = .insert logbackNs "id" value ∧
      fillHeapFromDb (textOf (encodeDelayed ⟨1005, payloadMessage payload⟩))
        [("id", some value)] = [] := by
  have hdec : decodeDelayed (encodeDelayed ⟨1005, payloadMessage payload⟩) = none := by
    rw [decodeDelayed_encodeDelayed (by simp) rfl rfl]
    exact if_pos hbig
  have htext := textOf_roundTrips (encodeDelayed ⟨1005, payloadMessage payload⟩)
  have hadd : addU64 5 1000 = 1005 := by decide
  refine ⟨_, by simp only [persistDelayedLog, hadd]; rfl, ?_⟩
  simp only [fillHeapFromDb, List.filterMap_cons, List.filterMap_nil, Option.bind_some]
  rw [htext, Option.bind_some, hdec]

/-- One byte more than the decoder admits. -/
def bigPayload : Bytes := List.replicate 5242881 0

theorem bigPayload_length : bigPayload.length = 5242881 := List.length_replicate

theorem oversized_logback_skipped :
    (logBackDetailed (ruleEnv bigPayload) (payloadArgs 5242881) "id").2 =
      .ok (payloadMessage bigPayload) ∧
    dispatchRoute false (payloadArgs 5242881).delay true = .delayed 5 ∧
    ∃ value, persistDelayedLog (textOf (encodeDelayed ⟨1005, payloadMessage bigPayload⟩)) 1000
        ⟨5, payloadMessage bigPayload⟩ = .insert logbackNs "id" value ∧
      fillHeapFromDb (textOf (encodeDelayed ⟨1005, payloadMessage bigPayload⟩))
        [("id", some value)] = [] := by
  refine ⟨?_, by decide, ?_⟩
  · apply logBackDetailed_payload
    · rw [bigPayload_length]
      rfl
    · decide
  · apply oversized_skipped
    rw [bigPayload_length]
    decide

/-- A payload of two bytes comes back. -/
theorem delayed_roundtrip_small :
    ∃ value, persistDelayedLog (textOf (encodeDelayed ⟨1005, payloadMessage [7, 8]⟩)) 1000
        ⟨5, payloadMessage [7, 8]⟩ = .insert logbackNs "id" value ∧
      ∃ d ∈ fillHeapFromDb (textOf (encodeDelayed ⟨1005, payloadMessage [7, 8]⟩))
        [("id", some value)], d.delay = 5 + 1000 ∧ SameMessage (payloadMessage [7, 8]) d.message := by
  have hcall := @logBackDetailed_payload [7, 8] 2 (by decide) (by decide)
  have hroute : dispatchRoute false (payloadArgs 2).delay true = .delayed 5 := by decide
  have hnow : 1000 < 2 ^ 63 := by decide
  have h := (delayed_roundtrip_iff (textOf (encodeDelayed ⟨1005, payloadMessage [7, 8]⟩))
    (Prod.ext rfl hcall) hroute hnow (textOf_roundTrips _)).mpr (by decide)
  exact ⟨_, rfl, h _ _ _ rfl List.mem_cons_self⟩

end instances
end PlaidRuntime.MessageCodec
