import PlaidRuntime.EffectProgram
import PlaidRuntime.LogbackBudget
import PlaidRuntime.MessageCodec
import PlaidRuntime.PriorityHeap

/-!
# One poll of the stored logbacks

`fetch_internal_logs` (`data/internal/mod.rs`) over any heap: the clock, the storage and the
channel of the executor are requests.
-/
namespace PlaidRuntime.LogbackPoll
open EffectProgram Prog GuestMemory StorageProvider LogbackMessage LogbackBudget MessageCodec
open PriorityHeap BinaryHeap

inductive Request
  | getTime
  | storage (b : BackendRequest)
  | trySend (msg : Message)

abbrev Reply : Request → Type
  | .getTime => ℕ
  | .storage b => BackendReply b
  | .trySend _ => Except TrySendError Unit

abbrev Code (α : Type) := Prog Request Reply α

def getTime : Code ℕ := perform Request.getTime

def storageFetchAll (ns : String) : Code (Except StorageError Listing) :=
  perform (Request.storage (.fetchAll ns none))

def storageDelete (ns key : String) : Code (Except StorageError (Option Bytes)) :=
  perform (Request.storage (.delete ns key))

def trySend (msg : Message) : Code (Except TrySendError Unit) := perform (Request.trySend msg)

/-- `Ord for DelayedMessage`. -/
def cmp (a b : DelayedMessage) : Ordering := compare a.delay b.delay

section program
variable (q : BinaryHeap DelayedMessage (reverse cmp))

/-- The loop over the top of the heap, at most once for each element. -/
def sendDue (currentTime : ℕ) : ℕ → q.Heap → Code Unit
  | 0, _ => return ()
  | n + 1, h =>
    match q.pop h with
    | none => return ()
    | some (log, h) =>
      if currentTime < log.delay then return ()
      else do
        match ← trySend log.message with
        | .ok () =>
          -- whatever the deletion returns is only reported
          let _ ← storageDelete logbackNs log.message.id
          sendDue currentTime n h
        | .error .full => return ()
        | .error .disconnected => return ()

def fetchInternalLogs (text : JsonText) : Code (Except StorageError Unit) := do
  let currentTime ← getTime
  match ← storageFetchAll logbackNs with
  | .error e => return .error e
  | .ok all =>
    let logHeap := q.pushAll q.new (fillHeapFromDb text all)
    sendDue q currentTime (q.len logHeap) logHeap
    return .ok ()

end program

/-- The instance during a poll. `clock` is the time the poll reads. -/
structure World where
  clock : ℕ
  store : Store
  channel : Channel Message

/-- The reading may fail and list in any order; deletions succeed. -/
def handle : Handler Request Reply World
  | w, .getTime, now, w' => now = w.clock ∧ w' = w
  | w, .storage b, r, w' => ∃ o store', backendReply w.store b o = some (r, store') ∧
      (∀ ns key, b = .delete ns key → o = .ok) ∧ w' = { w with store := store' }
  | w, .trySend msg, r, w' =>
    match w.channel.trySend msg with
    | .ok c => r = .ok () ∧ w' = { w with channel := c }
    | .error e => r = .error e ∧ w' = w

def World.free (w : World) (capacity : ℕ) : ℕ := capacity - w.channel.items.length

/-- One message goes to the executor and out of the storage. -/
def World.hand (w : World) (d : DelayedMessage) : World :=
  { w with
    store := Function.update w.store logbackNs ((w.store logbackNs).erase d.message.id)
    channel := { w.channel with items := w.channel.items ++ [d.message] } }

def decodeValue (text : JsonText) (value : Bytes) : Option DelayedMessage :=
  (text.fromSlice value).bind decodeDelayed

def decodable (text : JsonText) (c : Content) : List DelayedMessage :=
  c.entries.filterMap fun e => decodeValue text e.2

/-- The decodable entries whose delay has elapsed. -/
def dueEntries (text : JsonText) (w : World) : List DelayedMessage :=
  (decodable text (w.store logbackNs)).filter fun d => d.delay ≤ w.clock

/-- Every decodable entry is stored under the id of its message. -/
def OwnIds (text : JsonText) (c : Content) : Prop :=
  ∀ key value d, c.lookup key = some value → decodeValue text value = some d → d.message.id = key

/-- The poll sends the first due messages by delay, as many as fit, and deletes these. -/
structure Delivers (text : JsonText) (capacity : ℕ) (w w' : World) (sent : List DelayedMessage) :
    Prop where
  count : sent.length = min (w.free capacity) (dueEntries text w).length
  ordered : sent.Pairwise fun a b => a.delay ≤ b.delay
  distinct : sent.Nodup
  due : ∀ d ∈ sent, d ∈ dueEntries text w
  earliest : ∀ d ∈ dueEntries text w, d ∉ sent → ∀ s ∈ sent, s.delay ≤ d.delay
  channel : w'.channel = { w.channel with items := w.channel.items ++ sent.map DelayedMessage.message }
  deleted : ∀ d ∈ sent, (w'.store logbackNs).lookup d.message.id = none ∧
    ∃ value, (w.store logbackNs).lookup d.message.id = some value ∧ decodeValue text value = some d
  kept : ∀ key, key ∉ sent.map (fun d => d.message.id) →
    (w'.store logbackNs).lookup key = (w.store logbackNs).lookup key
  others : ∀ ns, ns ≠ logbackNs → w'.store ns = w.store ns

section content
variable {text : JsonText} {c : Content} {all : Listing}

theorem mem_decodable {d : DelayedMessage} :
    d ∈ decodable text c ↔ ∃ key value, c.lookup key = some value ∧ decodeValue text value = some d := by
  simp only [decodable, List.mem_filterMap]
  constructor
  · rintro ⟨⟨key, value⟩, he, hd⟩
    exact ⟨key, value, AList.mem_lookup_iff.mpr he, hd⟩
  · rintro ⟨key, value, hl, hd⟩
    exact ⟨⟨key, value⟩, AList.mem_lookup_iff.mp hl, hd⟩

/-- The heap is filled with the decodable entries, whatever the order of the listing. -/
theorem fillHeapFromDb_perm (h : all.Perm (allEntries c none)) :
    (fillHeapFromDb text all).Perm (decodable text c) := by
  have hp := h.filterMap fun e => e.2.bind fun value => decodeValue text value
  have he : (allEntries c none).filterMap (fun e => e.2.bind fun value => decodeValue text value) =
      decodable text c := by
    simp [allEntries_none, decodable, List.filterMap_map]
  rw [he] at hp
  exact hp

theorem decodable_nodup (h : OwnIds text c) : (decodable text c).Nodup := by
  have hkeys := List.pairwise_map.mp c.keys_nodup
  refine (List.pairwise_filterMap.mpr (hkeys.imp_of_mem ?_))
  intro a b ha hb hne d hd d' hd' hdd
  apply hne
  rw [← h _ _ d (AList.mem_lookup_iff.mpr ha) hd, ← h _ _ d' (AList.mem_lookup_iff.mpr hb) hd', hdd]

end content

section run
variable {q : BinaryHeap DelayedMessage (reverse cmp)} {text : JsonText} {w w' : World} {α : Type}
  {a : α} {capacity now : ℕ}

theorem exec_trySend {msg : Message} {next : Except TrySendError Unit → Code α} :
    Exec handle (trySend msg >>= next) w a w' ↔
      match w.channel.trySend msg with
      | .ok c => Exec handle (next (.ok ())) { w with channel := c } a w'
      | .error e => Exec handle (next (.error e)) w a w' := by
  rw [trySend, perform_bind, exec_request_iff]
  simp only [handle]
  cases w.channel.trySend msg <;> simp

theorem exec_storageDelete {ns key : String} {next : Except StorageError (Option Bytes) → Code α} :
    Exec handle (storageDelete ns key >>= next) w a w' ↔
      Exec handle (next (.ok ((w.store ns).lookup key)))
        { w with store := Function.update w.store ns ((w.store ns).erase key) } a w' := by
  rw [storageDelete, perform_bind, exec_request_iff]
  constructor
  · rintro ⟨r, t, ⟨o, store', hr, ho, rfl⟩, hrest⟩
    obtain rfl := ho ns key rfl
    cases hr
    exact hrest
  · intro hrest
    exact ⟨_, _, ⟨.ok, _, rfl, fun _ _ _ => rfl, rfl⟩, hrest⟩

/-- The loop sends what the heap gives up while its top is due and the channel has room. -/
theorem sendDue_exec {fuel : ℕ} {h : q.Heap} {r : Unit} (hcap : w.channel.capacity = some capacity)
    (hopen : w.channel.closed = false) (hfuel : q.len h ≤ fuel) :
    Exec handle (sendDue q now fuel h) w r w' ↔
      w' = (q.popWhile (fun d => d.delay ≤ now) (w.free capacity) h).1.foldl World.hand w := by
  induction fuel generalizing h w with
  | zero =>
    have hnone : q.pop h = none := by
      cases hp : q.pop h with
      | none => rfl
      | some r =>
        have hc := (q.pop_some h r.1 r.2 hp).1
        rw [len, hc, Multiset.card_cons] at hfuel
        omega
    rw [sendDue, pure_eq_done, exec_done_iff]
    cases w.free capacity <;> simp [popWhile, hnone]
  | succ fuel ih =>
    rw [sendDue]
    cases hp : q.pop h with
    | none =>
      simp only [pure_eq_done, exec_done_iff]
      cases w.free capacity <;> simp [popWhile, hp]
    | some top =>
      obtain ⟨log, h'⟩ := top
      simp only
      split_ifs with hlate
      · rw [pure_eq_done, exec_done_iff]
        have hnot : ¬ log.delay ≤ now := Nat.not_le.mpr hlate
        cases w.free capacity <;> simp [popWhile, hp, hnot]
      · have hdue : log.delay ≤ now := Nat.not_lt.mp hlate
        rw [exec_trySend]
        by_cases hfull : capacity ≤ w.channel.items.length
        · have hsend : w.channel.trySend log.message = .error .full := by
            simp [Channel.trySend, Channel.isFull, hopen, hcap, hfull]
          have hfree : w.free capacity = 0 := Nat.sub_eq_zero_of_le hfull
          simp only [hsend, hfree, pure_eq_done, exec_done_iff, popWhile, List.foldl_nil, true_and]
        · have hsend : w.channel.trySend log.message =
              .ok { w.channel with items := w.channel.items ++ [log.message] } := by
            simp [Channel.trySend, Channel.isFull, hopen, hcap, hfull]
          have hfree : w.free capacity = (w.hand log).free capacity + 1 := by
            simp only [World.free, World.hand, List.length_append, List.length_singleton]
            omega
          have hlen : q.len h' ≤ fuel := by
            rw [len, (q.pop_some h log h' hp).1, Multiset.card_cons] at hfuel
            rw [len]
            omega
          simp only [hsend]
          rw [exec_storageDelete]
          have hrest := @ih (w.hand log) h' hcap hopen hlen
          rw [hfree, popWhile, hp]
          simp only [hdue, decide_true, if_true, List.foldl_cons]
          exact hrest

theorem hand_foldl_channel (sent : List DelayedMessage) :
    (sent.foldl World.hand w).channel =
      { w.channel with items := w.channel.items ++ sent.map DelayedMessage.message } := by
  induction sent generalizing w with
  | nil => simp
  | cons d sent ih =>
    rw [List.foldl_cons, ih]
    simp [World.hand]

theorem hand_foldl_others {ns : String} (hns : ns ≠ logbackNs) (sent : List DelayedMessage) :
    (sent.foldl World.hand w).store ns = w.store ns := by
  induction sent generalizing w with
  | nil => rfl
  | cons d sent ih =>
    rw [List.foldl_cons, ih]
    exact Function.update_of_ne hns _ _

theorem hand_foldl_lookup (key : String) (sent : List DelayedMessage) :
    ((sent.foldl World.hand w).store logbackNs).lookup key =
      if key ∈ sent.map (fun d => d.message.id) then none else (w.store logbackNs).lookup key := by
  induction sent generalizing w with
  | nil => rfl
  | cons d sent ih =>
    rw [List.foldl_cons, ih]
    simp only [World.hand, Function.update_self, List.map_cons, List.mem_cons]
    by_cases hd : key = d.message.id
    · subst hd
      simp
    · simp [hd, AList.lookup_erase_ne hd]

/-- What the heap of a poll gives up is what the poll owes. -/
theorem popWhile_delivers (hown : OwnIds text (w.store logbackNs)) {all : Listing}
    (hall : all.Perm (allEntries (w.store logbackNs) none)) :
    let sent := (q.popWhile (fun d => d.delay ≤ w.clock) (w.free capacity)
      (q.pushAll q.new (fillHeapFromDb text all))).1
    Delivers text capacity w (sent.foldl World.hand w) sent := by
  intro sent
  have hcontents : q.contents (q.pushAll q.new (fillHeapFromDb text all)) =
      ↑(decodable text (w.store logbackNs)) := by
    rw [contents_pushAll, q.contents_new, add_zero]
    exact Multiset.coe_eq_coe.mpr (fillHeapFromDb_perm hall)
  obtain ⟨rest, hrest⟩ : ∃ rest : Multiset DelayedMessage, rest = q.contents
      (q.popWhile (fun d => d.delay ≤ w.clock) (w.free capacity)
        (q.pushAll q.new (fillHeapFromDb text all))).2 := ⟨_, rfl⟩
  have hsplit : (↑(decodable text (w.store logbackNs)) : Multiset DelayedMessage) = ↑sent + rest := by
    rw [← hcontents, hrest]
    exact popWhile_contents _ _
  have hwanted : ∀ d ∈ sent, d.delay ≤ w.clock := by
    intro d hd
    simpa using popWhile_wanted _ _ d hd
  obtain ⟨hsorted, hbefore⟩ := @popWhile_order DelayedMessage (reverse cmp) q
    (fun d => d.delay ≤ w.clock) (w.free capacity) (q.pushAll q.new (fillHeapFromDb text all))
  have hle : ∀ a b : DelayedMessage, (reverse cmp b a).isLE = true → a.delay ≤ b.delay :=
    fun a b h => Nat.isLE_compare.mp h
  have hmem : ∀ d ∈ sent, d ∈ decodable text (w.store logbackNs) := by
    intro d hd
    rw [← Multiset.mem_coe, hsplit]
    exact Multiset.mem_add.mpr (Or.inl hd)
  have hentry : ∀ d ∈ sent, ∃ value, (w.store logbackNs).lookup d.message.id = some value ∧
      decodeValue text value = some d := by
    intro d hd
    obtain ⟨key, value, hl, hdec⟩ := mem_decodable.mp (hmem d hd)
    rw [hown key value d hl hdec]
    exact ⟨value, hl, hdec⟩
  constructor
  case count =>
    have hcount := @popWhile_length DelayedMessage (reverse cmp) q (fun d => d.delay ≤ w.clock)
      (fun a b hab hb => by
        have := hle a b hab
        simp only [decide_eq_true_eq] at hb ⊢
        omega) (w.free capacity) (q.pushAll q.new (fillHeapFromDb text all))
    rw [hcontents, Multiset.coe_countP, List.countP_eq_length_filter] at hcount
    simpa [dueEntries] using hcount
  case ordered => exact hsorted.imp fun {a b} => hle a b
  case distinct =>
    have hnodup := decodable_nodup hown
    rw [← Multiset.coe_nodup, hsplit] at hnodup
    exact Multiset.coe_nodup.mp (Multiset.nodup_of_le (Multiset.le_add_right _ _) hnodup)
  case due =>
    intro d hd
    exact List.mem_filter.mpr ⟨hmem d hd, by simpa using hwanted d hd⟩
  case earliest =>
    intro d hd hnot s hs
    have hd' := (List.mem_filter.mp hd).1
    rw [← Multiset.mem_coe, hsplit, Multiset.mem_add] at hd'
    rcases hd' with hd' | hd'
    · exact absurd hd' hnot
    · rw [hrest] at hd'
      exact hle s d (hbefore s hs d hd')
  case channel => exact hand_foldl_channel sent
  case deleted =>
    intro d hd
    refine ⟨?_, hentry d hd⟩
    rw [hand_foldl_lookup, if_pos (List.mem_map.mpr ⟨d, hd, rfl⟩)]
  case kept =>
    intro key hkey
    rw [hand_foldl_lookup, if_neg hkey]
  case others => exact fun ns hns => hand_foldl_others hns sent

/-- A poll either cannot read the storage and does nothing, or it delivers exactly the first
due messages by delay for which the channel has room. A poll that reads the storage exists for
every content. -/
theorem fetch_internal_logs_delivers (q : BinaryHeap DelayedMessage (reverse cmp))
    (text : JsonText) {w : World} {capacity : ℕ} (hcap : w.channel.capacity = some capacity)
    (hopen : w.channel.closed = false) (hown : OwnIds text (w.store logbackNs)) :
    (∃ w', Exec handle (fetchInternalLogs q text) w (.ok ()) w') ∧
    ∀ r w', Exec handle (fetchInternalLogs q text) w r w' →
      (∃ e, r = .error e ∧ w' = w) ∨
      (r = .ok () ∧ ∃ sent, Delivers text capacity w w' sent) := by
  constructor
  · have hall : (allEntries (w.store logbackNs) none).Perm (allEntries (w.store logbackNs) none) :=
      List.Perm.refl _
    have hfetch : backendReply w.store (.fetchAll logbackNs none)
        (.okEntries (allEntries (w.store logbackNs) none)) =
        some (.ok (allEntries (w.store logbackNs) none), w.store) :=
      if_pos (List.isPerm_iff.mpr hall)
    obtain ⟨w', hsend⟩ : ∃ w', Exec handle (sendDue q w.clock
        (q.len (q.pushAll q.new (fillHeapFromDb text (allEntries (w.store logbackNs) none))))
        (q.pushAll q.new (fillHeapFromDb text (allEntries (w.store logbackNs) none)))) w () w' :=
      ⟨_, (sendDue_exec hcap hopen (le_refl _)).mpr rfl⟩
    refine ⟨w', .request ⟨rfl, rfl⟩ (.request ⟨_, _, hfetch, fun ns key h => ?_, rfl⟩ ?_)⟩
    · cases h
    · exact hsend.bind (.done _ _)
  · intro r w' hx
    rw [fetchInternalLogs, getTime, perform_bind, exec_request_iff] at hx
    obtain ⟨now, t, ⟨rfl, rfl⟩, hx⟩ := hx
    rw [storageFetchAll, perform_bind, exec_request_iff] at hx
    obtain ⟨reply, t', ⟨o, store', hr, -, rfl⟩, hx⟩ := hx
    obtain ⟨rfl, ⟨all, rfl, hall⟩ | ⟨e, rfl⟩⟩ := fetchAll_reply hr
    · obtain ⟨u, s, hsend, hdone⟩ := hx.bind_inv
      obtain ⟨rfl, rfl⟩ := exec_done_iff.mp hdone
      have hs := (sendDue_exec hcap hopen (le_refl _)).mp hsend
      subst hs
      exact Or.inr ⟨rfl, _, popWhile_delivers hown hall⟩
    · obtain ⟨rfl, rfl⟩ := exec_done_iff.mp hx
      exact Or.inl ⟨e, rfl, rfl⟩

end run

section instances

def delayHeap : BinaryHeap DelayedMessage (reverse cmp) := ofKey DelayedMessage.delay

def storedLog (id : String) (delay : ℕ) : DelayedMessage :=
  ⟨delay, .new id "t" [7, 8] (.logback "rule.wasm") (.limited 0)⟩

def storedText : JsonText :=
  textsOf [encodeDelayed (storedLog "late" 1005), encodeDelayed (storedLog "soon" 1000)]

def junkContent : Content := AList.singleton "junk" [0]

/-- Two due messages and one entry that does not parse. -/
def storedContent : Content :=
  (junkContent.insert "late" (storedText.toVec (encodeDelayed (storedLog "late" 1005)))).insert
    "soon" (storedText.toVec (encodeDelayed (storedLog "soon" 1000)))

/-- There is room for one message. -/
def pollWorld : World where
  clock := 2000
  store := fun _ => storedContent
  channel := ⟨some 1, [], false⟩

theorem storedContent_ownIds : OwnIds storedText storedContent := by
  have hall : ∀ e ∈ storedContent.entries, ∀ d ∈ decodeValue storedText e.2, d.message.id = e.1 := by
    decide +kernel
  intro key value d hl hd
  exact hall ⟨key, value⟩ (AList.mem_lookup_iff.mp hl) d hd

theorem dueEntries_pollWorld :
    (dueEntries storedText pollWorld).map (fun d => (d.delay, d.message.id)) =
      [(1000, "soon"), (1005, "late")] := by
  decide +kernel

/-- The message that was due first is sent, and the other one stays. -/
theorem poll_of_stored_log :
    ∃ w' d, Exec handle (fetchInternalLogs delayHeap storedText) pollWorld (.ok ()) w' ∧
      Delivers storedText 1 pollWorld w' [d] ∧ (d.delay, d.message.id) = (1000, "soon") := by
  obtain ⟨⟨w', hx⟩, hpoll⟩ := @fetch_internal_logs_delivers delayHeap storedText pollWorld 1 rfl rfl
    storedContent_ownIds
  obtain ⟨e, he, -⟩ | ⟨-, sent, hsent⟩ := hpoll _ _ hx
  · cases he
  have htwo : (dueEntries storedText pollWorld).length = 2 := by
    simpa using congrArg List.length dueEntries_pollWorld
  have hone := hsent.count
  rw [htwo] at hone
  obtain ⟨d, rfl⟩ := List.length_eq_one_iff.mp hone
  refine ⟨w', d, hx, hsent, ?_⟩
  have hmem {e : ℕ × String} : e ∈ [(1000, "soon"), (1005, "late")] ↔
      ∃ d ∈ dueEntries storedText pollWorld, (d.delay, d.message.id) = e := by
    rw [← dueEntries_pollWorld, List.mem_map]
  have hd := hmem.mpr ⟨d, hsent.due d (List.mem_singleton_self d), rfl⟩
  simp only [List.mem_cons, List.not_mem_nil, or_false] at hd
  refine hd.resolve_right fun hlate => ?_
  -- the message that waits would be due before the one that is sent
  obtain ⟨soon, hsoon, heq⟩ := hmem.mp List.mem_cons_self
  simp only [Prod.mk.injEq] at hlate heq
  have hwaits : soon ∉ [d] := by
    rw [List.mem_singleton]
    rintro rfl
    omega
  have hle := hsent.earliest soon hsoon hwaits d (List.mem_singleton_self d)
  omega

end instances
end PlaidRuntime.LogbackPoll
