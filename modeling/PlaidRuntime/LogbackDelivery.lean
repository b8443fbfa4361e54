import PlaidRuntime.LogbackMessage
import PlaidRuntime.MachineWord

/-!
# Delivery of logbacks, shutdown included

Executor threads send logbacks, a listener task persists the delayed ones, a second task
polls the storage and hands due messages to the executor, and the main thread shuts all of
this down (`internal.rs`, `data/internal/mod.rs`, `data/mod.rs`, `plaid.rs`).
-/
namespace PlaidRuntime.LogbackDelivery
open MachineWord LogbackMessage

/-- An executor thread. `sender` says whether it holds a clone of the immediate sender; inside
`dispatch_logback` it has already read the cancellation token. -/
inductive ThreadState
  | waiting
  | received
  | upgrading
  | running (sender : Bool)
  | dispatching (sender cancelled : Bool) (delay : UInt32) (msg : Message)
  | exited
  deriving DecidableEq

def ThreadState.holdsSender : ThreadState → Bool
  | .running sender => sender
  | .dispatching sender _ _ _ => sender
  | _ => false

def ThreadState.isExited : ThreadState → Bool
  | .exited => true
  | _ => false

/-- Where the loop of `listen_for_incoming_logs` stands; the delay of a stamped log is
absolute. -/
inductive Drain
  | ready
  | holding (log : DelayedMessage)
  | stamped (log : DelayedMessage)
  deriving DecidableEq

inductive Listener
  | checking
  | listening (drain : Drain)
  | sleeping
  | ended
  deriving DecidableEq

/-- `fetch_internal_logs`: the heap is a snapshot of the stored messages. -/
inductive Fetcher
  | checking
  | reading
  | filling (now : ℕ)
  | walking (now : ℕ) (heap : List DelayedMessage)
  | deleting (now : ℕ) (heap : List DelayedMessage) (id : String)
  | sleeping
  | ended
  deriving DecidableEq

inductive Phase
  | running
  | joiningTasks
  | joiningServers
  | dropping
  | joiningThreads
  | flushing (drain : Drain)
  | done
  deriving DecidableEq

/-- A logback for which the host function returned 0. -/
structure Accepted where
  msg : Message
  delay : UInt32
  route : Route
  clock : ℕ
  deriving DecidableEq

variable {T : Type}

structure Plaid (T : Type) where
  clock : ℕ
  cancelled : Bool
  phase : Phase
  /-- The channel of the general pool. -/
  queue : List Message
  /-- The in-memory channel of delayed logbacks. -/
  delayed : List DelayedMessage
  /-- The namespace `logback_internal`. -/
  store : AList fun _ : String => DelayedMessage
  threads : T → ThreadState
  listener : Listener
  fetcher : Fetcher
  /-- Everything executor threads have taken out of the general channel. -/
  received : List Message
  accepted : List Accepted
  /-- Logbacks handed to the executor, with the time of the clock. -/
  handed : List (Message × ℕ)
  /-- Every message made so far or found in the storage at boot. -/
  known : List Message

/-- Producers hold a sender until the servers have been joined, the main thread until it
has dropped its own. -/
def Phase.producing : Phase → Bool
  | .running => true
  | .joiningTasks => true
  | .joiningServers => true
  | _ => false

def Phase.mainSenders : Phase → Bool
  | .dropping => true
  | p => p.producing

def Phase.tasksJoined : Phase → Bool
  | .running => false
  | .joiningTasks => false
  | _ => true

def Phase.threadsJoined : Phase → Bool
  | .flushing _ => true
  | .done => true
  | _ => false

def Fetcher.isEnded : Fetcher → Bool
  | .ended => true
  | _ => false

def Listener.isEnded : Listener → Bool
  | .ended => true
  | _ => false

/-- Every sender of the general channel is gone. -/
structure Disconnected (phase : Phase) (fetcher : Fetcher) (threads : T → ThreadState) : Prop where
  main : phase.mainSenders = false
  fetcher : fetcher.isEnded = true
  threads : ∀ t, (threads t).holdsSender = false

instance [Fintype T] (phase : Phase) (fetcher : Fetcher) (threads : T → ThreadState) :
    Decidable (Disconnected phase fetcher threads) :=
  decidable_of_iff (phase.mainSenders = false ∧ fetcher.isEnded = true ∧
      ∀ t, (threads t).holdsSender = false)
    ⟨fun h => ⟨h.1, h.2.1, h.2.2⟩, fun h => ⟨h.1, h.2, h.3⟩⟩

inductive Event (T : Type)
  | tick
  | produce (m : Message)
  | receive (t : T)
  | receiveDedicated (t : T)
  | readToken (t : T)
  | upgrade (t : T)
  | call (t : T) (delay : UInt32) (msg : Message)
  | send (t : T) (sent : Bool)
  | finish (t : T)
  | exit (t : T)
  | listen
  | listenerTimer
  | fetch (i : ℕ) (sent : Bool)
  | fetcherTimer
  | shutdown

/-- One round of the loop over the delayed channel: take a log, add the clock to its delay,
store it under its id. `none` means that the channel is empty. -/
def drainStep (s : Plaid T) : Drain → Option (Drain × Plaid T)
  | .ready =>
    match s.delayed with
    | [] => none
    | log :: delayed => some (.holding log, { s with delayed := delayed })
  | .holding log => some (.stamped { log with delay := addU64 log.delay s.clock }, s)
  | .stamped log => some (.ready, { s with store := s.store.insert log.message.id log })

def listenStep (s : Plaid T) : Option (Plaid T) :=
  match s.listener with
  | .checking =>
    if s.cancelled then some { s with listener := .ended }
    else some { s with listener := .listening .ready }
  | .listening drain =>
    match drainStep s drain with
    | none => some { s with listener := .sleeping }
    | some (drain, s) => some { s with listener := .listening drain }
  | .sleeping => if s.cancelled then some { s with listener := .ended } else none
  | .ended => none

/-- `readable` are the stored messages that parse. The heap gives a message with the
smallest delay first; `i` is its place. A full channel ends the poll. -/
def fetchStep (readable : DelayedMessage → Bool) (s : Plaid T) (i : ℕ) (sent : Bool) :
    Option (Plaid T) :=
  match s.fetcher with
  | .checking =>
    if s.cancelled then some { s with fetcher := .ended } else some { s with fetcher := .reading }
  | .reading => some { s with fetcher := .filling s.clock }
  | .filling now =>
    some { s with fetcher := .walking now ((s.store.entries.map Sigma.snd).filter readable) }
  | .walking now heap =>
    match heap[i]? with
    | none => if heap.isEmpty then some { s with fetcher := .sleeping } else none
    | some top =>
      if heap.any fun d => d.delay < top.delay then none
      else if now < top.delay then some { s with fetcher := .sleeping }
      else if sent then
        some { s with
          queue := s.queue ++ [top.message]
          handed := s.handed ++ [(top.message, s.clock)]
          fetcher := .deleting now (heap.eraseIdx i) top.message.id }
      else some { s with fetcher := .sleeping }
  | .deleting now heap id => some { s with store := s.store.erase id, fetcher := .walking now heap }
  | .sleeping => if s.cancelled then some { s with fetcher := .ended } else none
  | .ended => none

variable [DecidableEq T]

def setThread (s : Plaid T) (t : T) (st : ThreadState) : Plaid T :=
  { s with threads := Function.update s.threads t st }

/-- The end of `dispatch_logback`: a bounded channel may refuse the message. Ids are fresh. -/
def sendStep (s : Plaid T) (t : T) (sender cancelled : Bool) (delay : UInt32) (msg : Message)
    (sent : Bool) : Option (Plaid T) :=
  if msg.id ∈ s.known.map Message.id then none
  else
    let r := setThread { s with known := msg :: s.known } t (.running sender)
    if sent then
      match dispatchRoute cancelled delay sender with
      | .immediate => some { r with
          queue := s.queue ++ [msg]
          accepted := s.accepted ++ [⟨msg, delay, .immediate, s.clock⟩]
          handed := s.handed ++ [(msg, s.clock)] }
      | .delayed k => some { r with
          delayed := s.delayed ++ [⟨k, msg⟩]
          accepted := s.accepted ++ [⟨msg, delay, .delayed k, s.clock⟩] }
    else some r

/-- The shutdown sequence of `main`. -/
def shutdownStep [Fintype T] (s : Plaid T) : Option (Plaid T) :=
  match s.phase with
  | .running => some { s with cancelled := true, phase := .joiningTasks }
  | .joiningTasks =>
    if s.listener.isEnded && s.fetcher.isEnded then some { s with phase := .joiningServers } else none
  | .joiningServers => some { s with phase := .dropping }
  | .dropping => some { s with phase := .joiningThreads }
  | .joiningThreads =>
    if ∀ t, (s.threads t).isExited = true then some { s with phase := .flushing .ready } else none
  | .flushing drain =>
    match drainStep s drain with
    | none => some { s with phase := .done }
    | some (drain, s) => some { s with phase := .flushing drain }
  | .done => none

/-- `general t` says that a thread serves the general channel and not one of its own. Seconds
since the epoch fit an `i64`. -/
def step [Fintype T] (general : T → Bool) (readable : DelayedMessage → Bool) (s : Plaid T) :
    Event T → Option (Plaid T)
  | .tick => if s.clock + 1 < 2 ^ 63 then some { s with clock := s.clock + 1 } else none
  | .produce m =>
    if s.phase.producing ∧ m.id ∉ s.known.map Message.id then
      some { s with queue := s.queue ++ [m], known := m :: s.known }
    else none
  | .receive t =>
    match s.threads t, s.queue with
    | .waiting, m :: queue =>
      if general t then
        some (setThread { s with queue := queue, received := s.received ++ [m] } t .received)
      else none
    | _, _ => none
  | .receiveDedicated t =>
    match s.threads t with
    | .waiting => if general t then none else some (setThread s t .received)
    | _ => none
  | .readToken t =>
    match s.threads t with
    | .received => some (setThread s t (if s.cancelled then .running false else .upgrading))
    | _ => none
  | .upgrade t =>
    match s.threads t with
    | .upgrading => some (setThread s t (.running s.phase.mainSenders))
    | _ => none
  | .call t delay msg =>
    match s.threads t with
    | .running sender =>
      some (setThread s t (.dispatching sender s.cancelled delay msg))
    | _ => none
  | .send t sent =>
    match s.threads t with
    | .dispatching sender cancelled delay msg => sendStep s t sender cancelled delay msg sent
    | _ => none
  | .finish t =>
    match s.threads t with
    | .running _ => some (setThread s t .waiting)
    | _ => none
  | .exit t =>
    match s.threads t with
    | .waiting =>
      if general t then
        if s.queue = [] ∧ Disconnected s.phase s.fetcher s.threads then some (setThread s t .exited) else none
      else if s.phase.mainSenders then none else some (setThread s t .exited)
    | _ => none
  | .listen => listenStep s
  | .listenerTimer =>
    match s.listener with
    | .sleeping => some { s with listener := .checking }
    | _ => none
  | .fetch i sent => fetchStep readable s i sent
  | .fetcherTimer =>
    match s.fetcher with
    | .sleeping => some { s with fetcher := .checking }
    | _ => none
  | .shutdown => shutdownStep s

/-- The process after boot: the storage may hold messages of earlier runs, and an instance
without the logback role runs no fetcher. -/
structure Booted (s : Plaid T) : Prop where
  cancelled : s.cancelled = false
  phase : s.phase = .running
  queue : s.queue = []
  delayed : s.delayed = []
  threads : ∀ t, s.threads t = .waiting
  listener : s.listener = .checking
  fetcher : s.fetcher = .checking ∨ s.fetcher = .ended
  accepted : s.accepted = []
  handed : s.handed = []
  clock : s.clock < 2 ^ 63
  stored : ∀ id d, s.store.lookup id = some d → d.message.id = id
  known : s.known = s.store.entries.map fun e => e.2.message

def Drain.heldLogs : Drain → List DelayedMessage
  | .holding log => [log]
  | _ => []

def Drain.stampedLogs : Drain → List DelayedMessage
  | .stamped log => [log]
  | _ => []

def Listener.drain : Listener → Drain
  | .listening drain => drain
  | _ => .ready

def Phase.drain : Phase → Drain
  | .flushing drain => drain
  | _ => .ready

def Fetcher.heap : Fetcher → List DelayedMessage
  | .walking _ heap => heap
  | .deleting _ heap _ => heap
  | _ => []

def Fetcher.forgetting : Fetcher → Option String
  | .deleting _ _ id => some id
  | _ => none

/-- The time a poll has read. -/
def Fetcher.now : Fetcher → Option ℕ
  | .filling now => some now
  | .walking now _ => some now
  | .deleting now _ _ => some now
  | _ => none

/-- What one event can do, branch by branch. -/
inductive Move (general : T → Bool) (s : Plaid T) : Plaid T → Prop
  | tick (h : s.clock + 1 < 2 ^ 63) : Move general s { s with clock := s.clock + 1 }
  | produce (m : Message) (h : s.phase.producing = true)
      (fresh : m.id ∉ s.known.map Message.id) :
      Move general s { s with queue := s.queue ++ [m], known := m :: s.known }
  | receive (t : T) (m : Message) (queue : List Message) (hg : general t = true)
      (ht : s.threads t = .waiting) (hq : s.queue = m :: queue) :
      Move general s (setThread { s with queue := queue, received := s.received ++ [m] } t .received)
  | inside (t : T) (st : ThreadState) (ht : (s.threads t).isExited = false)
      (hst : st.isExited = false)
      (hsender : st.holdsSender = true →
        (s.threads t).holdsSender = true ∨ s.phase.mainSenders = true) :
      Move general s (setThread s t st)
  | refuse (t : T) (sender cancelled : Bool) (delay : UInt32) (msg : Message)
      (ht : s.threads t = .dispatching sender cancelled delay msg)
      (fresh : msg.id ∉ s.known.map Message.id) :
      Move general s (setThread { s with known := msg :: s.known } t (.running sender))
  | sendNow (t : T) (sender cancelled : Bool) (delay : UInt32) (msg : Message)
      (ht : s.threads t = .dispatching sender cancelled delay msg)
      (hr : dispatchRoute cancelled delay sender = .immediate)
      (fresh : msg.id ∉ s.known.map Message.id) :
      Move general s (setThread { s with
        queue := s.queue ++ [msg]
        known := msg :: s.known
        accepted := s.accepted ++ [⟨msg, delay, .immediate, s.clock⟩]
        handed := s.handed ++ [(msg, s.clock)] } t (.running sender))
  | sendLater (t : T) (sender cancelled : Bool) (delay : UInt32) (k : ℕ) (msg : Message)
      (ht : s.threads t = .dispatching sender cancelled delay msg)
      (hr : dispatchRoute cancelled delay sender = .delayed k)
      (fresh : msg.id ∉ s.known.map Message.id) :
      Move general s (setThread { s with
        delayed := s.delayed ++ [⟨k, msg⟩]
        known := msg :: s.known
        accepted := s.accepted ++ [⟨msg, delay, .delayed k, s.clock⟩] } t (.running sender))
  | exit (t : T) (ht : s.threads t = .waiting)
      (hg : general t = true → s.queue = [] ∧ Disconnected s.phase s.fetcher s.threads)
      (hd : s.phase.mainSenders = false) : Move general s (setThread s t .exited)
  | listener (l : Listener) (hs : s.listener.drain = .ready) (hl : l.drain = .ready)
      (he : s.listener.isEnded = false) : Move general s { s with listener := l }
  | listenTake (log : DelayedMessage) (delayed : List DelayedMessage)
      (hs : s.listener = .listening .ready) (hd : s.delayed = log :: delayed) :
      Move general s { s with listener := .listening (.holding log), delayed := delayed }
  | listenStamp (log : DelayedMessage) (hs : s.listener = .listening (.holding log)) :
      Move general s { s with
        listener := .listening (.stamped { log with delay := addU64 log.delay s.clock }) }
  | listenStore (log : DelayedMessage) (hs : s.listener = .listening (.stamped log)) :
      Move general s { s with
        listener := .listening .ready
        store := s.store.insert log.message.id log }
  | fetcher (f : Fetcher) (he : s.fetcher.isEnded = false) (hs : s.fetcher.forgetting = none)
      (hf : f.forgetting = none)
      (hnow : ∀ n, f.now = some n → s.fetcher.now = some n ∨ n = s.clock)
      (hheap : ∀ d ∈ f.heap, d ∈ s.fetcher.heap ∨ ∃ k, s.store.lookup k = some d) :
      Move general s { s with fetcher := f }
  | fetchSend (now : ℕ) (heap : List DelayedMessage) (i : ℕ) (top : DelayedMessage)
      (hs : s.fetcher = .walking now heap) (hi : heap[i]? = some top) (hdue : top.delay ≤ now) :
      Move general s { s with
        queue := s.queue ++ [top.message]
        handed := s.handed ++ [(top.message, s.clock)]
        fetcher := .deleting now (heap.eraseIdx i) top.message.id }
  | fetchDelete (now : ℕ) (heap : List DelayedMessage) (id : String)
      (hs : s.fetcher = .deleting now heap id) :
      Move general s { s with store := s.store.erase id, fetcher := .walking now heap }
  | cancel (hs : s.phase = .running) :
      Move general s { s with cancelled := true, phase := .joiningTasks }
  | joinTasks (hs : s.phase = .joiningTasks) (hl : s.listener.isEnded = true)
      (hf : s.fetcher.isEnded = true) : Move general s { s with phase := .joiningServers }
  | joinServers (hs : s.phase = .joiningServers) : Move general s { s with phase := .dropping }
  | dropSenders (hs : s.phase = .dropping) : Move general s { s with phase := .joiningThreads }
  | joinThreads (hs : s.phase = .joiningThreads) (ht : ∀ t, (s.threads t).isExited = true) :
      Move general s { s with phase := .flushing .ready }
  | flushTake (log : DelayedMessage) (delayed : List DelayedMessage)
      (hs : s.phase = .flushing .ready) (hd : s.delayed = log :: delayed) :
      Move general s { s with phase := .flushing (.holding log), delayed := delayed }
  | flushStamp (log : DelayedMessage) (hs : s.phase = .flushing (.holding log)) :
      Move general s { s with
        phase := .flushing (.stamped { log with delay := addU64 log.delay s.clock }) }
  | flushStore (log : DelayedMessage) (hs : s.phase = .flushing (.stamped log)) :
      Move general s { s with
        phase := .flushing .ready
        store := s.store.insert log.message.id log }
  | flushed (hs : s.phase = .flushing .ready) (hd : s.delayed = []) :
      Move general s { s with phase := .done }

theorem listenStep_move {general : T → Bool} {s t : Plaid T} (h : listenStep s = some t) :
    Move general s t := by
  unfold listenStep at h
  cases hl : s.listener with
  | checking =>
    simp only [hl] at h
    split at h <;> cases h
    · exact .listener _ (by rw [hl]; rfl) rfl (by rw [hl]; rfl)
    · exact .listener _ (by rw [hl]; rfl) rfl (by rw [hl]; rfl)
  | listening drain =>
    simp only [hl] at h
    cases drain with
    | ready =>
      cases hd : s.delayed with
      | nil =>
        have hnone : drainStep s .ready = none := by simp [drainStep, hd]
        rw [hnone] at h
        cases h
        exact .listener _ (by rw [hl]; rfl) rfl (by rw [hl]; rfl)
      | cons log delayed =>
        simp only [drainStep, hd] at h
        cases h
        exact .listenTake log delayed hl hd
    | holding log =>
      cases h
      exact .listenStamp log hl
    | stamped log =>
      cases h
      exact .listenStore log hl
  | sleeping =>
    simp only [hl] at h
    split at h <;> cases h
    exact .listener _ (by rw [hl]; rfl) rfl (by rw [hl]; rfl)
  | ended =>
    simp only [hl] at h
    cases h

theorem fetchStep_move {general : T → Bool} {readable : DelayedMessage → Bool} {s t : Plaid T}
    {i : ℕ} {sent : Bool} (h : fetchStep readable s i sent = some t) : Move general s t := by
  unfold fetchStep at h
  cases hf : s.fetcher with
  | checking =>
    simp only [hf] at h
    split at h <;> cases h
    · exact .fetcher _ (by rw [hf]; rfl) (by rw [hf]; rfl) rfl (by simp [Fetcher.now])
        (by simp [Fetcher.heap])
    · exact .fetcher _ (by rw [hf]; rfl) (by rw [hf]; rfl) rfl (by simp [Fetcher.now])
        (by simp [Fetcher.heap])
  | reading =>
    simp only [hf] at h
    cases h
    exact .fetcher _ (by rw [hf]; rfl) (by rw [hf]; rfl) rfl (by simp [Fetcher.now])
      (by simp [Fetcher.heap])
  | filling now =>
    simp only [hf] at h
    cases h
    refine .fetcher _ (by rw [hf]; rfl) (by rw [hf]; rfl) rfl (by simp [Fetcher.now, hf]) ?_
    intro d hd
    obtain ⟨⟨k, d'⟩, he, rfl⟩ := List.mem_map.mp (List.mem_filter.mp hd).1
    exact Or.inr ⟨k, AList.mem_lookup_iff.mpr he⟩
  | walking now heap =>
    have hstop : Move general s { s with fetcher := .sleeping } :=
      .fetcher _ (by rw [hf]; rfl) (by rw [hf]; rfl) rfl (by simp [Fetcher.now])
        (by simp [Fetcher.heap])
    simp only [hf] at h
    split at h
    · split at h <;> cases h
      exact hstop
    · rename_i top hi
      split at h
      · cases h
      · split at h
        · cases h
          exact hstop
        · rename_i hdue
          split at h <;> cases h
          · exact .fetchSend now heap i top hf hi (Nat.le_of_not_lt hdue)
          · exact hstop
  | deleting now heap id =>
    simp only [hf] at h
    cases h
    exact .fetchDelete now heap id hf
  | sleeping =>
    simp only [hf] at h
    split at h <;> cases h
    exact .fetcher _ (by rw [hf]; rfl) (by rw [hf]; rfl) rfl (by simp [Fetcher.now])
      (by simp [Fetcher.heap])
  | ended =>
    simp only [hf] at h
    cases h

theorem sendStep_move {general : T → Bool} {s t : Plaid T} {u : T} {sender cancelled : Bool}
    {delay : UInt32} {msg : Message} {sent : Bool}
    (hu : s.threads u = .dispatching sender cancelled delay msg)
    (h : sendStep s u sender cancelled delay msg sent = some t) : Move general s t := by
  unfold sendStep at h
  split at h
  · cases h
  · rename_i fresh
    split at h
    · split at h <;> cases h
      · exact .sendNow u sender cancelled delay msg hu ‹_› fresh
      · exact .sendLater u sender cancelled delay _ msg hu ‹_› fresh
    · cases h
      exact .refuse u sender cancelled delay msg hu fresh

theorem shutdownStep_move [Fintype T] {general : T → Bool} {s t : Plaid T}
    (h : shutdownStep s = some t) : Move general s t := by
  unfold shutdownStep at h
  cases hp : s.phase with
  | running =>
    simp only [hp] at h
    cases h
    exact .cancel hp
  | joiningTasks =>
    simp only [hp] at h
    split at h <;> cases h
    rename_i hends
    rw [Bool.and_eq_true] at hends
    exact .joinTasks hp hends.1 hends.2
  | joiningServers =>
    simp only [hp] at h
    cases h
    exact .joinServers hp
  | dropping =>
    simp only [hp] at h
    cases h
    exact .dropSenders hp
  | joiningThreads =>
    simp only [hp] at h
    split at h <;> cases h
    exact .joinThreads hp ‹_›
  | flushing drain =>
    simp only [hp] at h
    cases drain with
    | ready =>
      cases hd : s.delayed with
      | nil =>
        have hnone : drainStep s .ready = none := by simp [drainStep, hd]
        rw [hnone] at h
        cases h
        exact .flushed hp hd
      | cons log delayed =>
        simp only [drainStep, hd] at h
        cases h
        exact .flushTake log delayed hp hd
    | holding log =>
      cases h
      exact .flushStamp log hp
    | stamped log =>
      cases h
      exact .flushStore log hp
  | done =>
    simp only [hp] at h
    cases h

theorem step_move [Fintype T] {general : T → Bool} {readable : DelayedMessage → Bool}
    {s t : Plaid T} {e : Event T} (h : step general readable s e = some t) : Move general s t := by
  cases e with
  | tick =>
    simp only [step] at h
    split at h <;> cases h
    exact .tick ‹_›
  | produce m =>
    simp only [step] at h
    split at h <;> cases h
    rename_i hp
    exact .produce m hp.1 hp.2
  | receive u =>
    simp only [step] at h
    split at h
    · rename_i ht hq
      split at h <;> cases h
      exact .receive u _ _ ‹_› ht hq
    · cases h
  | receiveDedicated u =>
    simp only [step] at h
    split at h
    · rename_i ht
      split at h <;> cases h
      exact .inside u _ (by rw [ht]; rfl) rfl (by simp [ThreadState.holdsSender])
    · cases h
  | readToken u =>
    simp only [step] at h
    split at h
    · rename_i ht
      cases h
      cases s.cancelled <;>
        exact .inside u _ (by rw [ht]; rfl) rfl (by simp [ThreadState.holdsSender])
    · cases h
  | upgrade u =>
    simp only [step] at h
    split at h
    · rename_i ht
      cases h
      exact .inside u _ (by rw [ht]; rfl) rfl (fun hs => Or.inr hs)
    · cases h
  | call u delay msg =>
    simp only [step] at h
    split at h
    · rename_i sender ht
      cases h
      exact .inside u _ (by rw [ht]; rfl) rfl (fun hs => Or.inl (by rw [ht]; exact hs))
    · cases h
  | send u sent =>
    simp only [step] at h
    split at h
    · exact sendStep_move ‹_› h
    · cases h
  | finish u =>
    simp only [step] at h
    split at h
    · rename_i ht
      cases h
      exact .inside u _ (by rw [ht]; rfl) rfl (by simp [ThreadState.holdsSender])
    · cases h
  | exit u =>
    simp only [step] at h
    split at h
    · rename_i ht
      split at h
      · split at h <;> cases h
        rename_i hd
        exact .exit u ht (fun _ => hd) hd.2.main
      · rename_i hg
        split at h <;> cases h
        rename_i hm
        exact .exit u ht (fun hg' => absurd hg' hg) (by simpa using hm)
    · cases h
  | listen => exact listenStep_move h
  | listenerTimer =>
    simp only [step] at h
    split at h <;> cases h
    rename_i hl
    exact .listener _ (by rw [hl]; rfl) rfl (by rw [hl]; rfl)
  | fetch i sent => exact fetchStep_move h
  | fetcherTimer =>
    simp only [step] at h
    split at h <;> cases h
    rename_i hf
    exact .fetcher _ (by rw [hf]; rfl) (by rw [hf]; rfl) rfl (by simp [Fetcher.now])
      (by simp [Fetcher.heap])
  | shutdown => exact shutdownStep_move h

end PlaidRuntime.LogbackDelivery
