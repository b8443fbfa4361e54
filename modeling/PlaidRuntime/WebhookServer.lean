import PlaidRuntime.RelyGuarantee
import PlaidRuntime.WebhookHandlers

/-!
# Webhooks and execution threads together

What the handlers and the execution threads share, and how each of their requests is answered.
The history is kept for the statements only.
-/
namespace PlaidRuntime.WebhookServer
open EffectProgram GuestMemory LockMonitor RelyGuarantee ThreadPools WebhookHandlers
open LogbackMessage hiding Env
open ResponseAnswer (ResponseSender ResponseMessage Execution PersistentResponse)

variable {T : Type}

/-- A oneshot channel and the thread that waits at its other end. -/
structure Channel (T : Type) where
  sender : ResponseSender
  owner : T

inductive Event
  | sent (pool : Pool) (q : Queued)
  | took (pool : Pool) (q : Queued)
  | ran (module : String) (message : Message)
  | stored (module response : String) (sender : Option ℕ)
  | cached (webhook : String) (stamp : UInt64) (body : String)
  deriving DecidableEq

/-- The events of an execution thread's round. -/
def Event.isWork : Event → Bool
  | .took _ _ => true
  | .ran _ _ => true
  | _ => false

structure Server (T : Type) where
  cache : String → Option (UInt64 × String)
  queues : Pool → List Queued
  responses : String → Option PersistentResponse
  channels : List (Channel T)
  exited : T → Bool
  history : List (T × Event)

/-- How a request turns out. -/
inductive Label
  | done
  | time (now : UInt64)
  | body (r : Except String Bytes)
  | id (id : String)
  | tried (r : Except TrySendError Unit)
  | executed (x : Execution)
  | logged (r : Except String Unit)
  | closed

namespace Server
variable (s : Server T)

def record (t : T) (e : Event) : Server T := { s with history := s.history ++ [(t, e)] }

def senderOf : Option ℕ → ResponseSender
  | none => .absent
  | some c => (s.channels[c]?).elim .absent Channel.sender

/-- The state of a channel after its sender was used or dropped. -/
def setSender (sender : Option ℕ) (state : ResponseSender) : Server T :=
  match sender with
  | none => s
  | some c => { s with channels := s.channels.modify c fun channel => { channel with sender := state } }

def dropSender (sender : Option ℕ) : Server T := s.setSender sender (s.senderOf sender).drop

def openChannel (t : T) : Server T := { s with channels := s.channels ++ [⟨.waiting, t⟩] }

def enqueue (t : T) (pool : Pool) (q : Queued) : Server T :=
  { s with queues := Function.update s.queues pool (s.queues pool ++ [q]) }.record t (.sent pool q)

def dequeue (t : T) (pool : Pool) (q : Queued) (queue : List Queued) : Server T :=
  { s with queues := Function.update s.queues pool queue }.record t (.took pool q)

def insertCache (t : T) (webhook : String) (stamp : UInt64) (body : String) : Server T :=
  { s with cache := Function.update s.cache webhook (some (stamp, body)) }.record t
    (.cached webhook stamp body)

/-- `update_persistent_response`: the lock on the response is held until the sender is used. -/
def update (t : T) (module : String) (response : Option String) (sender : Option ℕ) :
    Except ResponseAnswer.ExecutorError Unit × Server T :=
  let out := ResponseAnswer.updatePersistentResponse ⟨module, 0, s.responses module⟩ response
    (s.senderOf sender)
  let s' := { s.setSender sender out.sender with
    responses := Function.update s.responses module out.module.persistentResponse }
  match response, out.result, s.responses module with
  | some r, .ok (), some _ => (out.result, s'.record t (.stored module r sender))
  | _, _, _ => (out.result, s')

end Server

section fields
variable (t : T) (s : Server T) (sender : Option ℕ) (state : ResponseSender)

@[simp] theorem record_history (e : Event) : (s.record t e).history = s.history ++ [(t, e)] := rfl

@[simp] theorem setSender_history : (s.setSender sender state).history = s.history := by
  cases sender <;> rfl

@[simp] theorem setSender_queues : (s.setSender sender state).queues = s.queues := by
  cases sender <;> rfl

@[simp] theorem setSender_exited : (s.setSender sender state).exited = s.exited := by
  cases sender <;> rfl

@[simp] theorem setSender_cache : (s.setSender sender state).cache = s.cache := by
  cases sender <;> rfl

@[simp] theorem setSender_responses : (s.setSender sender state).responses = s.responses := by
  cases sender <;> rfl

/-- What an update leaves alone. -/
theorem update_frame (module : String) (response : Option String) :
    (s.update t module response sender).2.queues = s.queues ∧
    (s.update t module response sender).2.cache = s.cache ∧
    (s.update t module response sender).2.exited = s.exited := by
  unfold Server.update
  dsimp only
  split <;> simp [Server.record]

/-- What an update adds to the history. -/
theorem update_history (module : String) (response : Option String) :
    (s.update t module response sender).2.history = s.history ∨
    ∃ r, response = some r ∧
      (s.update t module response sender).2.history = s.history ++ [(t, .stored module r sender)] := by
  unfold Server.update
  dsimp only
  split
  · exact .inr ⟨_, rfl, by simp⟩
  · exact .inl (by simp)

end fields

variable [DecidableEq T]

/-- `read_body_with_limit` returns nothing longer than the limit. -/
def withinLimit (maxSize : ℕ) : Except String Bytes → Bool
  | .ok body => body.length ≤ maxSize
  | .error _ => true

def reply (t : T) (s : Server T) : (e : Request) → Label → Option (e.Reply × Server T)
  | .now, .time now => some (now, s)
  | .readCache webhook, .done => some (s.cache webhook, s)
  | .writeCache webhook stamp body, .done => some ((), s.insertCache t webhook stamp body)
  | .getPersistentResponseData module, .done =>
    some ((s.responses module).bind fun pr => pr.getData.toOption.join, s)
  | .channel, .done => some (s.channels.length, s.openChannel t)
  | .readBody maxSize, .body r => if withinLimit maxSize r then some (r, s) else none
  | .newId, .id id => some (id, s)
  | .trySend pool q, .tried (.ok ()) => some (.ok (), s.enqueue t pool q)
  | .trySend _ q, .tried (.error e) => some (.error e, s.dropSender q.responseSender)
  | .receive channel, .done =>
    match s.senderOf (some channel) with
    | .sent response => some (.ok response, s)
    | .dropped => some (.error (), s)
    | _ => none
  | .recv pool, .done =>
    match s.exited t, s.queues pool with
    | false, q :: queue => some (some q, s.dequeue t pool q queue)
    | _, _ => none
  -- no sender is left, so nothing will come
  | .recv pool, .closed =>
    match s.exited t, s.queues pool with
    | false, [] => some (none, s)
    | _, _ => none
  | .execute module message _, .executed x => some (x, s.record t (.ran module message))
  | .log _, .logged r => some (r, s)
  | .updatePersistentResponse module response sender, .done => some (s.update t module response sender)
  | .drop sender, .done => some ((), s.dropSender sender)
  | .exit, .done => some ((), { s with exited := Function.update s.exited t true })
  | _, _ => none

section replies
variable {t : T} {s s' : Server T} {l : Label}

theorem reply_now {r : UInt64} (h : reply t s .now l = some (r, s')) : s' = s := by
  cases l <;> cases h
  rfl

theorem reply_readCache {webhook : String} {r : Option (UInt64 × String)}
    (h : reply t s (.readCache webhook) l = some (r, s')) : r = s.cache webhook ∧ s' = s := by
  cases l <;> cases h
  exact ⟨rfl, rfl⟩

theorem reply_writeCache {webhook body : String} {stamp : UInt64} {r : Unit}
    (h : reply t s (.writeCache webhook stamp body) l = some (r, s')) :
    s' = s.insertCache t webhook stamp body := by
  cases l <;> cases h
  rfl

theorem reply_getPersistentResponseData {module : String} {r : Option String}
    (h : reply t s (.getPersistentResponseData module) l = some (r, s')) :
    (r = (s.responses module).bind fun pr => pr.getData.toOption.join) ∧ s' = s := by
  cases l <;> cases h
  exact ⟨rfl, rfl⟩

theorem reply_channel {r : ℕ} (h : reply t s .channel l = some (r, s')) :
    r = s.channels.length ∧ s' = s.openChannel t := by
  cases l <;> cases h
  exact ⟨rfl, rfl⟩

theorem reply_readBody {maxSize : ℕ} {r : Except String Bytes}
    (h : reply t s (.readBody maxSize) l = some (r, s')) : withinLimit maxSize r = true ∧ s' = s := by
  cases l <;> simp only [reply, reduceCtorEq] at h
  split at h
  · cases h
    exact ⟨‹_›, rfl⟩
  · cases h

theorem reply_newId {r : String} (h : reply t s .newId l = some (r, s')) : s' = s := by
  cases l <;> cases h
  rfl

theorem reply_trySend {pool : Pool} {q : Queued} {r : Except TrySendError Unit}
    (h : reply t s (.trySend pool q) l = some (r, s')) :
    r = .ok () ∧ s' = s.enqueue t pool q ∨
      (∃ e, r = .error e) ∧ s' = s.dropSender q.responseSender := by
  cases l with
  | tried r =>
    cases r with
    | ok u =>
      cases h
      exact .inl ⟨rfl, rfl⟩
    | error e =>
      cases h
      exact .inr ⟨⟨e, rfl⟩, rfl⟩
  | _ => cases h

theorem reply_receive {channel : ℕ} {r : Except Unit (Option ResponseMessage)}
    (h : reply t s (.receive channel) l = some (r, s')) :
    s' = s ∧ ∀ response, r = .ok response → s.senderOf (some channel) = .sent response := by
  cases l <;> simp only [reply, reduceCtorEq] at h
  split at h
  · cases h
    rename_i hs
    refine ⟨rfl, fun response hr => ?_⟩
    cases hr
    exact hs
  · cases h
    exact ⟨rfl, nofun⟩
  · cases h

theorem reply_recv {pool : Pool} {r : Option Queued}
    (h : reply t s (.recv pool) l = some (r, s')) :
    s.exited t = false ∧
      ((∃ q queue, s.queues pool = q :: queue ∧ r = some q ∧ s' = s.dequeue t pool q queue) ∨
        r = none ∧ s' = s) := by
  cases l <;> simp only [reply, reduceCtorEq] at h
  · split at h
    · cases h
      rename_i q queue he hq
      exact ⟨he, .inl ⟨q, queue, hq, rfl, rfl⟩⟩
    · cases h
  · split at h
    · cases h
      rename_i he hq
      exact ⟨he, .inr ⟨rfl, rfl⟩⟩
    · cases h

theorem reply_execute {module : String} {message : Message} {response : Option String}
    {r : Execution} (h : reply t s (.execute module message response) l = some (r, s')) :
    s' = s.record t (.ran module message) := by
  cases l <;> cases h
  rfl

theorem reply_log {entry : ResponseAnswer.LogEntry} {r : Except String Unit}
    (h : reply t s (.log entry) l = some (r, s')) : s' = s := by
  cases l <;> cases h
  rfl

theorem reply_update {module : String} {response : Option String} {sender : Option ℕ}
    {r : Except ResponseAnswer.ExecutorError Unit}
    (h : reply t s (.updatePersistentResponse module response sender) l = some (r, s')) :
    s.update t module response sender = (r, s') := by
  cases l <;> first | exact Option.some.inj h | cases h

theorem reply_drop {sender : Option ℕ} {r : Unit}
    (h : reply t s (.drop sender) l = some (r, s')) : s' = s.dropSender sender := by
  cases l <;> cases h
  rfl

theorem reply_exit {r : Unit} (h : reply t s .exit l = some (r, s')) :
    s' = { s with exited := Function.update s.exited t true } := by
  cases l <;> cases h
  rfl

/-- The event that a request may leave in the history. -/
def Noted : Request → Event → Prop
  | .writeCache webhook stamp body, .cached webhook' stamp' body' =>
    webhook' = webhook ∧ stamp' = stamp ∧ body' = body
  | .trySend pool q, .sent pool' q' => pool' = pool ∧ q' = q
  | .recv pool, .took pool' _ => pool' = pool
  | .execute module message _, .ran module' message' => module' = module ∧ message' = message
  | .updatePersistentResponse module response sender, .stored module' response' sender' =>
    module' = module ∧ some response' = response ∧ sender' = sender
  | _, _ => False

/-- Every reply adds at most one event, of the thread that asked. -/
theorem reply_history {e : Request} {r : e.Reply} (h : reply t s e l = some (r, s')) :
    s'.history = s.history ∨ ∃ event, s'.history = s.history ++ [(t, event)] ∧ Noted e event := by
  cases e with
  | now => exact .inl (by rw [reply_now h])
  | readCache webhook => exact .inl (by rw [(reply_readCache h).2])
  | writeCache webhook stamp body =>
    exact .inr ⟨.cached webhook stamp body, by rw [reply_writeCache h]; rfl, rfl, rfl, rfl⟩
  | getPersistentResponseData module => exact .inl (by rw [(reply_getPersistentResponseData h).2])
  | channel => exact .inl (by rw [(reply_channel h).2]; rfl)
  | readBody maxSize => exact .inl (by rw [(reply_readBody h).2])
  | newId => exact .inl (by rw [reply_newId h])
  | trySend pool q =>
    obtain ⟨-, rfl⟩ | ⟨-, rfl⟩ := reply_trySend h
    · exact .inr ⟨.sent pool q, rfl, rfl, rfl⟩
    · exact .inl (setSender_history _ _ _)
  | receive channel => exact .inl (by rw [(reply_receive h).1])
  | recv pool =>
    obtain ⟨-, ⟨q, queue, -, -, rfl⟩ | ⟨-, rfl⟩⟩ := reply_recv h
    · exact .inr ⟨.took pool q, rfl, rfl⟩
    · exact .inl rfl
  | execute module message response =>
    exact .inr ⟨.ran module message, by rw [reply_execute h]; rfl, rfl, rfl⟩
  | log entry => exact .inl (by rw [reply_log h])
  | updatePersistentResponse module response sender =>
    have hs : s' = (s.update t module response sender).2 := by rw [reply_update h]
    subst hs
    obtain hsame | ⟨r, hresponse, hstored⟩ := update_history t s sender module response
    · exact .inl hsame
    · exact .inr ⟨.stored module r sender, hstored, rfl, hresponse.symm, rfl⟩
  | drop sender => exact .inl (by rw [reply_drop h]; exact setSender_history _ _ _)
  | exit => exact .inl (by rw [reply_exit h])

end replies

/-- What a handler remembers: the time it read first, and what it handed to `try_send`. -/
structure Notes where
  now : Option UInt64
  tried : List (Pool × Queued × Except TrySendError Unit)

def note (g : Notes) : (e : Request) → e.Reply → Notes
  | .now, now => { g with now := g.now <|> some now }
  | .trySend pool q, r => { g with tried := g.tried ++ [(pool, q, r)] }
  | _, _ => g

variable (cfg : WebhookHandlers.Config)

def system : System Request Request.Reply (Server T) Label Call Outcome Notes T where
  code := code cfg
  reply := reply
  fresh := ⟨none, []⟩
  note g _ e r _ := note g e r

/-! One execution with nothing else going on. -/
section alone
variable {cfg : WebhookHandlers.Config} (t : T) {s : Server T}

/-- The requests of an execution when nothing else goes on. -/
def turn (x : ResponseAnswer.Execution) (els : Except String Unit) : Request → Label
  | .execute _ _ _ => .executed x
  | .log _ => .logged els
  | _ => .done

abbrev alone (x : ResponseAnswer.Execution) (els : Except String Unit) :
    Server T → (e : Request) → Option (e.Reply × Server T) :=
  fun s e => reply t s e (turn x els e)

omit [DecidableEq T] in
theorem senderOf_setSender_self {sender : Option ℕ} {state : ResponseSender}
    (h : s.senderOf sender = .absent → state = .absent) :
    (s.setSender sender state).senderOf sender = state := by
  cases sender with
  | none => exact (h rfl).symm
  | some n =>
    cases hc : s.channels[n]? with
    | none =>
      have habsent : s.senderOf (some n) = .absent := by simp [Server.senderOf, hc]
      simp [Server.setSender, Server.senderOf, hc, h habsent]
    | some c => simp [Server.setSender, Server.senderOf, hc]

theorem logModuleError_alone (x : ResponseAnswer.Execution) (els : Except String Unit)
    (m : ResponseAnswer.PlaidModule) (text : String) (data : GuestMemory.Bytes) (sender : Option ℕ)
    (hresponses : s.responses m.name = m.persistentResponse) :
    ∃ s', (logModuleError m.name text data sender).eval (alone t x els) s =
        some ((ResponseAnswer.logModuleError els m (s.senderOf sender) text data).result, s') ∧
      s'.responses m.name =
        (ResponseAnswer.logModuleError els m (s.senderOf sender) text data).module.persistentResponse ∧
      s'.senderOf sender =
        (ResponseAnswer.logModuleError els m (s.senderOf sender) text data).sender := by
  have hdrop : s.senderOf sender = .absent → (s.senderOf sender).drop = .absent := by
    intro h
    rw [h]
    rfl
  have hresponses' : (s.dropSender sender).responses m.name = m.persistentResponse := by
    rw [Server.dropSender, setSender_responses]
    exact hresponses
  cases els with
  | ok u => exact ⟨s.dropSender sender, rfl, hresponses', senderOf_setSender_self hdrop⟩
  | error e => exact ⟨s.dropSender sender, rfl, hresponses', senderOf_setSender_self hdrop⟩

theorem error_eq (x : ResponseAnswer.Execution) (m : ResponseAnswer.PlaidModule) :
    x.error m = errorOf m.computationLimit x (x.finalEnv m) := by
  unfold ResponseAnswer.Execution.error errorOf ResponseAnswer.determineError
  cases x.returned <;> rfl

omit [DecidableEq T] in
/-- The update of the shared state is the update of the module. -/
theorem update_eq {m : ResponseAnswer.PlaidModule} (response : Option String) (sender : Option ℕ)
    (hresponses : s.responses m.name = m.persistentResponse) :
    (s.update t m.name response sender).1 =
      (ResponseAnswer.updatePersistentResponse m response (s.senderOf sender)).result ∧
    (s.update t m.name response sender).2.responses m.name =
      (ResponseAnswer.updatePersistentResponse m response
        (s.senderOf sender)).module.persistentResponse ∧
    (s.update t m.name response sender).2.senderOf sender =
      (ResponseAnswer.updatePersistentResponse m response (s.senderOf sender)).sender := by
  have hsame : ResponseAnswer.updatePersistentResponse ⟨m.name, 0, s.responses m.name⟩ response
      (s.senderOf sender) =
      { ResponseAnswer.updatePersistentResponse m response (s.senderOf sender) with
        module := { (ResponseAnswer.updatePersistentResponse m response
          (s.senderOf sender)).module with computationLimit := 0 } } := by
    obtain ⟨name, limit, pr⟩ := m
    simp only at hresponses
    simp only [hresponses]
    unfold ResponseAnswer.updatePersistentResponse
    cases response with
    | none => rfl
    | some response =>
      cases pr with
      | none => rfl
      | some pr =>
        dsimp only
        split_ifs <;> rfl
  have habsent : s.senderOf sender = .absent →
      (ResponseAnswer.updatePersistentResponse m response (s.senderOf sender)).sender = .absent := by
    intro h
    rw [h]
    unfold ResponseAnswer.updatePersistentResponse
    split
    · rfl
    · rfl
    · split_ifs <;> rfl
  have hsender := senderOf_setSender_self habsent
  unfold Server.update
  rw [hsame]
  dsimp only
  split <;> exact ⟨rfl, Function.update_self _ _ _, hsender⟩

theorem finishExecution_alone {x : ResponseAnswer.Execution} {els : Except String Unit}
    (name : String) (data : GuestMemory.Bytes) (sender : Option ℕ) (env : ResponseAnswer.Env) :
    (finishExecution name data sender env).eval (alone t x els) s =
      some (.ok (), (s.update t name env.response sender).2) := by
  have hlog : (logReturned name env).eval (alone t x els) s = some ((), s) := by
    unfold logReturned
    cases env.executionErrorContext <;> rfl
  unfold finishExecution
  have hupdate : (Prog.perform (Request.updatePersistentResponse name env.response sender)).eval
      (alone t x els) s = some (s.update t name env.response sender) := rfl
  rw [Prog.eval_bind, hlog, Option.bind_some, Prog.eval_bind, hupdate, Option.bind_some]
  obtain ⟨r, s'⟩ := s.update t name env.response sender
  cases r <;> rfl

/-- Undisturbed, an execution comes to what the model of one execution says. -/
theorem process_alone {x : ResponseAnswer.Execution} {els : Except String Unit}
    {m : ResponseAnswer.PlaidModule} {module : PlaidModule} (hname : module.name = m.name)
    (hlimit : cfg.computationLimit m.name = m.computationLimit)
    (hresponses : s.responses m.name = m.persistentResponse) (message : Message) (sender : Option ℕ) :
    ∃ s', (processMessageWithModule cfg message sender module).eval (alone t x els) s = some
        ((ResponseAnswer.processMessageWithModule els m message.data (s.senderOf sender) x).result, s') ∧
      s'.responses m.name = (ResponseAnswer.processMessageWithModule els m message.data
        (s.senderOf sender) x).module.persistentResponse ∧
      s'.senderOf sender = (ResponseAnswer.processMessageWithModule els m message.data
        (s.senderOf sender) x).sender := by
  let s₁ := s.record t (.ran module.name message.createDuplicate)
  have hresponse : ((s.responses module.name).bind fun pr => pr.getData.toOption.join) =
      m.getPersistentResponseData := by
    rw [hname, hresponses]
    rfl
  have hprogram : (processMessageWithModule cfg message sender module).eval (alone t x els) s =
      (concludeExecution cfg message sender module m.getPersistentResponseData x).eval
        (alone t x els) s₁ := by
    rw [← hresponse]
    rfl
  have hresponses₁ : s₁.responses m.name = m.persistentResponse := hresponses
  have hsender₁ : s₁.senderOf sender = s.senderOf sender := rfl
  have hlog := fun text => logModuleError_alone t x els m text message.data sender hresponses₁
  rw [hprogram]
  unfold concludeExecution ResponseAnswer.processMessageWithModule
  cases hprepared : x.prepared with
  | error e => exact hname ▸ hlog _
  | ok u =>
    have herror : errorOf (cfg.computationLimit module.name) x
        (x.calls.foldl ResponseAnswer.Env.call ⟨m.getPersistentResponseData, none⟩) = x.error m := by
      rw [error_eq, hname, hlimit]
      rfl
    simp only [herror]
    cases x.error m with
    | some error => exact hname ▸ hlog _
    | none =>
      obtain ⟨-, hmodule, hsender⟩ := update_eq t (x.finalEnv m).response sender hresponses₁
      refine ⟨_, finishExecution_alone t module.name message.data sender (x.finalEnv m), ?_, ?_⟩
      · rw [hname]
        exact hmodule
      · rw [hname]
        exact hsender
end alone

section instances
open ResponseAnswer (pongExecution)

/-- One webhook, whose GETs are answered by the rule `ping` and cached for a minute. -/
def pingConfig : WebhookHandlers.Config where
  webhooks := AList.singleton "hook"
    ⟨"log", ["x-id"], 1000, some ⟨.timed 60, .rule "ping"⟩, none, .limited 0⟩
  modulesByName := AList.singleton "ping" ⟨"ping", 10⟩
  channels := ∅
  computationLimit _ := 1000
  pools := ⟨1, ∅⟩

def pingRequest : GetRequest := ⟨"hook", ∅, [("x-id", [7])]⟩

/-- The handler of GETs is one thread, the execution thread the other. -/
def pingServer : LockMonitor.Config Request Request.Reply (Server Bool) Call Outcome Notes Bool where
  shared := {
    cache := fun _ => none
    queues := fun _ => []
    responses := fun module => if module = "ping" then some (.new 4) else none
    channels := []
    exited := fun _ => false
    history := [] }
  threads _ := none

/-- The GET waits for the answer, and the rule has run. -/
def pingWaits : List (Action Label Call Bool) :=
  [.start true (.get pingRequest), .step true (.time 100), .step true .done, .step true .done,
    .step true (.body (.ok [])), .step true (.id "1"), .step true (.tried (.ok ())),
    .start false (.work none), .step false .done, .step false .done,
    .step false (.executed pongExecution), .step false .done]

/-- The answer is served and cached, and so the next GET is served from the cache. -/
def pingServed : List (Action Label Call Bool) :=
  pingWaits ++ [.step true .done, .step true (.time 101), .step true .done,
    .start true (.get pingRequest), .step true (.time 120), .step true .done]

end instances
end PlaidRuntime.WebhookServer
