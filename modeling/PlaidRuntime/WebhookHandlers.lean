import PlaidRuntime.EffectProgram
import PlaidRuntime.NamedRequest
import PlaidRuntime.ResponseAnswer
import PlaidRuntime.ResponseModes
import PlaidRuntime.ThreadPools

/-!
# Webhook handlers and execution threads

The handlers of GET and POST requests (`bin/plaid.rs`, `config.rs`) and one round of the loop of
an execution thread (`executor/mod.rs`), as programs over what they share: the cache of GET
responses, the queues, the oneshot channels and the persistent responses of the modules.
-/
namespace PlaidRuntime.WebhookHandlers
open EffectProgram GuestMemory ResponseModes ThreadPools
open LogbackMessage hiding Env
open ResponseAnswer hiding PlaidModule processMessageWithModule logModuleError updatePersistentResponse
open NamedRequest (lower)

inductive CachingMode
  | none
  | timed (validity : UInt64)
  | usePersistentResponse (callOnNone : Bool)
  deriving DecidableEq, Repr

structure GetMode where
  cachingMode : CachingMode
  responseMode : ResponseMode
  deriving DecidableEq, Repr

structure WebhookConfig where
  logType : String
  headers : List String
  maxBodySize : ℕ
  getMode : Option GetMode
  label : Option String
  logbacksAllowed : LogbacksAllowed
  deriving DecidableEq, Repr

/-- What the handlers and the execution threads are started with: `modulesByName` is
`PlaidModules::get_modules`, `channels` is `PlaidModules::get_channels`. -/
structure Config where
  webhooks : AList fun _ : String => WebhookConfig
  modulesByName : AList fun _ : String => PlaidModule
  channels : AList fun _ : String => List PlaidModule
  computationLimit : String → ℕ
  pools : ExecutionThreadPools

/-- A `warp` header map: names in lower case, in the order of arrival. -/
abbrev HeaderMap := List (String × Bytes)

/-- The first value of a header. -/
def HeaderMap.get (headers : HeaderMap) (name : String) : Option Bytes :=
  (headers.find? fun h => h.1 = lower name).map Prod.snd

structure GetRequest where
  webhook : String
  query : AList fun _ : String => String
  headers : HeaderMap

structure PostRequest where
  webhook : String
  headers : HeaderMap

/-- A message with the oneshot channel whose sender it carries. -/
structure Queued where
  message : Message
  responseSender : Option ℕ
  deriving DecidableEq

inductive TrySendError
  | full
  | disconnected
  deriving DecidableEq, Repr

inductive Request
  | now
  | readCache (webhook : String)
  | writeCache (webhook : String) (stamp : UInt64) (body : String)
  | getPersistentResponseData (module : String)
  | channel
  | readBody (maxSize : ℕ)
  | newId
  | trySend (pool : Pool) (q : Queued)
  | receive (channel : ℕ)
  | recv (pool : Pool)
  | execute (module : String) (message : Message) (response : Option String)
  | log (entry : LogEntry)
  | updatePersistentResponse (module : String) (response : Option String) (sender : Option ℕ)
  | drop (sender : Option ℕ)
  | exit

/-- `receive` fails when the sender is dropped unused, `recv` when there are no senders left. -/
@[reducible] def Request.Reply : Request → Type
  | .now => UInt64
  | .readCache _ => Option (UInt64 × String)
  | .writeCache _ _ _ => Unit
  | .getPersistentResponseData _ => Option String
  | .channel => ℕ
  | .readBody _ => Except String Bytes
  | .newId => String
  | .trySend _ _ => Except TrySendError Unit
  | .receive _ => Except Unit (Option ResponseMessage)
  | .recv _ => Option Queued
  | .execute _ _ _ => Execution
  | .log _ => Except String Unit
  | .updatePersistentResponse _ _ _ => Except ExecutorError Unit
  | .drop _ => Unit
  | .exit => Unit

abbrev Program := Prog Request Request.Reply

open Prog Request

/-- What a call comes to: an HTML page, a status code, the end of a round, the end of the loop. -/
inductive Outcome
  | html (body : String)
  | status (code : ℕ)
  | panicked
  | produced
  | next
  | returned (result : Except ExecutorError Unit)

section messages
variable (webhook : String) (conf : WebhookConfig)

/-- The label, or the address of the webhook. -/
def sourceOf : String := conf.label.getD webhook

/-- The requested headers that are there, under the names asked for. -/
def insertHeaders (headers : HeaderMap) (message : Message) : Message :=
  conf.headers.foldl (fun message requested =>
    match headers.get requested with
    | some value => { message with headers := message.headers.insert requested value }
    | none => message) message

def postMessage (headers : HeaderMap) (id : String) (body : Bytes) : Message :=
  insertHeaders conf headers
    (.new id conf.logType body (.webhookPost (sourceOf webhook conf)) conf.logbacksAllowed)

/-- `query.into_iter().map(|(k, v)| (k, v.into_bytes()))`. -/
def queryParams (query : AList fun _ : String => String) : ByteMap :=
  query.entries.foldl (fun params e => params.insert e.1 (asBytes e.2)) ∅

def getMessage (name : String) (rule : PlaidModule) (req : GetRequest) (id : String)
    (body : Bytes) : Message :=
  insertHeaders conf req.headers
    { Message.new id name body (.webhookGet (sourceOf webhook conf)) conf.logbacksAllowed with
      queryParams := queryParams req.query, module := some rule }

end messages

section content
variable {conf : WebhookConfig} {headers : HeaderMap} {message : Message}

/-- Only the headers of a message change. -/
theorem insertHeaders_eq :
    insertHeaders conf headers message =
      { message with headers := (insertHeaders conf headers message).headers } := by
  unfold insertHeaders
  induction conf.headers generalizing message with
  | nil => rfl
  | cons requested requests ih =>
    rw [List.foldl_cons, ih]
    split <;> rfl

/-- A header arrives when it is configured and was sent. -/
theorem lookup_insertHeaders (name : String) :
    (insertHeaders conf headers message).headers.lookup name =
      if name ∈ conf.headers ∧ (headers.get name).isSome then headers.get name
      else message.headers.lookup name := by
  unfold insertHeaders
  induction conf.headers generalizing message with
  | nil => simp
  | cons requested requests ih =>
    rw [List.foldl_cons, ih]
    by_cases hmem : name ∈ requests ∧ (headers.get name).isSome
    · rw [if_pos hmem, if_pos ⟨List.mem_cons_of_mem _ hmem.1, hmem.2⟩]
    · rw [if_neg hmem]
      by_cases hname : name = requested
      · subst hname
        cases hget : headers.get name with
        | none => simp
        | some value => simp
      · have hlookup : ∀ value, (message.headers.insert requested value).lookup name =
            message.headers.lookup name := fun value => AList.lookup_insert_ne hname
        have hcons : ¬ (name ∈ requested :: requests ∧ (headers.get name).isSome) := by
          simpa [hname] using hmem
        rw [if_neg hcons]
        split
        · exact hlookup _
        · rfl

theorem lookup_foldl_insert (l : List (Σ _ : String, String)) (hl : l.NodupKeys) (params : ByteMap)
    (key : String) :
    (l.foldl (fun params e => params.insert e.1 (asBytes e.2)) params).lookup key =
      ((l.dlookup key).map asBytes).or (params.lookup key) := by
  induction l generalizing params with
  | nil => rfl
  | cons e l ih =>
    obtain ⟨k, v⟩ := e
    obtain ⟨hk, hl⟩ := List.nodupKeys_cons.mp hl
    rw [List.foldl_cons, ih hl]
    by_cases hkey : key = k
    · subst hkey
      rw [List.dlookup_cons_eq, List.dlookup_eq_none.mpr hk, AList.lookup_insert]
      rfl
    · rw [List.dlookup_cons_ne _ _ hkey, AList.lookup_insert_ne hkey]

/-- Every query parameter arrives, and no other. -/
theorem lookup_queryParams (query : AList fun _ : String => String) (key : String) :
    (queryParams query).lookup key = (query.lookup key).map asBytes := by
  rw [queryParams, lookup_foldl_insert _ query.nodupKeys]
  cases h : List.dlookup key query.entries <;> simp [AList.lookup, h]

end content

/-- What the caching mode comes to: the page that is served at once, or a call of the rule, after
which the cache may have to be updated. -/
inductive CacheDecision
  | page (body : String)
  | call (update : Bool)

def consultCache (webhook : String) (rule : PlaidModule) (currentTime : UInt64) :
    CachingMode → Program CacheDecision
  | .timed validity => do
    match ← perform (readCache webhook) with
    | some (stamp, response) =>
      if stamp + validity > currentTime then pure (.page response) else pure (.call true)
    | none => pure (.call true)
  | .none => pure (.call false)
  | .usePersistentResponse callOnNone => do
    match ← perform (getPersistentResponseData rule.name) with
    | some data => pure (.page data)
    | none => if callOnNone then pure (.call false) else pure (.page "")

/-- What becomes of the answer of the rule. -/
def servePage (webhook : String) (update : Bool) :
    Except Unit (Option ResponseMessage) → Program Outcome
  | .ok (some response) =>
    if update then do
      let currentTime ← perform now
      perform (writeCache webhook currentTime response.body)
      pure (.html response.body)
    else pure (.html response.body)
  | .ok none => pure (.html "")
  | .error () => pure (.html "")

/-- What the rule says, once the message is handed over. A message that is refused is dropped with
its sender, so that the wait for the answer fails at once. -/
def awaitRule (webhook : String) (update : Bool) (channel : ℕ) :
    Except TrySendError Unit → Program Outcome
  | .error .disconnected => pure .panicked
  | .error .full | .ok () => do
    let response ← perform (receive channel)
    servePage webhook update response

/-- From the oneshot channel on. -/
def callRule (conf : WebhookConfig) (req : GetRequest) (name : String) (rule : PlaidModule)
    (update : Bool) : Program Outcome := do
  let channel ← perform channel
  match ← perform (readBody conf.maxBodySize) with
  | .error _ =>
    perform (drop (some channel))
    pure (.html "")
  | .ok body =>
    let id ← perform newId
    let tried ← perform
      (trySend none ⟨getMessage req.webhook conf name rule req id body, some channel⟩)
    awaitRule req.webhook update channel tried

def facebookPage (secret : String) (query : AList fun _ : String => String) : String :=
  match query.lookup "hub.verify_token" with
  | some token => if token = secret then (query.lookup "hub.challenge").getD "" else ""
  | none => ""

variable (cfg : Config)

def getHandler (req : GetRequest) : Program Outcome :=
  match cfg.webhooks.lookup req.webhook with
  | none => pure (.html "")
  | some conf =>
    match conf.getMode with
    | some ⟨_, .static data⟩ => pure (.html data)
    | some ⟨_, .facebook secret⟩ => pure (.html (facebookPage secret req.query))
    | some ⟨cachingMode, .rule name⟩ =>
      match cfg.modulesByName.lookup name with
      | none => pure (.html "")
      | some rule => do
        let currentTime ← perform now
        match ← consultCache req.webhook rule currentTime cachingMode with
        | .page body => pure (.html body)
        | .call update => callRule conf req name rule update
    | none => pure (.html "")

/-- A full queue asks the sender to come back later. -/
def postOutcome : Except TrySendError Unit → Outcome
  | .ok () => .status 200
  | .error .full => .status 429
  | .error .disconnected => .panicked

def postHandler (req : PostRequest) : Program Outcome :=
  match cfg.webhooks.lookup req.webhook with
  | none => pure (.status 200)
  | some conf => do
    match ← perform (readBody conf.maxBodySize) with
    | .error _ => pure (.status 200)
    | .ok body =>
      let id ← perform newId
      let message := postMessage req.webhook conf req.headers id body
      let tried ← perform (trySend (cfg.pools.poolOf message.type_) ⟨message, none⟩)
      pure (postOutcome tried)

/-- Logbacks, data generators and interval jobs send new messages to the general pool. -/
def produce (type_ : String) (data : Bytes) (source : LogSource) (logbacks : LogbacksAllowed) :
    Program Outcome := do
  let id ← perform newId
  let _ ← perform (trySend none ⟨.new id type_ data source logbacks, none⟩)
  pure .produced

section executor

/-- The error of an execution that was started with the environment `env`. -/
def errorOf (limit : ℕ) (x : Execution) (env : Env) : Option ModuleExecutionError :=
  match x.returned with
  | .ok n => if n = 0 then none else some (.moduleError (env.executionErrorContext.getD "None"))
  | .error e => some (if x.exhausted then .computationExhausted limit
      else .unknownExecutionError (e ++ ". Additional context: " ++
        env.executionErrorContext.getD "This is probably an OOM error"))

/-- `els.log_module_error(..)?`; either way the message goes out of scope here. -/
def logModuleError (name text : String) (data : Bytes) (sender : Option ℕ) :
    Program (Except ExecutorError Unit) := do
  match ← perform (log (.moduleError name text data)) with
  | .ok () =>
    perform (drop sender)
    pure (.ok ())
  | .error e =>
    perform (drop sender)
    pure (.error (.externalLoggingError e))

/-- A module may return a warning without an error. -/
def logReturned (name : String) (env : Env) : Program Unit :=
  match env.executionErrorContext with
  | some returnMessage => do
    let _ ← perform (log (.internalMessage ("Module [" ++ name ++ "] returned: " ++ returnMessage)))
    pure ()
  | none => pure ()

/-- The end of an execution without an error. -/
def finishExecution (name : String) (data : Bytes) (sender : Option ℕ) (env : Env) :
    Program (Except ExecutorError Unit) := do
  logReturned name env
  match ← perform (updatePersistentResponse name env.response sender) with
  | .ok () => pure (.ok ())
  | .error e =>
    let _ ← perform (log (.moduleError name
      ("Failed to update persistent response: " ++ e.display) data))
    pure (.ok ())

/-- What follows the call of the entrypoint. -/
def concludeExecution (message : Message) (sender : Option ℕ) (module : PlaidModule)
    (persistentResponse : Option String) (x : Execution) : Program (Except ExecutorError Unit) :=
  match x.prepared with
  | .error e =>
    logModuleError module.name ("Failed to prepare for execution: " ++ e.display) message.data sender
  | .ok () =>
    let env := x.calls.foldl Env.call ⟨persistentResponse, none⟩
    match errorOf (cfg.computationLimit module.name) x env with
    | some error => logModuleError module.name error.display message.data sender
    | none => finishExecution module.name message.data sender env

def processMessageWithModule (message : Message) (sender : Option ℕ) (module : PlaidModule) :
    Program (Except ExecutorError Unit) := do
  let persistentResponse ← perform (getPersistentResponseData module.name)
  let x ← perform (execute module.name message.createDuplicate persistentResponse)
  concludeExecution cfg message sender module persistentResponse x

/-- Every module of a channel gets a duplicate of the message. -/
def processWithModules (message : Message) :
    List PlaidModule → Program (Except ExecutorError Unit)
  | [] => pure (.ok ())
  | module :: modules => do
    match ← processMessageWithModule cfg message.createDuplicate none module with
    | .ok () => processWithModules message modules
    | .error e => pure (.error e)

/-- Whether the loop goes on after a message: `none`, or how it ends. -/
def afterMessage : Except ExecutorError Unit → Option (Except ExecutorError Unit)
  | .ok () => none
  | .error e => some (.error e)

/-- A message for one rule is run by that rule only. -/
def runMessage (q : Queued) : Program (Option (Except ExecutorError Unit)) :=
  match q.message.module, cfg.channels.lookup q.message.type_ with
  | some module, _ => do
    let result ← processMessageWithModule cfg q.message q.responseSender module
    pure (afterMessage result)
  | none, some modules => do
    let result ← processWithModules cfg q.message modules
    perform (drop q.responseSender)
    pure (afterMessage result)
  | none, none => do
    perform (drop q.responseSender)
    pure none

/-- One round of the loop. -/
def executionRound (pool : Pool) : Program (Option (Except ExecutorError Unit)) := do
  match ← perform (recv pool) with
  | none => pure (some (.ok ()))
  | some q => runMessage cfg q

/-- An execution thread ends with its loop. -/
def executionThread (pool : Pool) : Program Outcome := do
  match ← executionRound cfg pool with
  | none => pure .next
  | some result =>
    perform exit
    pure (.returned result)

end executor

inductive Call
  | get (req : GetRequest)
  | post (req : PostRequest)
  | produce (type_ : String) (data : Bytes) (source : LogSource) (logbacks : LogbacksAllowed)
  | work (pool : Pool)

def code : Call → Program Outcome
  | .get req => getHandler cfg req
  | .post req => postHandler cfg req
  | .produce type_ data source logbacks => produce type_ data source logbacks
  | .work pool => executionThread cfg pool

section requests
variable {cfg}

/-- The requests with which an execution ends. -/
def Concludes (name : String) (sender : Option ℕ) : Request → Prop
  | .log _ => True
  | .drop s => s = sender
  | .updatePersistentResponse module _ s => module = name ∧ s = sender
  | _ => False

theorem uses_logModuleError (name text : String) (data : Bytes) (sender : Option ℕ) :
    (logModuleError name text data sender).Uses (Concludes name sender) := by
  refine Uses.bind (uses_perform trivial) fun r => ?_
  cases r with
  | ok u => exact Uses.bind (uses_perform rfl) fun _ => trivial
  | error e => exact Uses.bind (uses_perform rfl) fun _ => trivial

theorem uses_finishExecution (name : String) (data : Bytes) (sender : Option ℕ) (env : Env) :
    (finishExecution name data sender env).Uses (Concludes name sender) := by
  refine Uses.bind ?_ fun _ => Uses.bind (uses_perform ⟨rfl, rfl⟩) fun r => ?_
  · unfold logReturned
    cases env.executionErrorContext with
    | none => exact trivial
    | some returnMessage => exact Uses.bind (uses_perform trivial) fun _ => trivial
  · cases r with
    | ok u => exact trivial
    | error e => exact Uses.bind (uses_perform trivial) fun _ => trivial

theorem uses_concludeExecution (message : Message) (sender : Option ℕ) (module : PlaidModule)
    (persistentResponse : Option String) (x : Execution) :
    (concludeExecution cfg message sender module persistentResponse x).Uses
      (Concludes module.name sender) := by
  unfold concludeExecution
  split
  · exact uses_logModuleError _ _ _ _
  · dsimp only
    split
    · exact uses_logModuleError _ _ _ _
    · exact uses_finishExecution _ _ _ _

/-- The requests of handlers that wait for no answer. -/
def Forwards : Request → Prop
  | .readBody _ | .newId => True
  | .trySend _ q => q.responseSender = none
  | _ => False

theorem uses_postHandler (req : PostRequest) : (postHandler cfg req).Uses Forwards := by
  unfold postHandler
  split
  · exact trivial
  · refine Uses.bind (uses_perform trivial) fun body => ?_
    cases body with
    | error e => exact trivial
    | ok body =>
      exact Uses.bind (uses_perform trivial) fun id => Uses.bind (uses_perform rfl) fun _ => trivial

theorem uses_produce (type_ : String) (data : Bytes) (source : LogSource)
    (logbacks : LogbacksAllowed) : (produce type_ data source logbacks).Uses Forwards :=
  Uses.bind (uses_perform trivial) fun _ => Uses.bind (uses_perform rfl) fun _ => trivial

end requests
end PlaidRuntime.WebhookHandlers
