import PlaidRuntime.GuestMemory
import PlaidRuntime.PersistentResponse

/-!
# Answering a GET

One execution of a module on a message that may carry the sender of a oneshot channel
(`executor/mod.rs`, `functions/response.rs`): what it stores as the persistent response and
what it sends to the waiting web request.
-/
namespace PlaidRuntime.ResponseAnswer
open GuestMemory

inductive ModuleExecutionError
  | computationExhausted (limit : ℕ)
  | moduleError (context : String)
  | persistentResponseNotAllowed
  | persistentResponseTooLarge (maxSize responseSize : ℕ)
  | lockingError (e : String)
  | unknownExecutionError (e : String)
  deriving DecidableEq, Repr

def ModuleExecutionError.display : ModuleExecutionError → String
  | .computationExhausted limit => "Computation Exhausted. Limit: [" ++ toString limit ++ "]"
  | .moduleError context =>
    "Module encountered an error. Additional context: [" ++ context ++ "]"
  | .persistentResponseNotAllowed => "Persistent response not allowed"
  | .persistentResponseTooLarge maxSize responseSize =>
    "Persistent response too large. Max size: [" ++ toString maxSize ++ "], Response size: [" ++
      toString responseSize ++ "]"
  | .lockingError e => "CRITICAL Locking error. Error: [" ++ e ++ "]"
  | .unknownExecutionError e => "Unknown execution error. Error: [" ++ e ++ "]"

/-- Errors of other crates are kept as their texts. -/
inductive ExecutorError
  | externalLoggingError (e : String)
  | linkError (e : String)
  | instantiationError (e : String)
  | memoryError (e : String)
  | noEntrypoint
  | invalidEntrypoint
  | moduleExecutionError (e : ModuleExecutionError)
  | incomingLogError (e : String)
  deriving DecidableEq, Repr

def ExecutorError.display : ExecutorError → String
  | .externalLoggingError e => "External Logging Error: " ++ e
  | .linkError e => "Link Error: " ++ e
  | .instantiationError e => "Instantiation Error: " ++ e
  | .memoryError e => "Memory Error: " ++ e
  | .noEntrypoint => "No entrypoint found in module"
  | .invalidEntrypoint => "Entrypoint is not a function or not the correct prototype"
  | .moduleExecutionError e => "Module Execution Error: " ++ e.display
  | .incomingLogError e => "Error reading log from channel: " ++ e

/-- The lock on `data` is poisoned when a thread has panicked while it held it. -/
structure PersistentResponse where
  maxSize : ℕ
  data : Option String
  poisoned : Bool
  deriving DecidableEq, Repr

def PersistentResponse.new (maxSize : ℕ) : PersistentResponse := ⟨maxSize, none, false⟩

def PersistentResponse.getData (pr : PersistentResponse) : Except Unit (Option String) :=
  if pr.poisoned then .error () else .ok pr.data

/-- What an execution reads and writes of a module. -/
structure PlaidModule where
  name : String
  computationLimit : ℕ
  persistentResponse : Option PersistentResponse
  deriving DecidableEq, Repr

def PlaidModule.getPersistentResponseData (m : PlaidModule) : Option String :=
  m.persistentResponse.bind fun pr => pr.getData.toOption.join

/-- The stored response. -/
def PlaidModule.persisted (m : PlaidModule) : Option String :=
  m.persistentResponse.bind PersistentResponse.data

structure ResponseMessage where
  code : ℕ
  body : String
  deriving DecidableEq, Repr

/-- The sender a message carries and what becomes of it. Dropped, it leaves the waiting request
with an error. -/
inductive ResponseSender
  | absent
  | waiting
  | sent (response : Option ResponseMessage)
  | dropped
  deriving DecidableEq, Repr

def ResponseSender.send (s : ResponseSender) (response : Option ResponseMessage) : ResponseSender :=
  match s with
  | .waiting => .sent response
  | s => s

def ResponseSender.drop : ResponseSender → ResponseSender
  | .waiting => .dropped
  | s => s

structure Updated where
  result : Except ExecutorError Unit
  module : PlaidModule
  sender : ResponseSender

def PlaidModule.store (m : PlaidModule) (pr : PersistentResponse) (response : String) : PlaidModule :=
  { m with persistentResponse := some { pr with data := some response } }

def updatePersistentResponse (m : PlaidModule) (response : Option String)
    (sender : ResponseSender) : Updated :=
  match response, m.persistentResponse with
  | none, _ => ⟨.ok (), m, sender.send none⟩
  -- a module that may not store a response: the sender goes out of scope unused
  | some _, none => ⟨.ok (), m, sender.drop⟩
  | some response, some pr =>
    if response.utf8ByteSize ≤ pr.maxSize then
      if pr.poisoned then
        ⟨.error (.moduleExecutionError (.lockingError "poisoned lock: another task failed inside")),
          m, sender.drop⟩
      else ⟨.ok (), m.store pr response, sender.send (some ⟨200, response⟩)⟩
    else
      ⟨.error (.moduleExecutionError
        (.persistentResponseTooLarge pr.maxSize response.utf8ByteSize)), m, sender.drop⟩

/-- The part of an execution environment that these host functions use. -/
structure Env where
  response : Option String
  executionErrorContext : Option String
  deriving DecidableEq, Repr

/-- The calls by which a rule leaves something in its environment, each with the guest memory
it finds. -/
inductive HostCall
  | setResponse (memory : Option MemoryView) (buffer size : UInt32)
  | setErrorContext (memory : Option MemoryView) (buffer size : UInt32)

/-- The text a host function is handed, if memory and encoding allow it. -/
def passedString (memory : Option MemoryView) (buffer size : UInt32) : Option String :=
  memory.bind fun m => (safelyGetString m buffer size).toOption

def setResponse (env : Env) (memory : Option MemoryView) (buffer size : UInt32) : Env :=
  match passedString memory buffer size with
  | none => env
  | some message => { env with response := some message }

def setErrorContext (env : Env) (memory : Option MemoryView) (buffer size : UInt32) : Env :=
  match passedString memory buffer size with
  | none => env
  | some message => { env with executionErrorContext := some message }

def Env.call (env : Env) : HostCall → Env
  | .setResponse memory buffer size => setResponse env memory buffer size
  | .setErrorContext memory buffer size => setErrorContext env memory buffer size

/-- What the WebAssembly engine does with one message. -/
structure Execution where
  prepared : Except ExecutorError Unit
  calls : List HostCall
  returned : Except String ℤ
  exhausted : Bool

def initialEnv (m : PlaidModule) : Env := ⟨m.getPersistentResponseData, none⟩

def Execution.finalEnv (x : Execution) (m : PlaidModule) : Env := x.calls.foldl Env.call (initialEnv m)

def determineError (m : PlaidModule) (x : Execution) (e : String) (env : Env) :
    ModuleExecutionError :=
  if x.exhausted then .computationExhausted m.computationLimit
  else .unknownExecutionError (e ++ ". Additional context: " ++
    env.executionErrorContext.getD "This is probably an OOM error")

/-- The error of an execution that was started, if it has one. -/
def Execution.error (x : Execution) (m : PlaidModule) : Option ModuleExecutionError :=
  let env := x.finalEnv m
  match x.returned with
  | .ok n => if n = 0 then none else some (.moduleError (env.executionErrorContext.getD "None"))
  | .error e => some (determineError m x e env)

/-- What is sent to the logging system. -/
inductive LogEntry
  | moduleError (name error : String) (data : Bytes)
  | internalMessage (message : String)
  deriving DecidableEq, Repr

structure Processed where
  result : Except ExecutorError Unit
  module : PlaidModule
  sender : ResponseSender
  log : List LogEntry

/-- A failed execution: its error is logged, and only a logging system that is gone is an error
of the runtime. -/
def logModuleError (els : Except String Unit) (m : PlaidModule) (sender : ResponseSender)
    (error : String) (data : Bytes) : Processed :=
  match els with
  | .ok () => ⟨.ok (), m, sender.drop, [.moduleError m.name error data]⟩
  | .error e => ⟨.error (.externalLoggingError e), m, sender.drop, []⟩

/-- The entries of a successful execution; here a failure to log is ignored. -/
def successLog (els : Except String Unit) (m : PlaidModule) (env : Env)
    (result : Except ExecutorError Unit) (data : Bytes) : List LogEntry :=
  match els with
  | .error _ => []
  | .ok () =>
    (env.executionErrorContext.toList.map fun returnMessage =>
      .internalMessage ("Module [" ++ m.name ++ "] returned: " ++ returnMessage)) ++
    match result with
    | .ok () => []
    | .error e =>
      [.moduleError m.name ("Failed to update persistent response: " ++ e.display) data]

def processMessageWithModule (els : Except String Unit) (m : PlaidModule) (data : Bytes)
    (sender : ResponseSender) (x : Execution) : Processed :=
  match x.prepared with
  | .error e => logModuleError els m sender ("Failed to prepare for execution: " ++ e.display) data
  | .ok () =>
    match x.error m with
    | some error => logModuleError els m sender error.display data
    | none =>
      let env := x.finalEnv m
      let updated := updatePersistentResponse m env.response sender
      ⟨.ok (), updated.module, updated.sender, successLog els m env updated.result data⟩

/-- A persistent response is configured and `r` is within its size. -/
def Fits (m : PlaidModule) (r : String) : Prop :=
  ∃ pr, m.persistentResponse = some pr ∧ r.utf8ByteSize ≤ pr.maxSize

/-- The response can be stored. -/
def Stores (m : PlaidModule) (r : String) : Prop :=
  ∃ pr, m.persistentResponse = some pr ∧ r.utf8ByteSize ≤ pr.maxSize ∧ pr.poisoned = false

/-- The waiting request gets `r`, and `r` is stored exactly when it fits. -/
structure Serves (m : PlaidModule) (r : String) (out : Processed) : Prop where
  answered : out.sender = .sent (some ⟨200, r⟩)
  stored : Fits m r → out.module.persisted = some r
  kept : ¬ Fits m r → out.module.persisted = m.persisted

section update
variable {m : PlaidModule} {r : String} {sender : ResponseSender}

theorem Stores.fits (h : Stores m r) : Fits m r := by
  obtain ⟨pr, hpr, hsize, -⟩ := h
  exact ⟨pr, hpr, hsize⟩

/-- A response that can be stored is stored and sent. -/
theorem updatePersistentResponse_stores (h : Stores m r) :
    (updatePersistentResponse m (some r) sender).module.persisted = some r ∧
    (updatePersistentResponse m (some r) sender).sender = sender.send (some ⟨200, r⟩) := by
  obtain ⟨pr, hpr, hsize, hlock⟩ := h
  constructor <;> simp [updatePersistentResponse, hpr, hsize, hlock, PlaidModule.store,
    PlaidModule.persisted]

/-- In every other case nothing is stored and the sender is dropped, whether the module has no
persistent response, the response is too large or the lock is poisoned. -/
theorem updatePersistentResponse_drops (h : ¬ Stores m r) :
    (updatePersistentResponse m (some r) sender).module = m ∧
    (updatePersistentResponse m (some r) sender).sender = sender.drop := by
  unfold updatePersistentResponse
  cases hpr : m.persistentResponse with
  | none => exact ⟨rfl, rfl⟩
  | some pr =>
    simp only
    split_ifs with hsize hlock
    · exact ⟨rfl, rfl⟩
    · exact absurd ⟨pr, hpr, hsize, by simpa using hlock⟩ h
    · exact ⟨rfl, rfl⟩

/-- No execution poisons the lock or changes the configured size. -/
theorem updatePersistentResponse_config (response : Option String) :
    (updatePersistentResponse m response sender).module.persistentResponse.map
        (fun pr => (pr.maxSize, pr.poisoned)) =
      m.persistentResponse.map fun pr => (pr.maxSize, pr.poisoned) := by
  cases response with
  | none => rfl
  | some r =>
    by_cases h : Stores m r
    · obtain ⟨pr, hpr, hsize, hlock⟩ := h
      simp [updatePersistentResponse, hpr, hsize, hlock, PlaidModule.store]
    · rw [(updatePersistentResponse_drops h).1]

end update

section process
variable {els : Except String Unit} {m : PlaidModule} {data : Bytes} {sender : ResponseSender}
  {x : Execution} {r : String}

/-- A successful execution ends with the update of the response. -/
theorem processMessageWithModule_success (hp : x.prepared = .ok ()) (hx : x.returned = .ok 0) :
    (processMessageWithModule els m data sender x).module =
        (updatePersistentResponse m (x.finalEnv m).response sender).module ∧
    (processMessageWithModule els m data sender x).sender =
        (updatePersistentResponse m (x.finalEnv m).response sender).sender := by
  have he : x.error m = none := by simp [Execution.error, hx]
  simp [processMessageWithModule, hp, he]

/-- A successful execution with the response `r` answers its GET with it, and stores it when it
fits, if and only if it can be stored. -/
theorem get_served_iff (hp : x.prepared = .ok ()) (hx : x.returned = .ok 0)
    (hr : (x.finalEnv m).response = some r) :
    Serves m r (processMessageWithModule els m data .waiting x) ↔ Stores m r := by
  obtain ⟨hmodule, hsender⟩ := @processMessageWithModule_success els m data .waiting x hp hx
  rw [hr] at hmodule hsender
  constructor
  · intro h
    by_contra hs
    have hdrop := (@updatePersistentResponse_drops m r .waiting hs).2
    have hans := h.answered
    rw [hsender, hdrop] at hans
    cases hans
  · intro hs
    obtain ⟨hstored, hsent⟩ := @updatePersistentResponse_stores m r .waiting hs
    refine ⟨?_, fun _ => ?_, fun hno => absurd hs.fits hno⟩
    · rw [hsender, hsent]
      rfl
    · rw [hmodule, hstored]

/-- The rule sets the response `r` as its last act. -/
theorem finalEnv_of_last_set {calls : List HostCall} {memory : Option MemoryView}
    {buffer size : UInt32} (hc : x.calls = calls ++ [.setResponse memory buffer size])
    (hr : passedString memory buffer size = some r) : (x.finalEnv m).response = some r := by
  rw [Execution.finalEnv, hc, List.foldl_append]
  simp [Env.call, setResponse, hr]

/-- Whatever the message and the rule do, the lock stays as it is. -/
theorem processMessageWithModule_config :
    (processMessageWithModule els m data sender x).module.persistentResponse.map
        (fun pr => (pr.maxSize, pr.poisoned)) =
      m.persistentResponse.map fun pr => (pr.maxSize, pr.poisoned) := by
  have hlog : ∀ error, (logModuleError els m sender error data).module = m := by
    intro error
    unfold logModuleError
    split <;> rfl
  unfold processMessageWithModule
  split
  · rw [hlog]
  · split
    · rw [hlog]
    · exact updatePersistentResponse_config _

end process

section instances

/-- A rule that answers "pong" to the GET it is run for. -/
def pongExecution : Execution where
  prepared := .ok ()
  calls := [.setResponse (some ⟨asBytes "pong"⟩) 0 4]
  returned := .ok 0
  exhausted := false

theorem pong_response (m : PlaidModule) : (pongExecution.finalEnv m).response = some "pong" :=
  @finalEnv_of_last_set m pongExecution "pong" [] _ _ _ rfl (by decide +kernel)

/-- Without a persistent response the rule is run, but the request is left without its answer. -/
theorem unconfigured_get_unanswered :
    (pongExecution.finalEnv ⟨"ping", 1000, none⟩).response = some "pong" ∧
    (processMessageWithModule (.ok ()) ⟨"ping", 1000, none⟩ [] .waiting pongExecution).sender =
      .dropped ∧
    ¬ Serves ⟨"ping", 1000, none⟩ "pong"
      (processMessageWithModule (.ok ()) ⟨"ping", 1000, none⟩ [] .waiting pongExecution) := by
  have hsender : (processMessageWithModule (.ok ()) ⟨"ping", 1000, none⟩ [] .waiting
      pongExecution).sender = .dropped := by decide +kernel
  refine ⟨pong_response _, hsender, fun h => ?_⟩
  have hans := h.answered
  rw [hsender] at hans
  cases hans

theorem configured_get_answered :
    Serves ⟨"ping", 1000, some (.new 4)⟩ "pong"
      (processMessageWithModule (.ok ()) ⟨"ping", 1000, some (.new 4)⟩ [] .waiting pongExecution) :=
  (get_served_iff rfl rfl (pong_response _)).mpr ⟨.new 4, rfl, by decide, rfl⟩

end instances

/-- One message for the module: its data, its sender and what the engine does with it. -/
structure Delivery where
  els : Except String Unit
  data : Bytes
  sender : ResponseSender
  execution : Execution

/-- The module after the messages of a run. -/
def runMessages (m : PlaidModule) (ds : List Delivery) : PlaidModule :=
  ds.foldl (fun m d => (processMessageWithModule d.els m d.data d.sender d.execution).module) m

theorem runMessages_config (m : PlaidModule) (ds : List Delivery) :
    (runMessages m ds).persistentResponse.map (fun pr => (pr.maxSize, pr.poisoned)) =
      m.persistentResponse.map fun pr => (pr.maxSize, pr.poisoned) := by
  induction ds generalizing m with
  | nil => rfl
  | cons d ds ih =>
    have hstep := @processMessageWithModule_config d.els m d.data d.sender d.execution
    exact (ih _).trans hstep

/-- In a run of a freshly loaded module only the configuration decides whether a response can
be stored. -/
theorem stores_after_run {m : PlaidModule} {r : String}
    (hnew : m.persistentResponse = m.persistentResponse.map fun pr => .new pr.maxSize)
    (ds : List Delivery) : Stores (runMessages m ds) r ↔ Fits m r := by
  have hconfig := runMessages_config m ds
  cases hm : m.persistentResponse with
  | none =>
    rw [hm] at hconfig
    have hrun : (runMessages m ds).persistentResponse = none := by simpa using hconfig
    simp [Stores, Fits, hm, hrun]
  | some pr =>
    rw [hm] at hconfig hnew
    obtain ⟨pr', hrun, hcfg⟩ : ∃ pr', (runMessages m ds).persistentResponse = some pr' ∧
        (pr'.maxSize, pr'.poisoned) = (pr.maxSize, pr.poisoned) := by
      simpa [Option.map_eq_some_iff] using hconfig
    have hlock : pr.poisoned = false := by
      have := Option.some.inj hnew
      rw [this]
      rfl
    have hsize := congrArg Prod.fst hcfg
    have hlock' := congrArg Prod.snd hcfg
    simp only at hsize hlock'
    simp [Stores, Fits, hm, hrun, hsize, hlock', hlock]

section shared
variable {T : Type} [DecidableEq T]

/-- The update that the model of overlapping executions makes is this one, for a module with a
persistent response. -/
theorem updatePersistentResponse_shared (s : PlaidRuntime.PersistentResponse.Module T) (t : T)
    (hget : s.servesGet t = true) (hwaiting : s.answers t = none) (name : String) (limit : ℕ)
    (response : Option String) :
    let out := updatePersistentResponse ⟨name, limit, some ⟨s.maxSize, s.data, false⟩⟩ response .waiting
    let s' := PlaidRuntime.PersistentResponse.updatePersistentResponse s t response
    s'.data = out.module.persisted ∧
      s'.answers t = (match out.sender with
        | .sent answer => some (answer.map ResponseMessage.body)
        | _ => none) := by
  cases response with
  | none =>
    simp [updatePersistentResponse, PlaidRuntime.PersistentResponse.updatePersistentResponse,
      PlaidRuntime.PersistentResponse.answer, hget, PlaidModule.persisted, ResponseSender.send]
  | some r =>
    by_cases hsize : r.utf8ByteSize ≤ s.maxSize
    · simp [updatePersistentResponse, PlaidRuntime.PersistentResponse.updatePersistentResponse,
        PlaidRuntime.PersistentResponse.answer, hget, hsize, PlaidModule.persisted,
        PlaidModule.store, ResponseSender.send]
    · simp [updatePersistentResponse, PlaidRuntime.PersistentResponse.updatePersistentResponse,
        hsize, PlaidModule.persisted, ResponseSender.drop, hwaiting]

end shared
end PlaidRuntime.ResponseAnswer
