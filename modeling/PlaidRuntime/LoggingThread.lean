import PlaidRuntime.GuestMemory
import PlaidRuntime.MessageCodec
import PlaidRuntime.StepMachine

/-!
# The logging thread

Whatever part of the runtime has something to report sends it over a bounded channel to one thread,
which hands it to every configured logging system (`logging/mod.rs`). The loggers of Splunk and of
the webhook spawn a task for each request, on a runtime that ends with the thread.
-/
namespace PlaidRuntime.LoggingThread
open GuestMemory MessageCodec StepMachine

section records

inductive Severity
  | info
  | warning
  | error
  deriving DecidableEq, Repr

inductive Log
  | internalMessage (severity : Severity) (message : String)
  | hostFunctionCall (module function : String) (testMode : Bool)
  | moduleExecutionError (module error log : String)
  | webSocketConnectionDropped (socketName : String)
  | heartbeat
  deriving DecidableEq, Repr

structure WrappedLog where
  log : Log
  identifier : String
  deriving DecidableEq, Repr

/-- The calls of the functions of a `Logger`. -/
inductive Report
  | logFunctionCall (module function : String) (testMode : Bool)
  | logModuleError (module error : String) (log : Bytes)
  | logInternalMessage (severity : Severity) (message : String)
  | logWebsocketDropped (socketName : String)

/-- `base64` stands for the encoder of that crate. -/
def Report.log (base64 : Bytes → String) (showLogOnError : Bool) : Report → Log
  | .logFunctionCall module function testMode => .hostFunctionCall module function testMode
  | .logModuleError module error log =>
    .moduleExecutionError module error
      (if showLogOnError then (fromUtf8 log).getD (base64 log) else "")
  | .logInternalMessage severity message => .internalMessage severity message
  | .logWebsocketDropped socketName => .webSocketConnectionDropped socketName

/-- What the loop has not made up itself. -/
def reported (logs : List Log) : List Log := logs.filter (· ≠ .heartbeat)

theorem Report.log_ne_heartbeat {base64 : Bytes → String} {showLogOnError : Bool} (r : Report) :
    r.log base64 showLogOnError ≠ .heartbeat := by
  cases r <;> simp [Report.log]

def Severity.toJson : Severity → Json
  | .info => .str "Info"
  | .warning => .str "Warning"
  | .error => .str "Error"

def Log.toJson : Log → Json
  | .internalMessage severity message =>
    .obj [("InternalMessage", .obj [("severity", severity.toJson), ("message", .str message)])]
  | .hostFunctionCall module function testMode =>
    .obj [("HostFunctionCall",
      .obj [("module", .str module), ("function", .str function), ("test_mode", .bool testMode)])]
  | .moduleExecutionError module error log =>
    .obj [("ModuleExecutionError",
      .obj [("module", .str module), ("error", .str error), ("log", .str log)])]
  | .webSocketConnectionDropped socketName =>
    .obj [("WebSocketConnectionDropped", .obj [("socket_name", .str socketName)])]
  | .heartbeat => .obj [("Heartbeat", .obj [])]

def WrappedLog.toJson (w : WrappedLog) : Json :=
  .obj [("log", w.log.toJson), ("identifier", .str w.identifier)]

end records

section loggers

inductive Level
  | error
  | warn
  | info
  | debug
  deriving DecidableEq, Repr

/-- What the logger of stdout writes. -/
def stdoutLine : Log → Option (Level × String)
  | .internalMessage .error message => some (.error, message)
  | .internalMessage .warning message => some (.warn, message)
  | .internalMessage .info message => some (.info, message)
  | .hostFunctionCall module function testMode =>
    if testMode then some (.debug, s!"TEST MODE [{module}] is calling [{function}]")
    else some (.debug, s!"[{module}] is calling [{function}]")
  | .moduleExecutionError module error log =>
    some (.debug, s!"[{module}] errored with error [{error}]. Provided Log: {log}")
  | .webSocketConnectionDropped socketName =>
    some (.warn, s!"Connection to socket: {socketName} dropped unexpectedly")
  | .heartbeat => none

structure Post where
  url : String
  headers : List (String × String)
  body : Bytes
  deriving DecidableEq, Repr

structure SplunkConfig where
  token : String
  url : String
  deriving DecidableEq, Repr

structure WebhookConfig where
  authHeader : Option String
  url : String
  deriving DecidableEq, Repr

variable (text : JsonText)

/-- Splunk gets the whole record within a key of its own. -/
def SplunkConfig.post (config : SplunkConfig) (log : WrappedLog) : Post where
  url := config.url
  headers := [("Authorization", "Splunk " ++ config.token), ("Content-Type", "application/json")]
  body := text.toVec (.obj [("event", log.toJson)])

def WebhookConfig.post (config : WebhookConfig) (log : WrappedLog) : Post :=
  let data := text.toVec log.toJson
  { url := config.url
    headers := [("Content-Type", "application/x-www-form-urlencoded"),
      ("Content-Length", toString data.length)] ++
        (config.authHeader.map fun auth => ("Authorization", auth)).toList
    body := data }

structure LoggingConfiguration where
  identifier : Option String
  stdout : Bool
  splunk : Option SplunkConfig
  webhook : Option WebhookConfig
  showLogOnError : Bool

inductive PlaidLogger
  | stdout
  | splunk (config : SplunkConfig)
  | webhook (config : WebhookConfig)
  deriving DecidableEq, Repr

/-- In the order in which the loop asks for them. -/
def LoggingConfiguration.loggers (config : LoggingConfiguration) : List PlaidLogger :=
  (if config.stdout then [.stdout] else []) ++ (config.splunk.map .splunk).toList ++
    (config.webhook.map .webhook).toList

/-- One logger is handed one record. -/
abbrev Job := WrappedLog × PlaidLogger

def Job.line : Job → Option (Level × String)
  | (w, .stdout) => stdoutLine w.log
  | _ => none

def Job.post : Job → Option Post
  | (_, .stdout) => none
  | (w, .splunk config) => some (config.post text w)
  | (w, .webhook config) => some (config.post text w)

end loggers

section thread

def channelCapacity : ℕ := 4096

inductive LoggingError
  | loggingSystemDead
  deriving DecidableEq, Repr

/-- What the thread does next. -/
inductive Loop
  | receiving
  | sending (log : WrappedLog) (loggers : List PlaidLogger)
  | gone

/-- `senders` counts the clones of the sending end. What the loop has taken, what the loggers have
been handed and what the reports have been answered is kept for the account. `cancelled` are the
posts that were under way when the thread ended; how far each had come is left open. -/
structure State where
  senders : ℕ
  channel : List Log
  loop : Loop
  printed : List (Level × String)
  spawned : List Post
  posted : List Post
  cancelled : List Post
  handled : List Log
  done : List Job
  answers : List (Log × Except LoggingError Unit)

def start : State := ⟨1, [], .receiving, [], [], [], [], [], [], []⟩

inductive Label
  | clone
  | drop
  | report (r : Report)
  | received
  | timeout
  | disconnected
  | sendLog
  | posted (i : ℕ)

variable (config : LoggingConfiguration) (text : JsonText) (base64 : Bytes → String)

def LoggingConfiguration.wrap (log : Log) : WrappedLog := ⟨log, config.identifier.getD ""⟩

/-- `Sender::send` waits where the channel is full. -/
def report (s : State) (log : Log) : Option State :=
  match s.loop with
  | .gone => some { s with answers := s.answers ++ [(log, .error .loggingSystemDead)] }
  | _ =>
    if s.channel.length < channelCapacity then
      some { s with channel := s.channel ++ [log], answers := s.answers ++ [(log, .ok ())] }
    else none

/-- The loop has got a record. -/
def take (s : State) (log : Log) (channel : List Log) : State :=
  { s with
    channel := channel
    loop := .sending (config.wrap log) config.loggers
    handled := s.handled ++ [log] }

def hand (s : State) (w : WrappedLog) (logger : PlaidLogger) (rest : List PlaidLogger) : State :=
  { s with
    loop := .sending w rest
    printed := s.printed ++ (Job.line (w, logger)).toList
    spawned := s.spawned ++ (Job.post text (w, logger)).toList
    done := s.done ++ [(w, logger)] }

def step (s : State) : Label → Option State
  | .clone => if s.senders = 0 then none else some { s with senders := s.senders + 1 }
  | .drop => if s.senders = 0 then none else some { s with senders := s.senders - 1 }
  | .report r => if s.senders = 0 then none else report s (r.log base64 config.showLogOnError)
  | .received =>
    match s.loop, s.channel with
    | .receiving, log :: channel => some (take config s log channel)
    | _, _ => none
  | .timeout =>
    match s.loop, s.channel with
    | .receiving, [] => if s.senders = 0 then none else some (take config s .heartbeat [])
    | _, _ => none
  | .disconnected =>
    match s.loop, s.channel with
    -- the runtime of the tasks is dropped with the loop
    | .receiving, [] =>
      if s.senders = 0 then
        some { s with loop := .gone, spawned := [], cancelled := s.spawned }
      else none
    | _, _ => none
  | .sendLog =>
    match s.loop with
    | .sending w (logger :: rest) => some (hand text s w logger rest)
    | .sending _ [] => some { s with loop := .receiving }
    | _ => none
  | .posted i =>
    match s.spawned[i]? with
    | some p => some { s with spawned := s.spawned.eraseIdx i, posted := s.posted ++ [p] }
    | none => none

end thread

section account
variable {config : LoggingConfiguration} {text : JsonText} {base64 : Bytes → String} {s t : State}

/-- What the loggers still have to be handed of the record in hand. -/
def Loop.left : Loop → List Job
  | .sending w loggers => loggers.map fun logger => (w, logger)
  | .receiving => []
  | .gone => []

variable (config) in
/-- Every record, for every logger. -/
def plan (logs : List Log) : List Job :=
  logs.flatMap fun log => config.loggers.map fun logger => (config.wrap log, logger)

variable (config text) in
structure Account (s : State) : Prop where
  capacity : s.channel.length ≤ channelCapacity
  no_heartbeat : ∀ log ∈ s.channel, log ≠ .heartbeat
  answered : ∀ a ∈ s.answers, a.2 = .ok ()
  kept : reported s.handled ++ s.channel = s.answers.map Prod.fst
  jobs : s.done ++ s.loop.left = plan config s.handled
  printed : s.printed = s.done.filterMap Job.line
  posts : (s.posted ++ s.spawned ++ s.cancelled).Perm (s.done.filterMap (Job.post text))
  cancelled : s.loop ≠ .gone → s.cancelled = []
  gone : s.loop = .gone → s.senders = 0 ∧ s.channel = [] ∧ s.spawned = []

theorem account_start : Account config text start where
  capacity := Nat.zero_le _
  no_heartbeat := by simp [start]
  answered := by simp [start]
  kept := rfl
  jobs := rfl
  printed := rfl
  posts := .refl _
  cancelled _ := rfl
  gone := by simp [start]

theorem Account.report {log : Log} (h : Account config text s) (halive : s.senders ≠ 0)
    (hlog : log ≠ .heartbeat) (hr : report s log = some t) : Account config text t := by
  have hloop : s.loop ≠ .gone := fun hgone => halive (h.gone hgone).1
  have hroom : s.channel.length < channelCapacity ∧
      t = { s with channel := s.channel ++ [log], answers := s.answers ++ [(log, .ok ())] } := by
    simp only [LoggingThread.report] at hr
    cases hl : s.loop with
    | gone => exact absurd hl hloop
    | receiving =>
      rw [hl] at hr
      split_ifs at hr with hroom
      exact ⟨hroom, (Option.some.inj hr).symm⟩
    | sending w loggers =>
      rw [hl] at hr
      split_ifs at hr with hroom
      exact ⟨hroom, (Option.some.inj hr).symm⟩
  obtain ⟨hroom, rfl⟩ := hroom
  refine { h with
    capacity := ?_
    no_heartbeat := ?_
    answered := ?_
    kept := ?_
    gone := fun hgone => absurd hgone hloop }
  · rw [List.length_append]
    exact hroom
  · intro log' hlog'
    obtain hlog' | hlog' := List.mem_append.mp hlog'
    · exact h.no_heartbeat log' hlog'
    · rw [List.mem_singleton.mp hlog']
      exact hlog
  · intro a ha
    obtain ha | ha := List.mem_append.mp ha
    · exact h.answered a ha
    · rw [List.mem_singleton.mp ha]
  · rw [List.map_append, ← h.kept, List.append_assoc]
    rfl

theorem Account.take {log : Log} {channel : List Log} (h : Account config text s)
    (hloop : s.loop = .receiving) (hsub : channel.Sublist s.channel)
    (hkept : reported [log] ++ channel = s.channel) :
    Account config text (take config s log channel) where
  capacity := hsub.length_le.trans h.capacity
  no_heartbeat := fun log' hlog' => h.no_heartbeat log' (hsub.subset hlog')
  answered := h.answered
  kept := by
    have hkept' := h.kept
    rw [← hkept, ← List.append_assoc, reported, reported, ← List.filter_append] at hkept'
    exact hkept'
  jobs := by
    have hdone := h.jobs
    rw [hloop, Loop.left, List.append_nil] at hdone
    rw [LoggingThread.take, plan, List.flatMap_append, hdone, plan]
    simp [Loop.left]
  printed := h.printed
  posts := h.posts
  cancelled _ := h.cancelled (by simp [hloop])
  gone := by simp [LoggingThread.take]

theorem Account.hand {w : WrappedLog} {logger : PlaidLogger} {rest : List PlaidLogger}
    (h : Account config text s) (hloop : s.loop = .sending w (logger :: rest)) :
    Account config text (hand text s w logger rest) where
  capacity := h.capacity
  no_heartbeat := h.no_heartbeat
  answered := h.answered
  kept := h.kept
  jobs := by
    have hjobs := h.jobs
    rw [hloop] at hjobs
    rw [LoggingThread.hand, ← hjobs]
    simp [Loop.left]
  printed := by
    rw [LoggingThread.hand, List.filterMap_append, ← h.printed]
    cases hline : Job.line (w, logger) <;> simp [hline]
  posts := by
    have hposts := h.posts
    have hcancelled := h.cancelled (by simp [hloop])
    rw [hcancelled, List.append_nil] at hposts
    rw [LoggingThread.hand, List.filterMap_append]
    simp only [hcancelled, List.append_nil]
    rw [← List.append_assoc]
    refine hposts.append ?_
    cases hpost : Job.post text (w, logger) <;> simp [hpost]
  cancelled _ := h.cancelled (by simp [hloop])
  gone := by simp [LoggingThread.hand]

theorem Account.posted {i : ℕ} {p : Post} (h : Account config text s) (hp : s.spawned[i]? = some p) :
    Account config text { s with spawned := s.spawned.eraseIdx i, posted := s.posted ++ [p] } := by
  obtain ⟨hi, rfl⟩ := List.getElem?_eq_some_iff.mp hp
  refine { h with posts := ?_, gone := fun hgone => ?_ }
  · refine List.Perm.trans (List.Perm.append_right _ ?_) h.posts
    rw [List.append_assoc]
    exact List.Perm.append_left _ (List.getElem_cons_eraseIdx_perm hi)
  · obtain ⟨hsenders, hchannel, hspawned⟩ := h.gone hgone
    simp [hspawned] at hi

theorem step_account {l : Label} (h : Account config text s)
    (hstep : step config text base64 s l = some t) : Account config text t := by
  cases l with
  | clone =>
    simp only [step] at hstep
    split_ifs at hstep with halive
    cases hstep
    exact { h with gone := fun hgone => absurd (h.gone hgone).1 halive }
  | drop =>
    simp only [step] at hstep
    split_ifs at hstep with halive
    cases hstep
    exact { h with gone := fun hgone => absurd (h.gone hgone).1 halive }
  | report r =>
    simp only [step] at hstep
    split_ifs at hstep with halive
    exact h.report halive r.log_ne_heartbeat hstep
  | received =>
    simp only [step] at hstep
    split at hstep
    · rename_i log channel hloop hchannel
      cases hstep
      have hlog : log ≠ .heartbeat := h.no_heartbeat log (by rw [hchannel]; exact List.mem_cons_self)
      refine h.take hloop ?_ ?_
      · rw [hchannel]
        exact List.sublist_cons_self log channel
      · simp [hchannel, hlog, reported]
    · cases hstep
  | timeout =>
    simp only [step] at hstep
    split at hstep
    · rename_i hloop hchannel
      split_ifs at hstep with halive
      cases hstep
      exact h.take hloop (List.nil_sublist _) (by simp [hchannel, reported])
    · cases hstep
  | disconnected =>
    simp only [step] at hstep
    split at hstep
    · rename_i hloop hchannel
      split_ifs at hstep with halive
      cases hstep
      have hjobs := h.jobs
      rw [hloop] at hjobs
      have hposts := h.posts
      rw [h.cancelled (by simp [hloop]), List.append_nil] at hposts
      refine { h with
        jobs := hjobs
        posts := ?_
        cancelled := fun hnot => absurd rfl hnot
        gone := fun _ => ⟨halive, hchannel, rfl⟩ }
      rwa [List.append_nil]
    · cases hstep
  | sendLog =>
    simp only [step] at hstep
    split at hstep
    · rename_i w logger rest hloop
      cases hstep
      exact h.hand hloop
    · rename_i w hloop
      cases hstep
      have hjobs := h.jobs
      rw [hloop] at hjobs
      exact { h with
        jobs := hjobs
        cancelled := fun _ => h.cancelled (by simp [hloop])
        gone := by simp }
    · cases hstep
  | posted i =>
    simp only [step] at hstep
    split at hstep
    · rename_i p hp
      cases hstep
      exact h.posted hp
    · cases hstep

theorem run_account {ls : List Label} (hr : run (step config text base64) start ls = some s) :
    Account config text s :=
  run_invariant (fun _ _ _ h hstep => step_account h hstep) account_start hr

end account

section quiet
variable {config : LoggingConfiguration} {text : JsonText} {base64 : Bytes → String} {s t : State}

/-- The steps of the thread and of its tasks, other than those that wait for the clock or for the
end. -/
def Label.IsWork : Label → Prop
  | .received => True
  | .sendLog => True
  | .posted _ => True
  | _ => False

/-- The thread waits and there is no task. -/
structure Quiet (s : State) : Prop where
  channel : s.channel = []
  left : s.loop.left = []
  spawned : s.spawned = []

def Loop.work : Loop → ℕ
  | .sending _ loggers => 2 * loggers.length + 1
  | .receiving => 0
  | .gone => 0

variable (config) in
def work (s : State) : ℕ :=
  s.channel.length * (2 * config.loggers.length + 2) + s.loop.work + s.spawned.length

theorem work_hand (w : WrappedLog) (logger : PlaidLogger) (rest : List PlaidLogger)
    (hloop : s.loop = .sending w (logger :: rest)) : work config (hand text s w logger rest) < work config s := by
  have hspawned : (hand text s w logger rest).spawned.length ≤ s.spawned.length + 1 := by
    rw [hand, List.length_append]
    cases Job.post text (w, logger) <;> simp
  have hchannel : (hand text s w logger rest).channel = s.channel := rfl
  have hwork : (hand text s w logger rest).loop.work + 2 = s.loop.work := by
    rw [hloop, hand]
    simp only [Loop.work, List.length_cons]
    omega
  rw [work, work, hchannel]
  omega

variable (base64) in
/-- While anything is left to do, the thread or a task can do some of it. -/
theorem exists_work (h : Account config text s) (hbusy : ¬Quiet s) :
    ∃ l t, Label.IsWork l ∧ step config text base64 s l = some t ∧ work config t < work config s ∧
      t.answers = s.answers ∧ t.cancelled = s.cancelled := by
  cases hspawned : s.spawned with
  | cons p rest =>
    refine ⟨.posted 0, { s with spawned := rest, posted := s.posted ++ [p] }, trivial, ?_, ?_, rfl,
      rfl⟩
    · simp [step, hspawned]
    · simp only [work, hspawned, List.length_cons]
      omega
  | nil =>
    cases hloop : s.loop with
    | sending w loggers =>
      cases loggers with
      | cons logger rest =>
        refine ⟨.sendLog, hand text s w logger rest, trivial, ?_, work_hand w logger rest hloop, rfl,
          rfl⟩
        simp [step, hloop]
      | nil =>
        refine ⟨.sendLog, { s with loop := .receiving }, trivial, ?_, ?_, rfl, rfl⟩
        · simp [step, hloop]
        · simp only [work, hloop, Loop.work]
          omega
    | receiving =>
      cases hchannel : s.channel with
      | nil => exact absurd ⟨hchannel, by rw [hloop]; rfl, hspawned⟩ hbusy
      | cons log channel =>
        refine ⟨.received, take config s log channel, trivial, ?_, ?_, rfl, rfl⟩
        · simp [step, hloop, hchannel]
        · have hlength : (log :: channel).length * (2 * config.loggers.length + 2) =
              channel.length * (2 * config.loggers.length + 2) + (2 * config.loggers.length + 2) :=
            Nat.succ_mul _ _
          simp only [work, take, hloop, hchannel, Loop.work, hlength]
          omega
    | gone =>
      have hchannel := (h.gone hloop).2.1
      exact absurd ⟨hchannel, by rw [hloop]; rfl, hspawned⟩ hbusy

variable (base64) in
theorem exists_quiet (h : Account config text s) :
    ∃ ls t, (∀ l ∈ ls, Label.IsWork l) ∧ run (step config text base64) s ls = some t ∧ Quiet t ∧
      t.answers = s.answers ∧ t.cancelled = s.cancelled := by
  induction hn : work config s using Nat.strong_induction_on generalizing s with
  | h n ih =>
    by_cases hquiet : Quiet s
    · exact ⟨[], s, by simp, rfl, hquiet, rfl, rfl⟩
    · obtain ⟨l, u, hl, hstep, hwork, hanswers, hcancelled⟩ := exists_work base64 h hquiet
      obtain ⟨ls, t, hls, hrun, hq, hkept, hsame⟩ := ih _ (hn ▸ hwork) (step_account h hstep) rfl
      refine ⟨l :: ls, t, List.forall_mem_cons.mpr ⟨hl, hls⟩, ?_, hq, hkept.trans hanswers,
        hsame.trans hcancelled⟩
      rw [run, hstep]
      exact hrun

end quiet

section delivered
variable (config : LoggingConfiguration) (text : JsonText)

/-- What the logger of stdout makes of the records. -/
def linesOf (logs : List Log) : List (Level × String) :=
  if config.stdout then logs.filterMap stdoutLine else []

/-- What the other loggers make of one record. -/
def postsOf (log : Log) : List Post :=
  (config.splunk.map fun splunk => splunk.post text (config.wrap log)).toList ++
    (config.webhook.map fun webhook => webhook.post text (config.wrap log)).toList

variable {config text}

theorem plan_filterMap {A : Type} (f : Job → Option A) (logs : List Log) :
    (plan config logs).filterMap f = logs.flatMap fun log =>
      (config.loggers.map fun logger => (config.wrap log, logger)).filterMap f := by
  rw [plan, List.filterMap_flatMap]

theorem plan_lines (logs : List Log) : (plan config logs).filterMap Job.line = linesOf config logs := by
  have hone : ∀ log, (config.loggers.map fun logger => (config.wrap log, logger)).filterMap Job.line =
      linesOf config [log] := by
    intro log
    simp only [LoggingConfiguration.loggers, linesOf]
    cases config.stdout <;> cases config.splunk <;> cases config.webhook <;>
      cases hline : stdoutLine log <;> simp [Job.line, LoggingConfiguration.wrap, hline]
  rw [plan_filterMap]
  induction logs with
  | nil => simp [linesOf]
  | cons log logs ih =>
    rw [List.flatMap_cons, hone, ih, linesOf, linesOf, linesOf]
    cases config.stdout
    · rfl
    · have happend : ([log] ++ logs).filterMap stdoutLine =
          [log].filterMap stdoutLine ++ logs.filterMap stdoutLine := List.filterMap_append
      exact happend.symm

theorem plan_posts (logs : List Log) :
    (plan config logs).filterMap (Job.post text) = logs.flatMap (postsOf config text) := by
  rw [plan_filterMap]
  refine List.flatMap_congr fun log _ => ?_
  simp only [LoggingConfiguration.loggers, postsOf]
  cases config.stdout <;> cases config.splunk <;> cases config.webhook <;> rfl

theorem linesOf_reported (logs : List Log) : linesOf config (reported logs) = linesOf config logs := by
  have hlines : (reported logs).filterMap stdoutLine = logs.filterMap stdoutLine := by
    induction logs with
    | nil => rfl
    | cons log logs ih =>
      by_cases hlog : log = .heartbeat
      · rw [hlog]
        exact ih
      · have hcons : reported (log :: logs) = log :: reported logs := by simp [reported, hlog]
        rw [hcons, List.filterMap_cons, List.filterMap_cons, ih]
  rw [linesOf, linesOf, hlines]

variable {base64 : Bytes → String} {s : State}

theorem Account.printed_left (h : Account config text s) :
    s.printed ++ s.loop.left.filterMap Job.line = linesOf config s.handled := by
  rw [h.printed, ← List.filterMap_append, h.jobs, plan_lines]

theorem Account.posts_left (h : Account config text s) :
    (s.posted ++ s.spawned ++ s.cancelled ++ s.loop.left.filterMap (Job.post text)).Perm
      (s.handled.flatMap (postsOf config text)) := by
  rw [← plan_posts, ← h.jobs, List.filterMap_append]
  exact h.posts.append_right _

theorem Account.quiet (h : Account config text s) (hq : Quiet s) :
    s.printed = linesOf config (s.answers.map Prod.fst) ∧
      ∃ handled, reported handled = s.answers.map Prod.fst ∧
        (s.posted ++ s.cancelled).Perm (handled.flatMap (postsOf config text)) := by
  have hkept : reported s.handled = s.answers.map Prod.fst := by
    rw [← h.kept, hq.channel, List.append_nil]
  have hprinted := h.printed_left
  have hposts := h.posts_left
  rw [hq.left, List.filterMap_nil, List.append_nil] at hprinted hposts
  rw [hq.spawned, List.append_nil] at hposts
  refine ⟨?_, s.handled, hkept, hposts⟩
  rw [hprinted, ← hkept, linesOf_reported]

/-- In every interleaving of whoever reports, the thread and its tasks, a report is never lost or
refused: the thread hands each to every logger in the order accepted, heartbeats come in addition,
and it ends only when nobody can report any more and nothing is queued. What is to be posted is
posted, under way, or was under way when the thread ended. From every state the thread and its tasks
alone get through with what has been accepted, without another post being lost. -/
theorem logs_delivered (config : LoggingConfiguration) (text : JsonText) (base64 : Bytes → String)
    {ls : List Label} {s : State} (hr : run (step config text base64) start ls = some s) :
    s.channel.length ≤ channelCapacity ∧ (∀ a ∈ s.answers, a.2 = .ok ()) ∧
    reported s.handled ++ s.channel = s.answers.map Prod.fst ∧
    s.printed ++ s.loop.left.filterMap Job.line = linesOf config s.handled ∧
    (s.posted ++ s.spawned ++ s.cancelled ++ s.loop.left.filterMap (Job.post text)).Perm
      (s.handled.flatMap (postsOf config text)) ∧
    (s.loop ≠ .gone → s.cancelled = []) ∧
    (s.loop = .gone → s.senders = 0 ∧ s.channel = [] ∧ s.spawned = []) ∧
    ∃ ls' t, (∀ l ∈ ls', Label.IsWork l) ∧ run (step config text base64) s ls' = some t ∧
      t.printed = linesOf config (s.answers.map Prod.fst) ∧
      ∃ handled, reported handled = s.answers.map Prod.fst ∧
        (t.posted ++ s.cancelled).Perm (handled.flatMap (postsOf config text)) := by
  have h := run_account hr
  obtain ⟨ls', t, hwork, hrun, hq, hanswers, hcancelled⟩ := exists_quiet base64 h
  have hafter : Account config text t :=
    run_invariant (fun _ _ _ h hstep => step_account h hstep) h hrun
  have hquiet := hafter.quiet hq
  rw [hanswers, hcancelled] at hquiet
  exact ⟨h.capacity, h.answered, h.kept, h.printed_left, h.posts_left, h.cancelled, h.gone, ls', t,
    hwork, hrun, hquiet⟩

def stdoutAndWebhook : LoggingConfiguration :=
  ⟨some "plaid", true, none, some ⟨none, "https://logs"⟩, true⟩

/-- A heartbeat, and then a call of which the webhook has not been told yet. -/
def heartbeatAndCall : List Label :=
  [.timeout, .sendLog, .sendLog, .sendLog, .posted 0,
    .report (.logFunctionCall "rule" "slack_post_message" false), .received, .sendLog]

theorem logs_delivered_sample : ∃ s, run (step stdoutAndWebhook ⟨fun _ => [], fun _ => none⟩ fun _ => "")
      start heartbeatAndCall = some s ∧ s.posted.length = 1 ∧
    ∃ ls t, run (step stdoutAndWebhook ⟨fun _ => [], fun _ => none⟩ fun _ => "") s ls = some t ∧
      t.printed = [(.debug, "[rule] is calling [slack_post_message]")] := by
  refine ⟨_, rfl, rfl, ?_⟩
  have hr : run (step stdoutAndWebhook ⟨fun _ => [], fun _ => none⟩ fun _ => "") start
    heartbeatAndCall = some _ := rfl
  obtain ⟨-, -, -, -, -, -, -, ls, t, -, hrun, hprinted, -⟩ := logs_delivered _ _ _ hr
  exact ⟨ls, t, hrun, hprinted⟩

end delivered
end PlaidRuntime.LoggingThread
