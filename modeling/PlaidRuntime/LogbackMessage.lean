import PlaidRuntime.GuestMemory

/-!
# Messages and logbacks

Messages of the executor (`executor/mod.rs`, `messages.rs`) and the host function by which a
rule sends a new one (`functions/internal.rs`).
-/
namespace PlaidRuntime.LogbackMessage
open GuestMemory

inductive Generator
  | github
  | okta
  | interval (job : String)
  | sqs (name : String)
  | webSocketExternal (ws : String)
  deriving DecidableEq, Repr

inductive LogSource
  | generator (g : Generator)
  | webhookPost (w : String)
  | webhookGet (w : String)
  | logback (m : String)
  deriving DecidableEq, Repr

inductive LogbacksAllowed
  | unlimited
  | limited (n : UInt32)
  deriving DecidableEq, Repr

/-- What the executor and the logback functions read of a module. -/
structure PlaidModule where
  name : String
  pageLimit : UInt32
  deriving DecidableEq, Repr

abbrev ByteMap := AList fun _ : String => Bytes

structure Message where
  id : String
  type_ : String
  data : Bytes
  headers : ByteMap
  queryParams : ByteMap
  source : LogSource
  logbacksAllowed : LogbacksAllowed
  module : Option PlaidModule
  deriving DecidableEq

/-- `Message::new`; the id is a fresh UUID. -/
def Message.new (id type_ : String) (data : Bytes) (source : LogSource)
    (logbacksAllowed : LogbacksAllowed) : Message where
  id := id
  type_ := type_
  data := data
  headers := ∅
  queryParams := ∅
  source := source
  logbacksAllowed := logbacksAllowed
  module := none

def Message.createDuplicate (m : Message) : Message := { m with module := none }

structure DelayedMessage where
  delay : ℕ
  message : Message
  deriving DecidableEq

/-- The part of an execution environment that a logback uses. -/
structure Env where
  module : PlaidModule
  message : Message
  memory : Option MemoryView

/-- How a call is charged: the budget the new message gets or the error, the budget left to
the caller, and whether one of the `u32` subtractions wrapped. -/
structure Charge where
  assigned : Except FunctionErrors LogbacksAllowed
  left : LogbacksAllowed
  underflow : Bool

def chargeBudget (available requested : LogbacksAllowed) : Charge :=
  match available with
  | .unlimited => ⟨.ok requested, .unlimited, false⟩
  | .limited x =>
    if x = 0 then ⟨.error .logbackBudgetExhausted, .limited x, false⟩
    else match requested with
      | .limited asked =>
        if x - 1 < asked then ⟨.error .logbackBudgetExhausted, .limited x, decide (x < 1)⟩
        else ⟨.ok requested, .limited (x - asked - 1),
          decide (x < 1) || decide (x < asked) || decide (x - asked < 1)⟩
      | .unlimited => ⟨.error .logbackBudgetExhausted, .limited x, false⟩

structure LogBackArgs where
  typeBuf : UInt32
  typeBufLen : UInt32
  logBuf : UInt32
  logBufLen : UInt32
  delay : UInt32
  logbacksRequested : LogbacksAllowed

/-- Read type and payload from the guest and build the message. -/
def readMessage (env : Env) (args : LogBackArgs) (id : String) (budget : LogbacksAllowed) :
    Except FunctionErrors Message :=
  match env.memory with
  | none => .error .internalApiError
  | some m =>
    match safelyGetString m args.typeBuf args.typeBufLen with
    | .error _ => .error .internalApiError
    | .ok type_ =>
      match safelyGetMemory m args.logBuf args.logBufLen
          (calculateMaxBufferSize env.module.pageLimit) with
      | .error _ => .error .internalApiError
      | .ok log => .ok (.new id type_ log (.logback env.module.name) budget)

/-- `log_back_detailed` up to the dispatch. The budget is charged first, so a call that then
fails has paid for it. -/
def logBackDetailed (env : Env) (args : LogBackArgs) (id : String) :
    Env × Except FunctionErrors Message :=
  let charge := chargeBudget env.message.logbacksAllowed args.logbacksRequested
  let env := { env with message := { env.message with logbacksAllowed := charge.left } }
  match charge.assigned with
  | .error e => (env, .error e)
  | .ok budget => (env, readMessage env args id budget)

/-- Where `dispatch_logback` sends a message. -/
inductive Route
  | immediate
  | delayed (delay : ℕ)
  deriving DecidableEq, Repr

def dispatchRoute (cancelled : Bool) (delay : UInt32) (immediateSender : Bool) : Route :=
  if !cancelled && delay = 0 && immediateSender then .immediate
  else .delayed (max delay.toNat 1)

/-- The message a rule can make: the payload has the length it asked for, headers and query
parameters are empty. -/
theorem readMessage_ok {env : Env} {args : LogBackArgs} {id : String} {budget : LogbacksAllowed}
    {msg : Message} (h : readMessage env args id budget = .ok msg) :
    ∃ type_ log, msg = .new id type_ log (.logback env.module.name) budget ∧
      log.length = args.logBufLen.toNat := by
  unfold readMessage at h
  split at h
  · cases h
  · split at h
    · cases h
    · split at h
      · cases h
      · rename_i hlog
        cases h
        exact ⟨_, _, rfl, (safelyGetMemory_length hlog).1⟩

theorem logBackDetailed_ok {env env' : Env} {args : LogBackArgs} {id : String} {msg : Message}
    (h : logBackDetailed env args id = (env', .ok msg)) :
    ∃ type_ log budget, msg = .new id type_ log (.logback env.module.name) budget ∧
      log.length = args.logBufLen.toNat := by
  simp only [logBackDetailed] at h
  split at h
  · cases h
  · obtain ⟨type_, log, hmsg, hlen⟩ := readMessage_ok (Prod.ext_iff.mp h).2
    exact ⟨type_, log, _, hmsg, hlen⟩

theorem readMessage_budget {env : Env} {args : LogBackArgs} {id : String} {budget : LogbacksAllowed}
    {msg : Message} (h : readMessage env args id budget = .ok msg) :
    msg.logbacksAllowed = budget := by
  obtain ⟨type_, log, rfl, -⟩ := readMessage_ok h
  rfl

theorem dispatchRoute_delayed {cancelled immediateSender : Bool} {delay : UInt32} {d : ℕ}
    (h : dispatchRoute cancelled delay immediateSender = .delayed d) : d = max delay.toNat 1 := by
  unfold dispatchRoute at h
  split at h
  · cases h
  · exact (Route.delayed.inj h).symm

/-- Under a limited budget a call is refused at no cost, or it is charged one for itself and
what it hands on. -/
theorem chargeBudget_limited (x : UInt32) (requested : LogbacksAllowed) :
    (chargeBudget (.limited x) requested).underflow = false ∧
    ((∃ e, (chargeBudget (.limited x) requested).assigned = .error e) ∧
      (chargeBudget (.limited x) requested).left = .limited x ∨
    ∃ asked left : UInt32, (chargeBudget (.limited x) requested).assigned = .ok (.limited asked) ∧
      (chargeBudget (.limited x) requested).left = .limited left ∧
      x.toNat = asked.toNat + 1 + left.toNat) := by
  unfold chargeBudget
  by_cases hx : x = 0
  · simp [hx]
  have hpos : (1 : UInt32) ≤ x := by
    have : x.toNat ≠ 0 := fun h => hx (UInt32.toNat_inj.mp h)
    rw [UInt32.le_iff_toNat_le]
    simp only [UInt32.toNat_one]
    omega
  have hone : ¬ x < 1 := UInt32.not_lt.mpr hpos
  simp only [hx, if_false]
  cases requested with
  | unlimited => simp
  | limited asked =>
    simp only
    split_ifs with hasked
    · simp [hone]
    · have hle : asked.toNat ≤ x.toNat - 1 := by
        have h := UInt32.le_iff_toNat_le.mp (UInt32.not_lt.mp hasked)
        rwa [UInt32.toNat_sub_of_le _ _ hpos] at h
      have hx1 : 1 ≤ x.toNat := UInt32.le_iff_toNat_le.mp hpos
      have ha : asked ≤ x := UInt32.le_iff_toNat_le.mpr (by omega)
      have hr : (1 : UInt32) ≤ x - asked := by
        rw [UInt32.le_iff_toNat_le, UInt32.toNat_sub_of_le _ _ ha, UInt32.toNat_one]
        omega
      refine ⟨by simp [hone, UInt32.not_lt.mpr ha, UInt32.not_lt.mpr hr], Or.inr ⟨asked, _, rfl, rfl, ?_⟩⟩
      rw [UInt32.toNat_sub_of_le _ _ hr, UInt32.toNat_sub_of_le _ _ ha, UInt32.toNat_one]
      omega

/-- A call under a limited budget either fails, and then the budget has not grown, or it
makes a message whose budget it has paid for. -/
theorem logBackDetailed_limited {env : Env} {x : UInt32}
    (hx : env.message.logbacksAllowed = .limited x) (args : LogBackArgs) (id : String) :
    ∃ left : UInt32, (logBackDetailed env args id).1.message.logbacksAllowed = .limited left ∧
      left.toNat ≤ x.toNat ∧
      ((∃ e, (logBackDetailed env args id).2 = .error e) ∨
        ∃ msg asked, (logBackDetailed env args id).2 = .ok msg ∧
          msg.logbacksAllowed = .limited asked ∧ x.toNat = asked.toNat + 1 + left.toNat) := by
  obtain ⟨-, ⟨⟨e, he⟩, hleft⟩ | ⟨asked, left, hok, hleft, hsum⟩⟩ :=
    chargeBudget_limited x args.logbacksRequested
  · refine ⟨x, ?_, le_refl _, Or.inl ⟨e, ?_⟩⟩
    · simp [logBackDetailed, hx, he, hleft]
    · simp [logBackDetailed, hx, he]
  · refine ⟨left, ?_, by omega, ?_⟩
    · simp [logBackDetailed, hx, hok, hleft]
    · simp only [logBackDetailed, hx, hok]
      generalize hr : readMessage _ args id _ = r
      cases r with
      | error e => exact Or.inl ⟨e, rfl⟩
      | ok msg => exact Or.inr ⟨msg, asked, rfl, readMessage_budget hr, hsum⟩

end PlaidRuntime.LogbackMessage
