import PlaidRuntime.LogbackDelivery

/-!
# What a logback costs

`log_back_detailed` and `dispatch_logback` (`functions/internal.rs`) as one call: the budget it
leaves, the queues it leaves and the code the rule sees.
-/
namespace PlaidRuntime.LogbackBudget
open GuestMemory LogbackMessage

/-- A channel as its senders see it. -/
structure Channel (α : Type) where
  capacity : Option ℕ
  items : List α
  closed : Bool
  deriving DecidableEq

inductive TrySendError
  | full
  | disconnected
  deriving DecidableEq, Repr

def Channel.isFull {α : Type} (c : Channel α) : Bool :=
  match c.capacity with
  | none => false
  | some n => decide (n ≤ c.items.length)

def Channel.trySend {α : Type} (c : Channel α) (a : α) : Except TrySendError (Channel α) :=
  if c.closed then .error .disconnected
  else if c.isFull then .error .full
  else .ok { c with items := c.items ++ [a] }

/-- `immediate` is absent once the execution can no longer get a sender. -/
structure Queues where
  cancelled : Bool
  immediate : Option (Channel Message)
  delayed : Channel DelayedMessage
  deriving DecidableEq

def dispatchDelayed (q : Queues) (delay : ℕ) (msg : Message) : Except FunctionErrors Queues :=
  match q.delayed.trySend ⟨delay, msg⟩ with
  | .error _ => .error .failedToLogBack
  | .ok delayed => .ok { q with delayed := delayed }

def dispatchLogback (q : Queues) (delay : UInt32) (msg : Message) : Except FunctionErrors Queues :=
  match q.immediate, dispatchRoute q.cancelled delay q.immediate.isSome with
  | some c, .immediate =>
    match c.trySend msg with
    | .error _ => .error .failedToLogBack
    | .ok c => .ok { q with immediate := some c }
  | _, .delayed delay => dispatchDelayed q delay msg
  | none, .immediate => dispatchDelayed q (max delay.toNat 1) msg

structure Called where
  code : ℤ
  env : Env
  queues : Queues

/-- The host function: an error of either part is the code it returns. -/
def logBack (env : Env) (q : Queues) (args : LogBackArgs) (id : String) : Called :=
  match logBackDetailed env args id with
  | (env, .error e) => ⟨e.code, env, q⟩
  | (env, .ok msg) =>
    match dispatchLogback q args.delay msg with
    | .error e => ⟨e.code, env, q⟩
    | .ok q => ⟨0, env, q⟩

/-- One message more is in one of the two queues. -/
inductive Enqueued (q : Queues) : Queues → Prop
  | immediate (c : Channel Message) (msg : Message) (h : q.immediate = some c) :
      Enqueued q { q with immediate := some { c with items := c.items ++ [msg] } }
  | delayed (msg : DelayedMessage) :
      Enqueued q { q with delayed := { q.delayed with items := q.delayed.items ++ [msg] } }

/-- A call that fails costs nothing and sends nothing; one that succeeds sends one message and
costs one more than it hands on. -/
structure Atomic (x : UInt32) (q : Queues) (args : LogBackArgs) (out : Called) : Prop where
  failed : out.code ≠ 0 → out.queues = q ∧ out.env.message.logbacksAllowed = .limited x
  sent : out.code = 0 → Enqueued q out.queues ∧ ∃ asked left : UInt32,
    args.logbacksRequested = .limited asked ∧
    out.env.message.logbacksAllowed = .limited left ∧ x.toNat = left.toNat + 1 + asked.toNat

/-- The budget does not allow the call. -/
def Refused (x : UInt32) : LogbacksAllowed → Prop
  | .unlimited => True
  | .limited asked => x.toNat ≤ asked.toNat

instance (x : UInt32) (requested : LogbacksAllowed) : Decidable (Refused x requested) := by
  cases requested <;> unfold Refused <;> infer_instance

/-- Type and payload can be read from the memory of the guest. -/
def Readable (env : Env) (args : LogBackArgs) : Prop :=
  ∃ m type_ log, env.memory = some m ∧
    safelyGetString m args.typeBuf args.typeBufLen = .ok type_ ∧
    safelyGetMemory m args.logBuf args.logBufLen (calculateMaxBufferSize env.module.pageLimit) =
      .ok log

def Channel.Accepts {α : Type} (c : Channel α) : Prop := c.closed = false ∧ c.isFull = false

/-- The queue that the message is meant for takes it. -/
def Queues.Accepts (q : Queues) (delay : UInt32) : Prop :=
  match q.immediate, dispatchRoute q.cancelled delay q.immediate.isSome with
  | some c, .immediate => c.Accepts
  | _, _ => q.delayed.Accepts

section dispatch
variable {q : Queues} {delay : UInt32} {msg : Message}

theorem code_ne_zero (e : FunctionErrors) : e.code ≠ 0 := by
  cases e <;> decide

theorem Channel.trySend_cases {α : Type} (c : Channel α) (a : α) :
    c.Accepts ∧ c.trySend a = .ok { c with items := c.items ++ [a] } ∨
    ¬ c.Accepts ∧ ∃ e, c.trySend a = .error e := by
  unfold Channel.trySend Channel.Accepts
  cases c.closed <;> cases c.isFull <;> simp

theorem dispatchDelayed_cases (d : ℕ) :
    q.delayed.Accepts ∧ (∃ q', dispatchDelayed q d msg = .ok q' ∧ Enqueued q q') ∨
    ¬ q.delayed.Accepts ∧ dispatchDelayed q d msg = .error .failedToLogBack := by
  unfold dispatchDelayed
  rcases q.delayed.trySend_cases ⟨d, msg⟩ with ⟨ha, hs⟩ | ⟨ha, e, hs⟩
  · rw [hs]
    exact Or.inl ⟨ha, _, rfl, .delayed ⟨d, msg⟩⟩
  · rw [hs]
    exact Or.inr ⟨ha, rfl⟩

/-- A message is enqueued once, or it is refused. -/
theorem dispatchLogback_cases :
    q.Accepts delay ∧ (∃ q', dispatchLogback q delay msg = .ok q' ∧ Enqueued q q') ∨
    ¬ q.Accepts delay ∧ dispatchLogback q delay msg = .error .failedToLogBack := by
  unfold dispatchLogback Queues.Accepts
  cases hi : q.immediate with
  | none =>
    cases dispatchRoute q.cancelled delay (none : Option (Channel Message)).isSome with
    | immediate => exact dispatchDelayed_cases _
    | delayed d => exact dispatchDelayed_cases d
  | some c =>
    cases dispatchRoute q.cancelled delay (some c).isSome with
    | delayed d => exact dispatchDelayed_cases d
    | immediate =>
      rcases c.trySend_cases msg with ⟨ha, hs⟩ | ⟨ha, e, hs⟩
      · simp only [hs]
        exact Or.inl ⟨ha, _, rfl, .immediate c msg hi⟩
      · simp only [hs]
        exact Or.inr ⟨ha, trivial⟩

end dispatch

section call
variable {env : Env} {q : Queues} {args : LogBackArgs} {id : String} {x : UInt32}

theorem readMessage_cases (budget : LogbacksAllowed) :
    Readable env args ∧ (∃ msg, readMessage env args id budget = .ok msg) ∨
    ¬ Readable env args ∧ readMessage env args id budget = .error .internalApiError := by
  unfold readMessage Readable
  cases env.memory with
  | none => simp
  | some m =>
    cases ht : safelyGetString m args.typeBuf args.typeBufLen with
    | error e => simp [ht]
    | ok type_ =>
      cases hl : safelyGetMemory m args.logBuf args.logBufLen
          (calculateMaxBufferSize env.module.pageLimit) with
      | error e => simp [ht, hl]
      | ok log => simp [ht, hl]

/-- The budget refuses a call and stays, or it is charged. -/
theorem chargeBudget_cases (requested : LogbacksAllowed) :
    Refused x requested ∧ (∃ e, (chargeBudget (.limited x) requested).assigned = .error e) ∧
      (chargeBudget (.limited x) requested).left = .limited x ∨
    ¬ Refused x requested ∧ ∃ asked left : UInt32, requested = .limited asked ∧
      (chargeBudget (.limited x) requested).assigned = .ok (.limited asked) ∧
      (chargeBudget (.limited x) requested).left = .limited left ∧
      x.toNat = left.toNat + 1 + asked.toNat := by
  obtain ⟨-, ⟨⟨e, he⟩, hleft⟩ | ⟨asked, left, hok, hleft, hsum⟩⟩ := chargeBudget_limited x requested
  · refine Or.inl ⟨?_, ⟨e, he⟩, hleft⟩
    cases requested with
    | unlimited => trivial
    | limited asked =>
      unfold chargeBudget at he
      by_cases hx : x = 0
      · rw [hx]
        exact Nat.zero_le _
      · simp only [hx, if_false] at he
        split_ifs at he with hasked
        have hpos : (1 : UInt32) ≤ x := by
          have : x.toNat ≠ 0 := fun h => hx (UInt32.toNat_inj.mp h)
          rw [UInt32.le_iff_toNat_le, UInt32.toNat_one]
          omega
        have hlt := UInt32.lt_iff_toNat_lt.mp hasked
        rw [UInt32.toNat_sub_of_le _ _ hpos, UInt32.toNat_one] at hlt
        simp only [Refused]
        omega
  · have hreq : requested = .limited asked := by
      unfold chargeBudget at hok
      by_cases hx : x = 0
      · simp [hx] at hok
      · cases requested with
        | unlimited => simp [hx] at hok
        | limited a =>
          simp only [hx, if_false] at hok
          split_ifs at hok
          exact Except.ok.inj hok
    subst hreq
    refine Or.inr ⟨?_, asked, left, rfl, hok, hleft, by omega⟩
    simp only [Refused]
    omega

/-- A call under a limited budget is atomic if and only if the budget refuses it, or the
message can be read and the queue takes it. -/
theorem logBack_atomic_iff (hx : env.message.logbacksAllowed = .limited x) :
    Atomic x q args (logBack env q args id) ↔
      Refused x args.logbacksRequested ∨ (Readable env args ∧ q.Accepts args.delay) := by
  rcases @chargeBudget_cases x args.logbacksRequested with
    ⟨href, ⟨e, he⟩, hleft⟩ | ⟨href, asked, left, hreq, hok, hleft, hsum⟩
  · have hcall : logBack env q args id = ⟨e.code, env, q⟩ := by
      simp only [logBack, logBackDetailed, hx, he, hleft]
      rw [← hx]
    rw [hcall]
    refine iff_of_true ⟨fun _ => ⟨rfl, hx⟩, fun h => ?_⟩ (Or.inl href)
    exact absurd h (code_ne_zero e)
  · -- the budget is charged before the message is read
    obtain ⟨charged, hcharged⟩ : ∃ env' : Env, env' =
        { env with message := { env.message with logbacksAllowed := .limited left } } := ⟨_, rfl⟩
    have hbudget : charged.message.logbacksAllowed = .limited left := by rw [hcharged]
    have hread : Readable charged args ↔ Readable env args := by
      rw [hcharged]
      exact Iff.rfl
    have hdetailed : logBackDetailed env args id =
        (charged, readMessage charged args id (.limited asked)) := by
      simp only [logBackDetailed, hx, hok, hleft, hcharged]
    have hspent : ∀ e : FunctionErrors, ¬ Atomic x q args ⟨e.code, charged, q⟩ := by
      intro e h
      have hkept := (h.failed (code_ne_zero e)).2
      rw [hbudget] at hkept
      cases hkept
      omega
    rcases @readMessage_cases charged args id (.limited asked) with ⟨hr, msg, hmsg⟩ | ⟨hr, hmsg⟩
    · rcases @dispatchLogback_cases q args.delay msg with ⟨ha, q', hq, hen⟩ | ⟨ha, hq⟩
      · have hcall : logBack env q args id = ⟨0, charged, q'⟩ := by
          simp only [logBack, hdetailed, hmsg, hq]
        rw [hcall]
        refine iff_of_true ⟨fun h => absurd rfl h, fun _ => ⟨hen, asked, left, hreq, hbudget, hsum⟩⟩ ?_
        exact Or.inr ⟨hread.mp hr, ha⟩
      · have hcall : logBack env q args id = ⟨FunctionErrors.failedToLogBack.code, charged, q⟩ := by
          simp only [logBack, hdetailed, hmsg, hq]
        rw [hcall]
        refine iff_of_false (hspent _) ?_
        rintro (h | ⟨-, h⟩)
        · exact href h
        · exact ha h
    · have hcall : logBack env q args id = ⟨FunctionErrors.internalApiError.code, charged, q⟩ := by
        simp only [logBack, hdetailed, hmsg]
      rw [hcall]
      refine iff_of_false (hspent _) ?_
      rintro (h | ⟨h, -⟩)
      · exact href h
      · exact hr (hread.mpr h)

end call

section delivery
variable {T : Type} [DecidableEq T] {s : LogbackDelivery.Plaid T} {cancelled closed closed' : Bool}
  {capacity capacity' : Option ℕ} {delay : UInt32} {msg : Message} {q : Queues}

/-- The queues of the delivery machine, with the sender an execution holds or without it. -/
def queuesOf (s : LogbackDelivery.Plaid T) (sender cancelled closed closed' : Bool)
    (capacity capacity' : Option ℕ) : Queues where
  cancelled := cancelled
  immediate := if sender then some ⟨capacity, s.queue, closed⟩ else none
  delayed := ⟨capacity', s.delayed, closed'⟩

/-- What is dispatched here is what the delivery machine sends. -/
theorem dispatchLogback_sendStep {t : T} {sender : Bool}
    (hfresh : msg.id ∉ s.known.map Message.id)
    (h : dispatchLogback (queuesOf s sender cancelled closed closed' capacity capacity') delay msg =
      .ok q) :
    ∃ s', LogbackDelivery.sendStep s t sender cancelled delay msg true = some s' ∧
      q = queuesOf s' sender cancelled closed closed' capacity capacity' := by
  have hsend : ∀ {α : Type} (c c' : Channel α) (a : α), c.trySend a = .ok c' →
      c' = { c with items := c.items ++ [a] } := by
    intro α c c' a hc
    rcases c.trySend_cases a with ⟨-, hs⟩ | ⟨-, e, hs⟩
    · rw [hs] at hc
      exact (Except.ok.inj hc).symm
    · rw [hs] at hc
      cases hc
  have hdelayed : ∀ d, dispatchDelayed
      (queuesOf s sender cancelled closed closed' capacity capacity') d msg = .ok q →
      q = { queuesOf s sender cancelled closed closed' capacity capacity' with
        delayed := ⟨capacity', s.delayed ++ [⟨d, msg⟩], closed'⟩ } := by
    intro d hd
    unfold dispatchDelayed at hd
    split at hd
    · cases hd
    · rename_i c hc
      rw [hsend _ _ _ hc] at hd
      exact (Except.ok.inj hd).symm
  unfold LogbackDelivery.sendStep
  rw [if_neg hfresh]
  cases sender with
  | false =>
    have hr : dispatchRoute cancelled delay false = .delayed (max delay.toNat 1) := by
      simp [dispatchRoute]
    have hd : dispatchDelayed (queuesOf s false cancelled closed closed' capacity capacity')
        (max delay.toNat 1) msg = .ok q := by
      simpa [dispatchLogback, queuesOf, hr] using h
    simp only [if_true, hr]
    exact ⟨_, rfl, hdelayed _ hd⟩
  | true =>
    cases hr : dispatchRoute cancelled delay true with
    | delayed d =>
      have hd : dispatchDelayed (queuesOf s true cancelled closed closed' capacity capacity')
          d msg = .ok q := by
        simpa [dispatchLogback, queuesOf, hr] using h
      simp only [if_true]
      exact ⟨_, rfl, hdelayed _ hd⟩
    | immediate =>
      simp only [dispatchLogback, queuesOf, if_true, Option.isSome_some, hr] at h
      split at h
      · cases h
      · rename_i c hc
        rw [hsend _ _ _ hc] at h
        simp only [if_true]
        exact ⟨_, rfl, (Except.ok.inj h).symm⟩

end delivery

section instances

/-- A rule with a budget of one logback, and its call of `log_back("t", [7], 0)`. -/
def callerEnv : Env where
  module := ⟨"sender.wasm", 1⟩
  message := .new "id0" "start" [] (.generator .github) (.limited 1)
  memory := some ⟨asBytes "t" ++ [7]⟩

def callerArgs : LogBackArgs := ⟨0, 1, 1, 1, 0, .limited 0⟩

/-- An executor queue with room for one message. -/
def queuesWith (items : List Message) : Queues := ⟨false, some ⟨some 1, items, false⟩, ⟨none, [], false⟩⟩

/-- A full queue: the call fails, nothing is sent and the budget is gone. -/
theorem full_queue_spends_budget :
    callerEnv.message.logbacksAllowed = .limited 1 ∧
    (logBack callerEnv (queuesWith [callerEnv.message]) callerArgs "id1").code = -15 ∧
    ¬ Atomic 1 (queuesWith [callerEnv.message]) callerArgs
      (logBack callerEnv (queuesWith [callerEnv.message]) callerArgs "id1") := by
  refine ⟨rfl, by decide +kernel, fun h => ?_⟩
  have hkept := (h.failed (by decide +kernel)).2
  revert hkept
  decide +kernel

theorem free_queue_atomic :
    Atomic 1 (queuesWith []) callerArgs (logBack callerEnv (queuesWith []) callerArgs "id1") := by
  refine (logBack_atomic_iff rfl).mpr (Or.inr ⟨⟨_, "t", [7], rfl, ?_, ?_⟩, ?_⟩)
  · exact safelyGetString_of_read (by decide +kernel)
  · decide +kernel
  · exact ⟨rfl, rfl⟩

end instances
end PlaidRuntime.LogbackBudget
