import PlaidRuntime.StepMachine
import PlaidRuntime.CascadeBudget
import PlaidRuntime.LogbackMessage

/-!
# Cascades of logbacks

One message makes the executor run every module subscribed to its type, one after the other
and each with a copy of the message's budget (`execution_loop`). The modules send further
messages, which wait somewhere and are executed in any order.
-/
namespace PlaidRuntime.LogbackCascade
open StepMachine CascadeBudget GuestMemory LogbackMessage

/-- A module execution in progress, with the budget it started with and what its accepted
calls have taken so far. -/
structure Active where
  env : Env
  started : LogbacksAllowed
  spent : ℕ

/-- An executor thread at work on a message. -/
structure Execution where
  message : Message
  left : List PlaidModule
  current : Option Active

structure Cascade where
  /-- Every message of the cascade, the first included. -/
  sent : List Message
  /-- Messages that wait for an executor, in whatever queue. -/
  pending : List Message
  running : List Execution
  underflowed : Bool

inductive Event
  | receive (i : ℕ)
  | discard (i : ℕ)
  | enter (j : ℕ)
  | skip (j : ℕ)
  | call (j : ℕ) (memory : Option MemoryView) (args : LogBackArgs) (id : String) (delivered : Bool)
  | leave (j : ℕ)

def start (m : Message) : Cascade := ⟨[m], [m], [], false⟩

/-- The modules `execution_loop` runs on a message. -/
def subscribers (modules : String → Option (List PlaidModule)) (m : Message) : List PlaidModule :=
  match m.module, modules m.type_ with
  | some p, _ => [p]
  | none, some ms => ms
  | none, none => []

def assignedSize : LogbacksAllowed → ℕ
  | .limited n => n.toNat
  | .unlimited => 0

/-- One `log_back_detailed` of the module that is running, on the guest memory of the
moment. The dispatch may fail, and then the message is dropped. -/
def callBack (s : Cascade) (j : ℕ) (e : Execution) (act : Active) (memory : Option MemoryView)
    (args : LogBackArgs) (id : String) (delivered : Bool) : Cascade :=
  let env := { act.env with memory := memory }
  let charge := chargeBudget env.message.logbacksAllowed args.logbacksRequested
  let s := { s with underflowed := s.underflowed || charge.underflow }
  match logBackDetailed env args id with
  | (env, .ok msg) =>
    if delivered then
      { s with
        sent := s.sent ++ [msg]
        pending := s.pending ++ [msg]
        running := s.running.set j { e with current := some { act with
          env := env, spent := act.spent + 1 + assignedSize msg.logbacksAllowed } } }
    else { s with running := s.running.set j { e with current := some { act with env := env } } }
  | (env, .error _) =>
    { s with running := s.running.set j { e with current := some { act with env := env } } }

def step (modules : String → Option (List PlaidModule)) (s : Cascade) : Event → Option Cascade
  | .receive i =>
    (s.pending[i]?).map fun m =>
      { s with
        pending := s.pending.eraseIdx i
        running := s.running ++ [⟨m, subscribers modules m, none⟩] }
  | .discard i => (s.pending[i]?).map fun _ => { s with pending := s.pending.eraseIdx i }
  | .enter j =>
    match s.running[j]? with
    | some ⟨m, p :: ps, none⟩ =>
      let env : Env := ⟨p, m.createDuplicate, none⟩
      some { s with running := s.running.set j ⟨m, ps, some ⟨env, m.logbacksAllowed, 0⟩⟩ }
    | _ => none
  | .skip j =>
    match s.running[j]? with
    | some ⟨m, _ :: ps, none⟩ => some { s with running := s.running.set j ⟨m, ps, none⟩ }
    | _ => none
  | .call j memory args id delivered =>
    match s.running[j]? with
    | some ⟨m, ps, some act⟩ => some (callBack s j ⟨m, ps, some act⟩ act memory args id delivered)
    | _ => none
  | .leave j =>
    match s.running[j]? with
    | some ⟨m, ps, some _⟩ => some { s with running := s.running.set j ⟨m, ps, none⟩ }
    | _ => none

section bound
variable {k : ℕ}

/-- Messages that a module with this budget can still cause. -/
def future (k : ℕ) : LogbacksAllowed → ℕ
  | .limited n => branch k n.toNat
  | .unlimited => 0

def Execution.future (k : ℕ) (e : Execution) : ℕ :=
  e.left.length * LogbackCascade.future k e.message.logbacksAllowed +
    (e.current.elim 0 fun act => LogbackCascade.future k act.env.message.logbacksAllowed)

/-- Everything sent and everything that may still be sent. -/
def Cascade.reach (k : ℕ) (s : Cascade) : ℕ :=
  s.sent.length + (s.pending.map fun m => k * future k m.logbacksAllowed).sum +
    (s.running.map (Execution.future k)).sum

def IsLimited (l : LogbacksAllowed) : Prop := ∃ n, l = .limited n

/-- What a running module may still hand on, and what it has handed on, is within what it
started with. -/
def Active.Within (act : Active) : Prop :=
  ∃ b x : UInt32, act.started = .limited b ∧ act.env.message.logbacksAllowed = .limited x ∧
    act.spent + x.toNat ≤ b.toNat

def Execution.Within (e : Execution) : Prop :=
  IsLimited e.message.logbacksAllowed ∧ ∀ act, e.current = some act → act.Within

structure Bounded (k b : ℕ) (s : Cascade) : Prop where
  reach : s.reach k ≤ tree k b
  pending : ∀ m ∈ s.pending, IsLimited m.logbacksAllowed
  sent : ∀ m ∈ s.sent, IsLimited m.logbacksAllowed
  running : ∀ e ∈ s.running, e.Within
  underflowed : s.underflowed = false

theorem sum_set {α : Type} {l : List α} {i : ℕ} {a : α} (f : α → ℕ) (h : l[i]? = some a) (b : α) :
    ((l.set i b).map f).sum + f a = (l.map f).sum + f b := by
  obtain ⟨hi, rfl⟩ := List.getElem?_eq_some_iff.mp h
  have hset := ((List.set_perm_cons_eraseIdx hi b).map f).sum_eq
  have hget := ((List.getElem_cons_eraseIdx_perm hi).map f).sum_eq
  simp only [List.map_cons, List.sum_cons] at hset hget
  omega

theorem sum_eraseIdx {α : Type} {l : List α} {i : ℕ} {a : α} (f : α → ℕ) (h : l[i]? = some a) :
    ((l.eraseIdx i).map f).sum + f a = (l.map f).sum := by
  obtain ⟨hi, rfl⟩ := List.getElem?_eq_some_iff.mp h
  have hget := ((List.getElem_cons_eraseIdx_perm hi).map f).sum_eq
  simp only [List.map_cons, List.sum_cons] at hget
  omega

/-- An execution moves on and sends `new`: it must pay for these out of its future. -/
theorem Bounded.advance {b : ℕ} {s : Cascade} (h : Bounded k b s) {j : ℕ} {e f : Execution}
    (hj : s.running[j]? = some e) (hf : f.Within) (new : List Message)
    (hnew : ∀ m ∈ new, IsLimited m.logbacksAllowed)
    (hpay : (new.map fun m => 1 + k * future k m.logbacksAllowed).sum + f.future k ≤ e.future k) :
    Bounded k b ⟨s.sent ++ new, s.pending ++ new, s.running.set j f, false⟩ := by
  constructor
  · have hr := h.reach
    have hset := sum_set (Execution.future k) hj f
    simp only [Cascade.reach, List.length_append, List.map_append, List.sum_append] at hr ⊢
    simp only [List.sum_map_add, List.map_const', List.sum_replicate, smul_eq_mul, mul_one] at hpay
    omega
  · intro m hm
    rcases List.mem_append.mp hm with hm | hm
    · exact h.pending m hm
    · exact hnew m hm
  · intro m hm
    rcases List.mem_append.mp hm with hm | hm
    · exact h.sent m hm
    · exact hnew m hm
  · intro x hx
    rcases List.mem_or_eq_of_mem_set hx with hx | rfl
    · exact h.running x hx
    · exact hf
  · rfl

theorem mem_of_running {s : Cascade} {j : ℕ} {e : Execution} (hj : s.running[j]? = some e) :
    e ∈ s.running := List.mem_of_getElem? hj

theorem subscribers_length {modules : String → Option (List PlaidModule)} (hk : 1 ≤ k)
    (hm : ∀ type_ ms, modules type_ = some ms → ms.length ≤ k) (m : Message) :
    (subscribers modules m).length ≤ k := by
  unfold subscribers
  split
  · exact hk
  · exact hm _ _ ‹_›
  · exact Nat.zero_le k

/-- What a call leaves: the caller pays for the message it sends, and for nothing else. -/
theorem callBack_bounded {b : ℕ} {s : Cascade} (hk : 1 ≤ k) (h : Bounded k b s) {j : ℕ}
    {m : Message} {ps : List PlaidModule} {act : Active}
    (hj : s.running[j]? = some ⟨m, ps, some act⟩) (memory : Option MemoryView) (args : LogBackArgs)
    (id : String) (delivered : Bool) :
    Bounded k b (callBack s j ⟨m, ps, some act⟩ act memory args id delivered) := by
  have hw := h.running _ (mem_of_running hj)
  obtain ⟨b₀, x, hb₀, hx, hspent⟩ := hw.2 act rfl
  have hu := (chargeBudget_limited x args.logbacksRequested).1
  obtain ⟨left, hleft, hle, hr⟩ :=
    @logBackDetailed_limited { act.env with memory := memory } x hx args id
  have hmono := branch_mono (k := k) hle
  simp only [callBack]
  generalize logBackDetailed { act.env with memory := memory } args id = res at hleft hr ⊢
  rcases res with ⟨env, r⟩
  simp only at hleft hr
  -- an unsent message costs the budget and adds nothing
  have unsent : Bounded k b { s with
      underflowed := s.underflowed ||
        (chargeBudget act.env.message.logbacksAllowed args.logbacksRequested).underflow
      running := s.running.set j ⟨m, ps, some { act with env := env }⟩ } := by
    have hadv := h.advance hj (f := ⟨m, ps, some { act with env := env }⟩)
      ⟨hw.1, by rintro _ ⟨⟩; exact ⟨b₀, left, hb₀, hleft, by simp only; omega⟩⟩ [] (by simp)
      (by simp [Execution.future, future, hx, hleft, hmono])
    simpa [hx, hu, h.underflowed] using hadv
  rcases hr with ⟨e, rfl⟩ | ⟨msg, asked, rfl, hmsg, hsum⟩
  · exact unsent
  · cases delivered with
    | false => exact unsent
    | true =>
      have htree := tree_add_branch_le hk asked.toNat left.toNat
      have hadv := h.advance hj (f := ⟨m, ps, some { act with
          env := env, spent := act.spent + 1 + assignedSize msg.logbacksAllowed }⟩)
        ⟨hw.1, by
          rintro _ ⟨⟩
          exact ⟨b₀, left, hb₀, hleft, by simp only [hmsg, assignedSize]; omega⟩⟩ [msg]
        (by simpa using ⟨asked, hmsg⟩)
        (by
          rw [tree_eq] at htree
          simp [Execution.future, future, hx, hleft, hmsg, hsum]
          omega)
      simpa [hx, hu, h.underflowed] using hadv

/-- Every event of the cascade keeps within the bound. -/
theorem step_bounded {modules : String → Option (List PlaidModule)} (hk : 1 ≤ k)
    (hm : ∀ type_ ms, modules type_ = some ms → ms.length ≤ k) {b : ℕ} {s t : Cascade} {ev : Event}
    (h : Bounded k b s) (hs : step modules s ev = some t) : Bounded k b t := by
  cases ev with
  | receive i =>
    obtain ⟨m, hi, rfl⟩ := Option.map_eq_some_iff.mp hs
    have hpend := sum_eraseIdx (fun m => k * future k m.logbacksAllowed) hi
    have hlen := Nat.mul_le_mul_right (future k m.logbacksAllowed) (subscribers_length hk hm m)
    have hlim := h.pending m (List.mem_of_getElem? hi)
    constructor
    · have hr := h.reach
      simp only [Cascade.reach, List.map_append, List.sum_append, List.map_cons, List.map_nil,
        List.sum_cons, List.sum_nil, Execution.future, Option.elim] at hr ⊢
      omega
    · exact fun x hx => h.pending x (List.mem_of_mem_eraseIdx hx)
    · exact h.sent
    · intro e he
      rcases List.mem_append.mp he with he | he
      · exact h.running e he
      · rw [List.mem_singleton.mp he]
        exact ⟨hlim, fun act hact => by cases hact⟩
    · exact h.underflowed
  | discard i =>
    obtain ⟨m, hi, rfl⟩ := Option.map_eq_some_iff.mp hs
    have hpend := sum_eraseIdx (fun m => k * future k m.logbacksAllowed) hi
    constructor
    · have hr := h.reach
      simp only [Cascade.reach] at hr ⊢
      omega
    · exact fun x hx => h.pending x (List.mem_of_mem_eraseIdx hx)
    · exact h.sent
    · exact h.running
    · exact h.underflowed
  | enter j =>
    simp only [step] at hs
    split at hs
    · rename_i m p ps hj
      cases hs
      have hw := h.running _ (mem_of_running hj)
      obtain ⟨n, hn⟩ := hw.1
      have hadv := h.advance hj
        (f := ⟨m, ps, some ⟨⟨p, m.createDuplicate, none⟩, m.logbacksAllowed, 0⟩⟩)
        ⟨hw.1, by rintro _ ⟨⟩; exact ⟨n, n, hn, hn, by simp⟩⟩ [] (by simp)
        (by
          simp only [Execution.future, Message.createDuplicate, List.length_cons, Option.elim,
            List.map_nil, List.sum_nil]
          rw [Nat.succ_mul]
          omega)
      simpa [h.underflowed] using hadv
    · cases hs
  | skip j =>
    simp only [step] at hs
    split at hs
    · rename_i m p ps hj
      cases hs
      have hw := h.running _ (mem_of_running hj)
      have hadv := h.advance hj (f := ⟨m, ps, none⟩) ⟨hw.1, fun act hact => by cases hact⟩ []
        (by simp)
        (by
          simp only [Execution.future, List.length_cons, Option.elim, List.map_nil, List.sum_nil]
          rw [Nat.succ_mul]
          omega)
      simpa [h.underflowed] using hadv
    · cases hs
  | call j memory args id delivered =>
    simp only [step] at hs
    split at hs
    · rename_i m ps act hj
      cases hs
      exact callBack_bounded hk h hj memory args id delivered
    · cases hs
  | leave j =>
    simp only [step] at hs
    split at hs
    · rename_i m ps act hj
      cases hs
      have hw := h.running _ (mem_of_running hj)
      have hadv := h.advance hj (f := ⟨m, ps, none⟩) ⟨hw.1, fun act hact => by cases hact⟩ []
        (by simp) (by simp [Execution.future])
      simpa [h.underflowed] using hadv
    · cases hs

theorem start_bounded {m : Message} {b : UInt32} (hb : m.logbacksAllowed = .limited b) :
    Bounded k b.toNat (start m) := by
  constructor
  · simp [Cascade.reach, start, hb, future, tree_eq]
  · simpa [start] using ⟨b, hb⟩
  · simpa [start] using ⟨b, hb⟩
  · simp [start]
  · rfl

end bound

/-- A message with budget `b` causes at most the tree of messages that a budget of `b` can
span, none of them unlimited, and no module hands on more than it was given. -/
theorem cascade_bound {modules : String → Option (List PlaidModule)} {k : ℕ} (hk : 1 ≤ k)
    (hm : ∀ type_ ms, modules type_ = some ms → ms.length ≤ k) {m : Message} {b : UInt32}
    (hb : m.logbacksAllowed = .limited b) {events : List Event} {s : Cascade}
    (hrun : run (step modules) (start m) events = some s) :
    s.sent.length ≤ ∑ i ∈ Finset.range (b.toNat + 1), k ^ i ∧
    (∀ msg ∈ s.sent, msg.logbacksAllowed ≠ .unlimited) ∧
    (∀ e ∈ s.running, ∀ act, e.current = some act →
      ∃ budget : UInt32, act.started = .limited budget ∧ act.spent ≤ budget.toNat) ∧
    s.underflowed = false := by
  have h : Bounded k b.toNat s :=
    run_invariant (fun s l t hs hst => step_bounded hk hm hs hst) (start_bounded hb) hrun
  refine ⟨?_, ?_, ?_, h.underflowed⟩
  · have hr := h.reach
    simp only [Cascade.reach, tree] at hr
    omega
  · intro msg hmsg hunl
    obtain ⟨n, hn⟩ := h.sent msg hmsg
    rw [hn] at hunl
    cases hunl
  · intro e he act hact
    obtain ⟨budget, x, hstart, -, hspent⟩ := (h.running e he).2 act hact
    exact ⟨budget, hstart, by omega⟩

/-- One module subscribed to the type `t`. -/
def oneModule (type_ : String) : Option (List PlaidModule) :=
  if type_ = "t" then some [⟨"rule.wasm", 1⟩] else none

def firstMessage : Message := .new "0" "t" [] (.webhookPost "w") (.limited 1)

/-- The rule answers the first message by one of its own and then runs on that. -/
def echoEvents : List Event :=
  [.receive 0, .enter 0, .call 0 (some ⟨[116]⟩) ⟨0, 1, 0, 0, 0, .limited 0⟩ "1" true, .leave 0,
    .receive 0, .enter 1, .call 1 (some ⟨[116]⟩) ⟨0, 1, 0, 0, 0, .limited 0⟩ "2" true]

theorem cascade_bound_echo : ∃ s, run (step oneModule) (start firstMessage) echoEvents = some s ∧
    s.sent.length = 2 ∧ s.sent.length ≤ ∑ i ∈ Finset.range ((1 : UInt32).toNat + 1), 1 ^ i := by
  have hrun : (run (step oneModule) (start firstMessage) echoEvents).map
      (fun s => s.sent.length) = some 2 := by decide +kernel
  obtain ⟨s, hs, hlen⟩ := Option.map_eq_some_iff.mp hrun
  have hm : ∀ type_ ms, oneModule type_ = some ms → ms.length ≤ 1 := by
    intro type_ ms h
    unfold oneModule at h
    split at h <;> cases h
    rfl
  exact ⟨s, hs, hlen, (cascade_bound (le_refl 1) hm rfl hs).1⟩

end PlaidRuntime.LogbackCascade
