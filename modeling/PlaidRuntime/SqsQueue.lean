import PlaidRuntime.GuestMemory
import PlaidRuntime.RecencyCache
import PlaidRuntime.StepMachine

/-!
# Draining an SQS queue

The loop of `data/sqs/mod.rs`: batches are received until the queue is empty, a message is noted
by its id, sent to the executor and deleted from the queue. The queue may deliver any message any
number of times, and every request may fail.
-/
namespace PlaidRuntime.SqsQueue
open GuestMemory RecencyCache StepMachine

/-- One delivery of a message. The queue knows the message by `name`, its message id, which the
delivery need not show. -/
structure Delivery where
  name : String
  showsId : Bool
  receiptHandle : Option String
  deriving DecidableEq, Repr

def Delivery.messageId (d : Delivery) : Option String := if d.showsId then some d.name else none

inductive Event
  | handed (name : String) (logType : String) (payload : Bytes)
  | sendFailed (name : String)
  | deleted (name : String)
  deriving DecidableEq, Repr

/-- Where the generator stands: outside of `drain_queue`, before the next request, or inside a
batch. -/
inductive Phase
  | idle
  | receiving
  | consuming (d : Delivery) (rest : List Delivery)
  deriving DecidableEq, Repr

/-- `log` holds what has happened to the messages, newest first. -/
structure SQS where
  name : String
  seenMessages : Cache String
  phase : Phase
  log : List Event

inductive Label
  | drainQueue
  | receive (res : Except Unit (Option (List Delivery)))
  /-- The next message of the batch, with the outcomes of its send and its deletion. -/
  | message (sendOk deleteOk : Bool)

def SQS.new (name : String) : SQS := ⟨name, empty String 4096, .idle, []⟩

def SQS.nextOf (s : SQS) : List Delivery → SQS
  | [] => { s with phase := .receiving }
  | d :: rest => { s with phase := .consuming d rest }

/-- Without a receipt handle nothing is requested. -/
def Delivery.deletes (d : Delivery) (deleteOk : Bool) : Bool := d.receiptHandle.isSome && deleteOk

def SQS.deleteMessage (s : SQS) (d : Delivery) (deleteOk : Bool) : SQS :=
  if d.deletes deleteOk then { s with log := .deleted d.name :: s.log } else s

def SQS.sendForProcessing (s : SQS) (d : Delivery) (body : String) (sendOk : Bool) : SQS :=
  if sendOk then { s with log := .handed d.name s!"sqs/{s.name}" (asBytes body) :: s.log }
  else { s with log := .sendFailed d.name :: s.log }

/-- The bodies of the messages, by their names. -/
abbrev Bodies : Type := String → Option String

variable (bodies : Bodies)

/-- A failed send is reported, and the message deleted all the same. -/
def SQS.consume (s : SQS) (d : Delivery) (sendOk deleteOk : Bool) : SQS :=
  match bodies d.name with
  | some body => (s.sendForProcessing d body sendOk).deleteMessage d deleteOk
  | none => s

/-- One round of the loop over a batch. -/
def SQS.handle (s : SQS) (d : Delivery) (sendOk deleteOk : Bool) : SQS :=
  match d.messageId with
  | some id =>
    if s.seenMessages.contains id then s.deleteMessage d deleteOk
    else { s with seenMessages := s.seenMessages.put id }.consume bodies d sendOk deleteOk
  | none => s.consume bodies d sendOk deleteOk

def step (s : SQS) : Label → Option SQS
  | .drainQueue =>
    match s.phase with
    | .idle => some { s with phase := .receiving }
    | _ => none
  | .receive res =>
    match s.phase, res with
    | .receiving, .error _ => some { s with phase := .idle }
    | .receiving, .ok none => some { s with phase := .idle }
    | .receiving, .ok (some messages) => some (s.nextOf messages)
    | _, _ => none
  | .message sendOk deleteOk =>
    match s.phase with
    | .consuming d rest => some ((s.handle bodies d sendOk deleteOk).nextOf rest)
    | _ => none

def SQS.Handed (s : SQS) (name : String) : Prop := ∃ t p, Event.handed name t p ∈ s.log

def Event.hands (name : String) : Event → Bool
  | .handed n _ _ => n = name
  | _ => false

/-- How often the message was handed over. -/
def SQS.handings (s : SQS) (name : String) : ℕ := s.log.countP (Event.hands name)

/-- What a round must not do: hand a message over while its id is held, or leave a message that was
never handed over noted or deleted after its send failed. -/
def Orderly (s : SQS) : Label → Prop
  | .message sendOk deleteOk =>
    match s.phase with
    | .consuming d _ =>
      bodies d.name ≠ none → (d.showsId = true → d.name ∉ s.seenMessages.entries) →
        if sendOk then d.name ∉ s.seenMessages.entries
        else s.Handed d.name ∨ d.showsId = false ∧ d.deletes deleteOk = false
    | _ => True
  | _ => True

/-- Every message with a body that was deleted had been handed over before. -/
def HandedFirst : List Event → Prop
  | [] => True
  | .deleted name :: older =>
    (bodies name ≠ none → ∃ t p, Event.handed name t p ∈ older) ∧ HandedFirst older
  | _ :: older => HandedFirst older

/-- Deleted messages were handed over before; messages that were not are still in the queue, and
the next delivery hands them over when its send succeeds; and what a permitted round hands over is
not held by the cache. -/
structure Delivers (s : SQS) : Prop where
  handedFirst : HandedFirst bodies s.log
  retried : ∀ name, bodies name ≠ none → ¬ s.Handed name → Event.deleted name ∉ s.log ∧
    ∀ d : Delivery, d.name = name → ∀ deleteOk, (s.handle bodies d true deleteOk).Handed name
  notHeld : ∀ l t name, Orderly bodies s l → step bodies s l = some t →
    s.handings name < t.handings name → name ∉ s.seenMessages.entries

/-- Whatever the cache holds has been handed over. -/
structure Invariant (s : SQS) : Prop where
  handedFirst : HandedFirst bodies s.log
  seenHanded : ∀ name ∈ s.seenMessages.entries, bodies name ≠ none → s.Handed name

section runs
variable {bodies} {s t : SQS} {d : Delivery} {sendOk deleteOk : Bool} {name : String}

theorem HandedFirst.mem {log : List Event} (h : HandedFirst bodies log)
    (hd : Event.deleted name ∈ log) (hb : bodies name ≠ none) :
    ∃ t p, Event.handed name t p ∈ log := by
  induction log with
  | nil => simp at hd
  | cons e older ih =>
    have hlift : (∃ t p, Event.handed name t p ∈ older) → ∃ t p, Event.handed name t p ∈ e :: older :=
      fun ⟨t, p, hmem⟩ => ⟨t, p, List.mem_cons_of_mem e hmem⟩
    cases e with
    | deleted n =>
      rcases List.mem_cons.mp hd with heq | hd
      · cases heq
        exact hlift (h.1 hb)
      · exact hlift (ih h.2 hd)
    | handed n t p => exact hlift (ih h (by simpa using hd))
    | sendFailed n => exact hlift (ih h (by simpa using hd))

@[simp] theorem nextOf_log (s : SQS) (rest : List Delivery) : (s.nextOf rest).log = s.log := by
  cases rest <;> rfl

@[simp] theorem nextOf_seen (s : SQS) (rest : List Delivery) :
    (s.nextOf rest).seenMessages = s.seenMessages := by
  cases rest <;> rfl

@[simp] theorem deleteMessage_seen (s : SQS) (d : Delivery) (deleteOk : Bool) :
    (s.deleteMessage d deleteOk).seenMessages = s.seenMessages := by
  unfold SQS.deleteMessage
  split_ifs <;> rfl

@[simp] theorem sendForProcessing_seen (s : SQS) (d : Delivery) (body : String) (sendOk : Bool) :
    (s.sendForProcessing d body sendOk).seenMessages = s.seenMessages := by
  unfold SQS.sendForProcessing
  split_ifs <;> rfl

@[simp] theorem consume_seen (s : SQS) (d : Delivery) (sendOk deleteOk : Bool) :
    (s.consume bodies d sendOk deleteOk).seenMessages = s.seenMessages := by
  unfold SQS.consume
  cases bodies d.name <;> simp

theorem handed_deleteMessage : (s.deleteMessage d deleteOk).Handed name ↔ s.Handed name := by
  unfold SQS.deleteMessage SQS.Handed
  split_ifs <;> simp

theorem handed_sendForProcessing {body : String} : (s.sendForProcessing d body sendOk).Handed name ↔
    sendOk = true ∧ name = d.name ∨ s.Handed name := by
  unfold SQS.sendForProcessing SQS.Handed
  cases sendOk with
  | false => simp
  | true =>
    simp only [if_true, List.mem_cons, Event.handed.injEq, true_and]
    constructor
    · intro h
      obtain ⟨t, p, ⟨hn, -⟩ | hmem⟩ := h
      · exact Or.inl hn
      · exact Or.inr ⟨t, p, hmem⟩
    · intro h
      rcases h with hn | ⟨t, p, hmem⟩
      · exact ⟨_, _, Or.inl ⟨hn, rfl, rfl⟩⟩
      · exact ⟨t, p, Or.inr hmem⟩

theorem handedFirst_deleteMessage (h : HandedFirst bodies s.log)
    (hd : d.deletes deleteOk = true → bodies d.name ≠ none → s.Handed d.name) :
    HandedFirst bodies (s.deleteMessage d deleteOk).log := by
  unfold SQS.deleteMessage
  split_ifs with hdeletes
  · exact ⟨hd hdeletes, h⟩
  · exact h

theorem handedFirst_sendForProcessing {body : String} (h : HandedFirst bodies s.log) :
    HandedFirst bodies (s.sendForProcessing d body sendOk).log := by
  unfold SQS.sendForProcessing
  split_ifs <;> exact h

/-- Noting an id, if the delivery shows one. -/
def SQS.noted (s : SQS) (d : Delivery) : SQS :=
  { s with seenMessages := if d.showsId then s.seenMessages.put d.name else s.seenMessages }

theorem mem_noted (h : name ∈ (s.noted d).seenMessages.entries) :
    d.showsId = true ∧ name = d.name ∨ name ∈ s.seenMessages.entries := by
  unfold SQS.noted at h
  cases hid : d.showsId with
  | false => exact Or.inr (by simpa [hid] using h)
  | true =>
    simp only [hid, if_true] at h
    rcases mem_put h with hname | hmem
    · exact Or.inl ⟨rfl, hname⟩
    · exact Or.inr hmem

/-- The delivery is not taken for a duplicate. -/
def Fresh (s : SQS) (d : Delivery) : Prop := d.showsId = true → d.name ∉ s.seenMessages.entries

theorem handle_duplicate (hid : d.showsId = true) (hseen : d.name ∈ s.seenMessages.entries) :
    s.handle bodies d sendOk deleteOk = s.deleteMessage d deleteOk := by
  have hc : s.seenMessages.contains d.name = true := by simpa using hseen
  simp [SQS.handle, Delivery.messageId, hid, hc]

theorem handle_fresh (hfresh : Fresh s d) :
    s.handle bodies d sendOk deleteOk = (s.noted d).consume bodies d sendOk deleteOk := by
  unfold SQS.handle Delivery.messageId SQS.noted
  cases hid : d.showsId with
  | false => rfl
  | true =>
    have hnot : ¬ s.seenMessages.contains d.name = true := by simpa using hfresh hid
    simp [hnot]

/-- The three ways a round can go. -/
theorem handle_cases (s : SQS) (d : Delivery) (sendOk deleteOk : Bool) :
    (d.showsId = true ∧ d.name ∈ s.seenMessages.entries ∧
      s.handle bodies d sendOk deleteOk = s.deleteMessage d deleteOk) ∨
    (Fresh s d ∧ bodies d.name = none ∧ s.handle bodies d sendOk deleteOk = s.noted d) ∨
    (Fresh s d ∧ ∃ body, bodies d.name = some body ∧ s.handle bodies d sendOk deleteOk =
      ((s.noted d).sendForProcessing d body sendOk).deleteMessage d deleteOk) := by
  by_cases hfresh : Fresh s d
  · right
    rw [handle_fresh hfresh, SQS.consume]
    cases hbody : bodies d.name with
    | none => exact Or.inl ⟨hfresh, rfl, rfl⟩
    | some body => exact Or.inr ⟨hfresh, body, rfl, rfl⟩
  · left
    unfold Fresh at hfresh
    push Not at hfresh
    exact ⟨hfresh.1, hfresh.2, handle_duplicate hfresh.1 hfresh.2⟩

theorem step_cases {l : Label} (hs : step bodies s l = some t) :
    (t.log = s.log ∧ t.seenMessages = s.seenMessages) ∨
    ∃ sendOk deleteOk d rest, l = .message sendOk deleteOk ∧ s.phase = .consuming d rest ∧
      t.log = (s.handle bodies d sendOk deleteOk).log ∧
      t.seenMessages = (s.handle bodies d sendOk deleteOk).seenMessages := by
  cases l with
  | drainQueue =>
    cases hphase : s.phase <;> simp [step, hphase] at hs
    simp [← hs]
  | receive res =>
    cases hphase : s.phase <;> simp [step, hphase] at hs
    match res with
    | .error _ | .ok none | .ok (some _) =>
      simp only [Option.some.injEq] at hs
      simp [← hs]
  | message sendOk deleteOk =>
    cases hphase : s.phase <;> simp [step, hphase] at hs
    exact Or.inr ⟨sendOk, deleteOk, _, _, rfl, rfl, by simp [← hs], by simp [← hs]⟩

/-- After an orderly send the message has been handed over, or it is neither noted nor deleted. -/
theorem orderly_send {rest : List Delivery} {body : String} (hphase : s.phase = .consuming d rest)
    (hbody : bodies d.name = some body) (hfresh : Fresh s d)
    (ho : Orderly bodies s (.message sendOk deleteOk)) :
    ((s.noted d).sendForProcessing d body sendOk).Handed d.name ∨
      d.showsId = false ∧ d.deletes deleteOk = false := by
  rw [handed_sendForProcessing]
  simp only [Orderly, hphase] at ho
  have hdue := ho (by simp [hbody]) hfresh
  cases sendOk with
  | true => simp
  | false =>
    rcases hdue with hhanded | hleft
    · exact Or.inl (Or.inr hhanded)
    · exact Or.inr hleft

theorem Invariant.handle (h : Invariant bodies s) {rest : List Delivery}
    (hphase : s.phase = .consuming d rest)
    (ho : Orderly bodies s (.message sendOk deleteOk)) :
    Invariant bodies (s.handle bodies d sendOk deleteOk) := by
  rcases handle_cases s d sendOk deleteOk with
    ⟨-, hseen, heq⟩ | ⟨-, hbody, heq⟩ | ⟨hfresh, body, hbody, heq⟩
  · rw [heq]
    constructor
    case handedFirst =>
      exact handedFirst_deleteMessage h.handedFirst fun _ hb => h.seenHanded _ hseen hb
    case seenHanded =>
      intro name hmem hb
      rw [deleteMessage_seen] at hmem
      exact handed_deleteMessage.mpr (h.seenHanded name hmem hb)
  · rw [heq]
    refine ⟨h.handedFirst, fun name hmem hb => ?_⟩
    rcases mem_noted hmem with ⟨-, rfl⟩ | hmem
    · exact absurd hbody hb
    · exact h.seenHanded name hmem hb
  · have hkey := orderly_send hphase hbody hfresh ho
    have hlog : HandedFirst bodies (s.noted d).log := h.handedFirst
    rw [heq]
    constructor
    case handedFirst =>
      apply handedFirst_deleteMessage (handedFirst_sendForProcessing hlog)
      intro hdeletes _
      rcases hkey with hhanded | ⟨-, hkept⟩
      · exact hhanded
      · rw [hkept] at hdeletes
        cases hdeletes
    case seenHanded =>
      intro name hmem hb
      rw [handed_deleteMessage]
      rw [deleteMessage_seen, sendForProcessing_seen] at hmem
      rcases mem_noted hmem with ⟨hid, rfl⟩ | hmem
      · rcases hkey with hhanded | ⟨hnot, -⟩
        · exact hhanded
        · rw [hnot] at hid
          cases hid
      · exact handed_sendForProcessing.mpr (Or.inr (h.seenHanded name hmem hb))

theorem Invariant.congr (h : Invariant bodies s) (hlog : t.log = s.log)
    (hseen : t.seenMessages = s.seenMessages) : Invariant bodies t := by
  rcases t with ⟨n, seen, phase, log⟩
  simp only at hlog hseen
  subst hlog hseen
  exact ⟨h.handedFirst, h.seenHanded⟩

theorem Invariant.step {l : Label} (h : Invariant bodies s) (ho : Orderly bodies s l)
    (hs : step bodies s l = some t) : Invariant bodies t := by
  rcases step_cases hs with ⟨hlog, hseen⟩ | ⟨sendOk, deleteOk, d, rest, rfl, hphase, hlog, hseen⟩
  · exact h.congr hlog hseen
  · exact (h.handle hphase ho).congr hlog hseen

theorem handings_deleteMessage :
    (s.deleteMessage d deleteOk).handings name = s.handings name := by
  unfold SQS.deleteMessage SQS.handings
  split_ifs <;> simp [Event.hands]

theorem handings_sendForProcessing {body : String}
    (h : s.handings name < (s.sendForProcessing d body sendOk).handings name) :
    sendOk = true ∧ name = d.name := by
  unfold SQS.sendForProcessing SQS.handings at h
  cases sendOk with
  | false => simp [Event.hands] at h
  | true =>
    by_cases hn : d.name = name
    · exact ⟨rfl, hn.symm⟩
    · simp [Event.hands, hn] at h

/-- A round that hands a message over sends it, and does not take it for a duplicate. -/
theorem handings_handle
    (h : s.handings name < (s.handle bodies d sendOk deleteOk).handings name) :
    Fresh s d ∧ bodies d.name ≠ none ∧ sendOk = true ∧ name = d.name := by
  rcases handle_cases s d sendOk deleteOk with ⟨-, -, heq⟩ | ⟨-, -, heq⟩ | ⟨hfresh, body, hbody, heq⟩
  · rw [heq, handings_deleteMessage] at h
    exact absurd h (lt_irrefl _)
  · rw [heq] at h
    exact absurd h (lt_irrefl _)
  · rw [heq, handings_deleteMessage] at h
    obtain ⟨hok, hname⟩ := handings_sendForProcessing (s := s.noted d) h
    exact ⟨hfresh, by simp [hbody], hok, hname⟩

theorem notHeld_step {l : Label} (ho : Orderly bodies s l) (hs : step bodies s l = some t)
    (hhands : s.handings name < t.handings name) : name ∉ s.seenMessages.entries := by
  rcases step_cases hs with ⟨hlog, -⟩ | ⟨sendOk, deleteOk, d, rest, rfl, hphase, hlog, -⟩
  · unfold SQS.handings at hhands
    rw [hlog] at hhands
    exact absurd hhands (lt_irrefl _)
  · have hmore : s.handings name < (s.handle bodies d sendOk deleteOk).handings name := by
      unfold SQS.handings at hhands ⊢
      rwa [← hlog]
    obtain ⟨hfresh, hbody, rfl, rfl⟩ := handings_handle hmore
    simp only [Orderly, hphase] at ho
    exact ho hbody hfresh

theorem Invariant.delivers (h : Invariant bodies s) : Delivers bodies s := by
  constructor
  case handedFirst => exact h.handedFirst
  case retried =>
    intro name hb hnot
    refine ⟨fun hd => hnot (h.handedFirst.mem hd hb), ?_⟩
    intro d hname deleteOk
    subst hname
    obtain ⟨body, hbody⟩ := Option.ne_none_iff_exists'.mp hb
    have hfresh : Fresh s d := fun _ hseen => hnot (h.seenHanded _ hseen hb)
    rw [handle_fresh hfresh]
    simp [SQS.consume, hbody, handed_deleteMessage, handed_sendForProcessing]
  case notHeld => exact fun l t name ho hs hhands => notHeld_step ho hs hhands

/-- In every run whose rounds are orderly, whatever is delivered and whatever else fails, no
message is lost, and none is handed over while the cache holds it. -/
theorem drain_queue_delivers {name : String} {ls : List Label}
    (ho : Along (step bodies) (Orderly bodies) (.new name) ls)
    (hr : run (step bodies) (.new name) ls = some s) : Delivers bodies s := by
  have hnew : Invariant bodies (.new name) := ⟨trivial, by simp [SQS.new, empty]⟩
  have hinv := run_invariant_along (J := Invariant bodies) (fun _ _ _ h ho hs => h.step ho hs) hnew
    ho hr
  exact hinv.delivers

end runs

section instances

def oneMessage : Bodies := fun _ => some "log"

def delivery : Delivery := ⟨"m", true, some "r"⟩

def deliveredTwice : List Label :=
  [.drainQueue, .receive (.ok (some [delivery, delivery])), .message true false, .message true true]

/-- A message whose first deletion fails is handed over once and deleted at its second delivery. -/
theorem delivered_twice_handed_once :
    ∃ s, run (step oneMessage) (.new "q") deliveredTwice = some s ∧ Delivers oneMessage s ∧
      s.log = [.deleted "m", .handed "m" "sqs/q" (asBytes "log")] := by
  have horderly : ∀ s : SQS, ∀ rest deleteOk, s.phase = .consuming delivery rest →
      Orderly oneMessage s (.message true deleteOk) := by
    intro s rest deleteOk hphase
    simp only [Orderly, hphase]
    exact fun _ hfresh => hfresh rfl
  have halong : Along (step oneMessage) (Orderly oneMessage) (.new "q") deliveredTwice := by
    refine ⟨trivial, fun _ h => ?_⟩
    cases h
    refine ⟨trivial, fun _ h => ?_⟩
    cases h
    refine ⟨horderly _ _ _ rfl, fun _ h => ?_⟩
    cases h
    exact ⟨horderly _ _ _ rfl, fun _ _ => trivial⟩
  obtain ⟨s, hrun, hlog⟩ : ∃ s, run (step oneMessage) (.new "q") deliveredTwice = some s ∧
      s.log = [.deleted "m", .handed "m" "sqs/q" (asBytes "log")] := ⟨_, rfl, by rfl⟩
  exact ⟨s, hrun, drain_queue_delivers halong hrun, hlog⟩

/-- The send fails and the message is deleted: it is lost. -/
theorem failed_send_loses_message :
    ¬ ∀ (bodies : Bodies) (name : String) (ls : List Label) (s : SQS),
      run (step bodies) (.new name) ls = some s → HandedFirst bodies s.log := by
  intro h
  have hlost := h oneMessage "q"
    [.drainQueue, .receive (.ok (some [delivery])), .message false true] _ rfl
  obtain ⟨t, p, hmem⟩ := hlost.1 (by simp [oneMessage])
  have hfailed : Event.handed "m" t p ∈ [Event.sendFailed "m"] := hmem
  simp at hfailed

end instances
end PlaidRuntime.SqsQueue
