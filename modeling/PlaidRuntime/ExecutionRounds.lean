import PlaidRuntime.WebhookServer

/-!
# Every message once, by every module of its channel

The queues hand out messages in the order in which they were sent, and what an execution thread
does is a sequence of rounds: it takes a message and runs the modules for it, one after the other.
-/
namespace PlaidRuntime.ExecutionRounds
open EffectProgram LockMonitor RelyGuarantee ThreadPools WebhookHandlers WebhookServer
open LogbackMessage hiding Env

variable {T : Type}

section queues

def sentTo (pool : Pool) (history : List (T × Event)) : List Queued :=
  history.filterMap fun e =>
    match e.2 with
    | .sent p q => if p = pool then some q else none
    | _ => none

def takenFrom (pool : Pool) (history : List (T × Event)) : List Queued :=
  history.filterMap fun e =>
    match e.2 with
    | .took p q => if p = pool then some q else none
    | _ => none

theorem mem_sentTo {pool : Pool} {history : List (T × Event)} {q : Queued} :
    q ∈ sentTo pool history ↔ ∃ t, (t, .sent pool q) ∈ history := by
  simp only [sentTo, List.mem_filterMap]
  constructor
  · intro h
    obtain ⟨⟨t, event⟩, hmem, hq⟩ := h
    cases event with
    | sent p q' =>
      simp only [Option.ite_none_right_eq_some, Option.some.injEq] at hq
      obtain ⟨rfl, rfl⟩ := hq
      exact ⟨t, hmem⟩
    | _ => cases hq
  · intro h
    obtain ⟨t, hmem⟩ := h
    exact ⟨_, hmem, by simp⟩

theorem mem_takenFrom {pool : Pool} {history : List (T × Event)} {q : Queued} :
    q ∈ takenFrom pool history ↔ ∃ t, (t, .took pool q) ∈ history := by
  simp only [takenFrom, List.mem_filterMap]
  constructor
  · intro h
    obtain ⟨⟨t, event⟩, hmem, hq⟩ := h
    cases event with
    | took p q' =>
      simp only [Option.ite_none_right_eq_some, Option.some.injEq] at hq
      obtain ⟨rfl, rfl⟩ := hq
      exact ⟨t, hmem⟩
    | _ => cases hq
  · intro h
    obtain ⟨t, hmem⟩ := h
    exact ⟨_, hmem, by simp⟩

/-- What was sent is what was taken, then what is in the queue. -/
def InOrder (s : Server T) : Prop :=
  ∀ pool, sentTo pool s.history = takenFrom pool s.history ++ s.queues pool

/-- Whatever is taken was sent. -/
theorem InOrder.sent_of_took {s : Server T} (h : InOrder s) {t : T} {pool : Pool} {q : Queued}
    (ht : (t, .took pool q) ∈ s.history) : ∃ u, (u, .sent pool q) ∈ s.history := by
  rw [← mem_sentTo, h pool]
  exact List.mem_append_left _ (mem_takenFrom.mpr ⟨t, ht⟩)

theorem InOrder.congr {s s' : Server T} (h : InOrder s) (hhistory : s'.history = s.history)
    (hqueues : s'.queues = s.queues) : InOrder s' := by
  intro pool
  rw [hhistory, hqueues]
  exact h pool

/-- An event that is neither a sending nor a receiving. -/
theorem InOrder.record {s s' : Server T} (h : InOrder s) {t : T} {e : Event}
    (hhistory : s'.history = s.history ++ [(t, e)]) (hqueues : s'.queues = s.queues)
    (hsent : ∀ pool q, e ≠ .sent pool q) (htook : ∀ pool q, e ≠ .took pool q) : InOrder s' := by
  intro pool
  have hs : sentTo pool [(t, e)] = [] := by
    cases e <;> first | rfl | exact absurd rfl (hsent _ _)
  have ht : takenFrom pool [(t, e)] = [] := by
    cases e <;> first | rfl | exact absurd rfl (htook _ _)
  rw [hhistory, hqueues, sentTo, takenFrom, List.filterMap_append, List.filterMap_append,
    ← sentTo, ← takenFrom, ← sentTo, ← takenFrom, hs, ht, List.append_nil, List.append_nil]
  exact h pool

theorem InOrder.enqueue {s : Server T} (h : InOrder s) (t : T) (pool : Pool) (q : Queued) :
    InOrder (s.enqueue t pool q) := by
  intro p
  have hp := h p
  simp only [sentTo, takenFrom] at hp
  simp only [Server.enqueue, record_history, sentTo, takenFrom, List.filterMap_append, hp]
  by_cases hpool : pool = p
  · subst hpool
    simp [Server.record]
  · simp [Server.record, hpool, Function.update_of_ne (Ne.symm hpool)]

theorem InOrder.dequeue {s : Server T} (h : InOrder s) (t : T) {pool : Pool} {q : Queued}
    {queue : List Queued} (hq : s.queues pool = q :: queue) :
    InOrder (s.dequeue t pool q queue) := by
  intro p
  have hp := h p
  simp only [sentTo, takenFrom] at hp
  simp only [Server.dequeue, record_history, sentTo, takenFrom, List.filterMap_append, hp]
  by_cases hpool : pool = p
  · subst hpool
    simp [Server.record, hq]
  · simp [Server.record, hpool, Function.update_of_ne (Ne.symm hpool)]

theorem InOrder.reply [DecidableEq T] {t : T} {s s' : Server T} {e : Request} {l : Label} {r : e.Reply}
    (h : InOrder s) (hr : reply t s e l = some (r, s')) : InOrder s' := by
  cases e with
  | now => exact reply_now hr ▸ h
  | readCache webhook => exact (reply_readCache hr).2 ▸ h
  | writeCache webhook stamp body =>
    rw [reply_writeCache hr]
    exact h.record rfl rfl nofun nofun
  | getPersistentResponseData module => exact (reply_getPersistentResponseData hr).2 ▸ h
  | channel => exact (reply_channel hr).2 ▸ h.congr rfl rfl
  | readBody maxSize => exact (reply_readBody hr).2 ▸ h
  | newId => exact reply_newId hr ▸ h
  | trySend pool q =>
    obtain ⟨-, rfl⟩ | ⟨-, rfl⟩ := reply_trySend hr
    · exact h.enqueue t pool q
    · exact h.congr (setSender_history _ _ _) (setSender_queues _ _ _)
  | receive channel => exact (reply_receive hr).1 ▸ h
  | recv pool =>
    obtain ⟨-, ⟨q, queue, hq, -, rfl⟩ | ⟨-, rfl⟩⟩ := reply_recv hr
    · exact h.dequeue t hq
    · exact h
  | execute module message response =>
    rw [reply_execute hr]
    exact h.record rfl rfl nofun nofun
  | log entry => exact reply_log hr ▸ h
  | updatePersistentResponse module response sender =>
    have hs : s' = (s.update t module response sender).2 := by rw [reply_update hr]
    subst hs
    obtain hsame | ⟨r, -, hstored⟩ := update_history t s sender module response
    · exact h.congr hsame (update_frame t s sender module response).1
    · exact h.record hstored (update_frame t s sender module response).1 nofun nofun
  | drop sender => exact reply_drop hr ▸ h.congr (setSender_history _ _ _) (setSender_queues _ _ _)
  | exit => exact reply_exit hr ▸ h.congr rfl rfl

end queues

section rounds
variable [DecidableEq T] (cfg : Config)

/-- What a thread took and ran. -/
def workOf (t : T) (history : List (T × Event)) : List Event :=
  (history.filter fun e => e.1 = t ∧ e.2.isWork).map Prod.snd

/-- The module of the message, or those of the channel of its type. -/
def modulesFor (q : Queued) : List PlaidModule :=
  match q.message.module, cfg.channels.lookup q.message.type_ with
  | some module, _ => [module]
  | none, some modules => modules
  | none, none => []

def runOf (q : Queued) (module : PlaidModule) : Event := .ran module.name q.message.createDuplicate

def round (taken : Pool × Queued) : List Event :=
  .took taken.1 taken.2 :: (modulesFor cfg taken.2).map (runOf taken.2)

/-- Whole rounds only. -/
def Worked (work : List Event) : Prop := ∃ done, work = List.flatMap (round cfg) done

/-- Whole rounds, and the beginning of one more. -/
def Working (work : List Event) : Prop :=
  ∃ done rest, work = List.flatMap (round cfg) done ++ rest ∧
    (rest = [] ∨ ∃ taken, rest <+: round cfg taken)

variable {cfg}

omit [DecidableEq T] in
theorem Worked.working {work : List Event} (h : Worked cfg work) : Working cfg work := by
  obtain ⟨done, rfl⟩ := h
  exact ⟨done, [], (List.append_nil _).symm, .inl rfl⟩

/-- A round that has begun. -/
theorem Worked.begun {work : List Event} (h : Worked cfg work) (taken : Pool × Queued)
    {modules : List PlaidModule} (hm : modules <+: modulesFor cfg taken.2) :
    Working cfg (work ++ .took taken.1 taken.2 :: modules.map (runOf taken.2)) := by
  obtain ⟨done, rfl⟩ := h
  obtain ⟨rest, hrest⟩ := hm
  refine ⟨done, _, rfl, .inr ⟨taken, rest.map (runOf taken.2), ?_⟩⟩
  rw [round, ← hrest, List.map_append, List.cons_append]

theorem Worked.round {work : List Event} (h : Worked cfg work) (taken : Pool × Queued) :
    Worked cfg (work ++ round cfg taken) := by
  obtain ⟨done, rfl⟩ := h
  exact ⟨done ++ [taken], by rw [List.flatMap_append, List.flatMap_singleton]⟩

theorem workOf_append (t : T) (history more : List (T × Event)) :
    workOf t (history ++ more) = workOf t history ++ workOf t more := by
  simp [workOf]

theorem workOf_other {t u : T} (h : u ≠ t) (e : Event) : workOf u [(t, e)] = [] := by
  simp [workOf, Ne.symm h]

theorem workOf_idle {t u : T} {e : Event} (h : e.isWork = false) : workOf u [(t, e)] = [] := by
  simp [workOf, h]

theorem workOf_own {t : T} {e : Event} (h : e.isWork = true) : workOf t [(t, e)] = [e] := by
  simp [workOf, h]

/-- The requests that are no part of a round. -/
def Quiet : Request → Prop
  | .recv _ | .execute _ _ _ | .exit => False
  | _ => True

theorem Quiet.idle {e : Request} {event : Event} (h : Quiet e) (hn : Noted e event) :
    event.isWork = false := by
  cases e <;> cases event <;> first | rfl | exact h.elim | exact hn.elim

theorem reply_exited {t u : T} {s s' : Server T} {e : Request} {l : Label} {r : e.Reply}
    (h : reply t s e l = some (r, s')) (hu : u ≠ t ∨ Quiet e) : s'.exited u = s.exited u := by
  cases e with
  | now => rw [reply_now h]
  | readCache webhook => rw [(reply_readCache h).2]
  | writeCache webhook stamp body => rw [reply_writeCache h]; rfl
  | getPersistentResponseData module => rw [(reply_getPersistentResponseData h).2]
  | channel => rw [(reply_channel h).2]; rfl
  | readBody maxSize => rw [(reply_readBody h).2]
  | newId => rw [reply_newId h]
  | trySend pool q =>
    obtain ⟨-, rfl⟩ | ⟨-, rfl⟩ := reply_trySend h
    · rfl
    · exact congrFun (setSender_exited _ _ _) u
  | receive channel => rw [(reply_receive h).1]
  | recv pool =>
    obtain ⟨-, ⟨q, queue, -, -, rfl⟩ | ⟨-, rfl⟩⟩ := reply_recv h <;> rfl
  | execute module message response => rw [reply_execute h]; rfl
  | log entry => rw [reply_log h]
  | updatePersistentResponse module response sender =>
    have hs : s' = (s.update t module response sender).2 := by rw [reply_update h]
    rw [hs, (update_frame t s sender module response).2.2]
  | drop sender => rw [reply_drop h]; exact congrFun (setSender_exited _ _ _) u
  | exit =>
    obtain hu | hu := hu
    · rw [reply_exit h]
      exact Function.update_of_ne hu _ _
    · exact hu.elim

/-- Nothing that a thread does alone, or another thread does at all, is work of it. -/
theorem reply_workOf {t u : T} {s s' : Server T} {e : Request} {l : Label} {r : e.Reply}
    (h : reply t s e l = some (r, s')) (hu : u ≠ t ∨ Quiet e) :
    workOf u s'.history = workOf u s.history := by
  obtain hsame | ⟨event, hnew, hnoted⟩ := reply_history h
  · rw [hsame]
  · rw [hnew, workOf_append]
    obtain hu | hu := hu
    · rw [workOf_other hu, List.append_nil]
    · rw [workOf_idle (hu.idle hnoted), List.append_nil]

variable (cfg) in
/-- Between its rounds a thread has done whole rounds, and in a round it has begun one more. -/
def accounting : Contract (system (T := T) cfg) where
  Inv _ := True
  Rely t s s' := workOf t s'.history = workOf t s.history ∧ s'.exited t = s.exited t
  Ready t s := Working cfg (workOf t s.history) ∧
    (s.exited t = false → Worked cfg (workOf t s.history))
  At t _ s := Working cfg (workOf t s.history)
  Ends t _ _ _ s := Working cfg (workOf t s.history) ∧
    (s.exited t = false → Worked cfg (workOf t s.history))
  rely_refl _ _ := ⟨rfl, rfl⟩
  rely_trans _ _ _ _ h h' := ⟨h'.1.trans h.1, h'.2.trans h.2⟩
  ready_stable _ _ _ h hs := by rwa [h.1, h.2]
  at_stable _ _ _ _ h hs := by rwa [h.1]
  ends_stable _ _ _ _ _ _ h hs := by rwa [h.1, h.2]
  ends_ready _ _ _ _ _ h := h

section safe
variable {α : Type} {t : T} {Q : α → Notes → Server T → Prop} {p : Program α} {g : Notes}
  {s : Server T} {work : List Event}

theorem safe_request {e : Request} {next : e.Reply → Program α}
    (hwork : Working cfg (workOf t s.history))
    (h : ∀ s₁ l r s₂, workOf t s₁.history = workOf t s.history → s₁.exited t = s.exited t →
      reply t s₁ e l = some (r, s₂) → (accounting cfg).Safe t Q (next r) (note g e r) s₂) :
    (accounting cfg).Safe t Q (.request e next) g s := by
  refine ⟨hwork, fun s₁ l r s₂ hrely _ hreply => ⟨trivial, fun u hu => ?_, ?_⟩⟩
  · exact ⟨reply_workOf hreply (.inl hu), reply_exited hreply (.inl hu)⟩
  · exact h s₁ l r s₂ hrely.1 hrely.2 hreply

/-- A program without a round in it. -/
theorem quiet_safe (hp : p.Uses Quiet) (hwork : Working cfg (workOf t s.history))
    (hQ : ∀ a g s', workOf t s'.history = workOf t s.history → s'.exited t = s.exited t → Q a g s') :
    (accounting cfg).Safe t Q p g s := by
  induction p generalizing g s with
  | done a => exact hQ a g s rfl rfl
  | request e next ih =>
    refine safe_request hwork fun s₁ l r s₂ hw hx hreply => ?_
    have hw₂ := (reply_workOf hreply (.inr hp.1)).trans hw
    have hx₂ := (reply_exited hreply (.inr hp.1)).trans hx
    refine ih r (hp.2 r) (hw₂ ▸ hwork) fun a g s' hw' hx' => ?_
    exact hQ a g s' (hw'.trans hw₂) (hx'.trans hx₂)

theorem quiet_of_concludes {name : String} {sender : Option ℕ} {e : Request}
    (h : Concludes name sender e) : Quiet e := by
  cases e <;> first | exact trivial | exact h

theorem quiet_of_forwards {e : Request} (h : Forwards e) : Quiet e := by
  cases e <;> first | exact trivial | exact h

theorem process_safe {message : Message} {sender : Option ℕ} {module : PlaidModule}
    (hw : workOf t s.history = work) (hx : s.exited t = false) (hwork : Working cfg work)
    (hran : Working cfg (work ++ [.ran module.name message.createDuplicate])) :
    (accounting cfg).Safe t
      (fun _ _ s' => workOf t s'.history = work ++ [.ran module.name message.createDuplicate] ∧
        s'.exited t = false)
      (processMessageWithModule cfg message sender module) g s := by
  refine safe_request (hw ▸ hwork) fun s₁ l persistentResponse s₂ hw₁ hx₁ hreply => ?_
  have hw₂ := (reply_workOf hreply (.inr trivial)).trans (hw₁.trans hw)
  have hx₂ := (reply_exited hreply (.inr trivial)).trans (hx₁.trans hx)
  refine safe_request (hw₂ ▸ hwork) fun s₃ l x s₄ hw₃ hx₃ hexecute => ?_
  have hw₄ : workOf t s₄.history = work ++ [.ran module.name message.createDuplicate] := by
    rw [reply_execute hexecute, record_history, workOf_append, workOf_own rfl, hw₃, hw₂]
  have hx₄ : s₄.exited t = false := by
    rw [reply_execute hexecute]
    exact hx₃.trans hx₂
  have hquiet : (concludeExecution cfg message sender module persistentResponse x).Uses Quiet :=
    (uses_concludeExecution _ _ _ _ _).mono fun _ => quiet_of_concludes
  exact quiet_safe hquiet (hw₄ ▸ hran)
    fun _ _ s' hw' hx' => ⟨hw'.trans hw₄, hx'.trans hx₄⟩

/-- What the modules have run so far is a beginning of the round. -/
theorem processWith_safe (taken : Pool × Queued) {before modules : List PlaidModule}
    (hmodules : modulesFor cfg taken.2 = before ++ modules) (hdone : Worked cfg work)
    (hw : workOf t s.history =
      work ++ .took taken.1 taken.2 :: before.map (runOf taken.2)) (hx : s.exited t = false) :
    (accounting cfg).Safe t
      (fun r _ s' => s'.exited t = false ∧ ∃ ran, ran <+: modulesFor cfg taken.2 ∧
        (r = .ok () → ran = modulesFor cfg taken.2) ∧
        workOf t s'.history = work ++ .took taken.1 taken.2 :: ran.map (runOf taken.2))
      (processWithModules cfg taken.2.message modules) g s := by
  induction modules generalizing before g s with
  | nil =>
    rw [List.append_nil] at hmodules
    exact ⟨hx, before, hmodules ▸ List.prefix_refl _, fun _ => hmodules.symm, hw⟩
  | cons module modules ih =>
    have hnext : modulesFor cfg taken.2 = (before ++ [module]) ++ modules := by
      rw [hmodules, List.append_assoc, List.singleton_append]
    have hran : work ++ .took taken.1 taken.2 :: before.map (runOf taken.2) ++
        [.ran module.name taken.2.message.createDuplicate.createDuplicate] =
        work ++ .took taken.1 taken.2 :: (before ++ [module]).map (runOf taken.2) := by
      rw [List.map_append, List.append_assoc, List.cons_append]
      rfl
    have hbegun := hdone.begun taken ⟨_, hmodules.symm⟩
    have hbegun' := hdone.begun taken ⟨_, hnext.symm⟩
    refine Contract.Safe.bind (Contract.Safe.mono
      (process_safe hw hx hbegun (hran ▸ hbegun')) fun r g s' hs => ?_)
    cases r with
    | ok u => exact ih hnext (hs.1.trans hran) hs.2
    | error e => exact ⟨hs.2, before ++ [module], ⟨_, hnext.symm⟩, nofun, hs.1.trans hran⟩

/-- After a round the thread goes on, or the round was cut short. -/
def RoundEnds (cfg : Config) (t : T) (r : Option (Except ResponseAnswer.ExecutorError Unit))
    (s : Server T) : Prop :=
  match r with
  | none => s.exited t = false ∧ Worked cfg (workOf t s.history)
  | some _ => Working cfg (workOf t s.history)

theorem runMessage_safe (pool : Pool) {q : Queued} (hdone : Worked cfg work)
    (hw : workOf t s.history = work ++ [.took pool q]) (hx : s.exited t = false) :
    (accounting cfg).Safe t (fun r _ s' => RoundEnds cfg t r s') (runMessage cfg q) g s := by
  have hround := hdone.round (pool, q)
  have hbegun : ∀ modules, modules <+: modulesFor cfg q → Working cfg
      (work ++ .took pool q :: modules.map (runOf q)) :=
    fun modules hm => hdone.begun (pool, q) hm
  have htook : Working cfg (work ++ [.took pool q]) := hbegun [] List.nil_prefix
  have hdrop : (Prog.perform (Request.drop q.responseSender) : Program Unit).Uses Quiet :=
    Prog.uses_perform trivial
  unfold runMessage
  split
  · rename_i module hmodule
    have hmodules : modulesFor cfg q = [module] := by simp [modulesFor, hmodule]
    have hran : Working cfg (work ++ [.took pool q] ++
        [.ran module.name q.message.createDuplicate]) := by
      have hone := hbegun [module] (hmodules ▸ List.prefix_refl _)
      rwa [List.append_assoc]
    refine Contract.Safe.bind (Contract.Safe.mono (process_safe hw hx htook hran) ?_)
    intro r g s' hs
    have hwhole : workOf t s'.history = work ++ round cfg (pool, q) := by
      rw [hs.1, List.append_assoc, round, hmodules]
      rfl
    cases r with
    | ok u => exact ⟨hs.2, hwhole ▸ hround⟩
    | error e => exact (show Working cfg _ from hwhole ▸ hround.working)
  · rename_i modules hmodule hlookup
    have hmodules : modulesFor cfg q = [] ++ modules := by simp [modulesFor, hmodule, hlookup]
    refine Contract.Safe.bind (Contract.Safe.mono (processWith_safe (pool, q) hmodules hdone hw hx) ?_)
    intro r g s' hs
    obtain ⟨hx', ran, hprefix, hcomplete, hran⟩ := hs
    have hpart := hbegun ran hprefix
    refine Contract.Safe.bind (quiet_safe hdrop (hran ▸ hpart) fun _ g s'' hw'' hx'' => ?_)
    cases r with
    | ok u =>
      refine ⟨hx''.trans hx', ?_⟩
      rw [hw'', hran, hcomplete rfl]
      exact hround
    | error e =>
      refine (show Working cfg _ from ?_)
      rw [hw'', hran]
      exact hpart
  · rename_i hmodule hlookup
    have hmodules : modulesFor cfg q = [] := by simp [modulesFor, hmodule, hlookup]
    refine Contract.Safe.bind (quiet_safe hdrop (hw ▸ htook) fun _ g s' hw' hx' => ?_)
    refine ⟨hx'.trans hx, ?_⟩
    rw [hw', hw]
    have hempty : round cfg (pool, q) = [.took pool q] := by rw [round, hmodules]; rfl
    exact hempty ▸ hround

theorem round_safe {pool : Pool} (hready : (accounting cfg).Ready t s) :
    (accounting cfg).Safe t (fun r _ s' => RoundEnds cfg t r s') (executionRound cfg pool) g s := by
  refine safe_request hready.1 fun s₁ l r s₂ hw hx hreply => ?_
  obtain ⟨hexited, ⟨q, queue, -, rfl, rfl⟩ | ⟨rfl, rfl⟩⟩ := reply_recv hreply
  · refine runMessage_safe pool (hready.2 (hx ▸ hexited)) ?_ hexited
    rw [Server.dequeue, record_history, workOf_append, workOf_own rfl]
    exact congrArg (· ++ _) hw
  · exact (show Working cfg _ from hw ▸ hready.1)

theorem thread_safe {pool : Pool} (hready : (accounting cfg).Ready t s) :
    (accounting cfg).Safe t (fun _ _ s' => (accounting cfg).Ready t s')
      (executionThread cfg pool) g s := by
  refine Contract.Safe.bind (Contract.Safe.mono (round_safe hready) fun r g s' hr => ?_)
  cases r with
  | none => exact ⟨hr.2.working, fun _ => hr.2⟩
  | some result =>
    refine safe_request hr fun s₁ l u s₂ hw hx hreply => ?_
    rw [reply_exit hreply]
    refine ⟨(show Working cfg _ from hw ▸ hr), fun hfalse => ?_⟩
    simp at hfalse

theorem quiet_callRule (conf : WebhookConfig) (req : GetRequest) (name : String)
    (rule : PlaidModule) (update : Bool) : (callRule conf req name rule update).Uses Quiet := by
  refine ⟨trivial, fun channel => ⟨trivial, fun body => ?_⟩⟩
  cases body with
  | error e => exact ⟨trivial, fun _ => trivial⟩
  | ok body =>
    refine ⟨trivial, fun id => ⟨trivial, fun tried => ?_⟩⟩
    have hreceive : ∀ r : Except Unit (Option ResponseAnswer.ResponseMessage),
        (servePage req.webhook update r).Uses Quiet := by
      intro r
      unfold servePage
      split
      · split
        · exact ⟨trivial, fun _ => ⟨trivial, fun _ => trivial⟩⟩
        · exact trivial
      · exact trivial
      · exact trivial
    match tried with
    | .error .disconnected => exact trivial
    | .error .full => exact ⟨trivial, hreceive⟩
    | .ok () => exact ⟨trivial, hreceive⟩

theorem quiet_getHandler (req : GetRequest) : (getHandler cfg req).Uses Quiet := by
  have hcache : ∀ (rule : PlaidModule) (currentTime : UInt64) (mode : CachingMode),
      (consultCache req.webhook rule currentTime mode).Uses Quiet := by
    intro rule currentTime mode
    cases mode with
    | none => exact trivial
    | timed validity =>
      refine Prog.Uses.bind (Prog.uses_perform trivial) fun cached => ?_
      cases cached with
      | none => exact trivial
      | some cached =>
        dsimp only
        split <;> exact trivial
    | usePersistentResponse callOnNone =>
      refine Prog.Uses.bind (Prog.uses_perform trivial) fun data => ?_
      cases data with
      | none =>
        dsimp only
        split <;> exact trivial
      | some data => exact trivial
  unfold getHandler
  split
  · exact trivial
  · split
    · exact trivial
    · exact trivial
    · split
      · exact trivial
      · refine Prog.Uses.bind (Prog.uses_perform trivial) fun currentTime => ?_
        refine Prog.Uses.bind (hcache _ _ _) fun decision => ?_
        cases decision with
        | page body => exact trivial
        | call update => exact quiet_callRule _ _ _ _ _
    · exact trivial

/-- Every call keeps the rounds of every thread in order. -/
theorem code_safe (c : Call) (hready : (accounting cfg).Ready t s) :
    (accounting cfg).Safe t ((accounting cfg).Ends t c) (code cfg c) g s := by
  have hquiet : ∀ {p : Program Outcome}, p.Uses Quiet →
      (accounting cfg).Safe t ((accounting cfg).Ends t c) p g s := by
    intro p hp
    exact quiet_safe hp hready.1 fun a g s' hw hx => by
      show Working cfg _ ∧ _
      rw [hw, hx]
      exact hready
  cases c with
  | get req => exact hquiet (quiet_getHandler req)
  | post req => exact hquiet ((uses_postHandler req).mono fun _ => quiet_of_forwards)
  | produce type_ data source logbacks =>
    exact hquiet ((uses_produce type_ data source logbacks).mono fun _ => quiet_of_forwards)
  | work pool => exact thread_safe hready

end safe

/-- Nothing has happened yet. -/
structure Booted (σ : Config Request Request.Reply (Server T) Call Outcome Notes T) : Prop where
  threads : ∀ t, σ.threads t = none
  queues : ∀ pool, σ.shared.queues pool = []
  history : σ.shared.history = []

/-- In every interleaving of GETs, POSTs, other producers and execution threads: a queue hands out
its messages in the order sent, each once; whatever a thread does is rounds, in each of which it
takes one message and runs it, in order and once each, on the modules that message is for; and a
thread that is idle and has not ended has left no round unfinished. -/
theorem rounds_in_order {σ τ : Config Request Request.Reply (Server T) Call Outcome Notes T}
    {as : List (Action Label Call T)} (hb : Booted σ) (hr : (system cfg).run σ as = some τ) :
    (∀ pool, sentTo pool τ.shared.history =
      takenFrom pool τ.shared.history ++ τ.shared.queues pool) ∧
    ∀ t, Working cfg (workOf t τ.shared.history) ∧
      (Idle (τ.threads t) = true → τ.shared.exited t = false →
        Worked cfg (workOf t τ.shared.history)) := by
  have horder : InOrder τ.shared := by
    have hbooted : InOrder σ.shared := by
      intro pool
      rw [hb.history, hb.queues]
      rfl
    exact shared_invariant (J := InOrder) (fun _ _ _ _ _ _ h hreply => h.reply hreply) hbooted hr
  have hstart : (accounting cfg).Good σ := by
    refine ⟨trivial, fun t => ?_⟩
    rw [hb.threads]
    have hnone : Worked cfg (workOf t σ.shared.history) := ⟨[], by rw [hb.history]; rfl⟩
    exact ⟨hnone.working, fun _ => hnone⟩
  have hgood := Contract.good_run (fun t c s _ hready => code_safe c hready) hstart hr
  refine ⟨horder, fun t => ⟨?_, fun hidle => ?_⟩⟩
  · cases ht : τ.threads t with
    | none =>
      have hready := (hgood.holds t).ready (by rw [ht]; rfl)
      exact hready.1
    | some th =>
      obtain ⟨c, rest, g⟩ := th
      cases rest with
      | done a => exact (hgood.ends ht).1
      | request e next => exact hgood.stands ht
  · exact ((hgood.holds t).ready hidle).2

end rounds
section instances

theorem ping_booted : Booted pingServer := ⟨fun _ => rfl, fun _ => rfl, rfl⟩

theorem rounds_in_order_sample : ∃ τ, (system pingConfig).run pingServer pingWaits = some τ ∧
    (∀ pool, sentTo pool τ.shared.history =
      takenFrom pool τ.shared.history ++ τ.shared.queues pool) ∧
    ∀ t, Working pingConfig (workOf t τ.shared.history) ∧
      (Idle (τ.threads t) = true → τ.shared.exited t = false →
        Worked pingConfig (workOf t τ.shared.history)) := by
  have hsome : ((system pingConfig).run pingServer pingWaits).isSome = true := by decide +kernel
  obtain ⟨τ, hτ⟩ := Option.isSome_iff_exists.mp hsome
  exact ⟨τ, hτ, rounds_in_order ping_booted hτ⟩

end instances

end PlaidRuntime.ExecutionRounds
