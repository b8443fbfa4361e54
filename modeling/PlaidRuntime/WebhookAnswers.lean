import PlaidRuntime.ExecutionRounds

/-!
# What a GET is answered with

Every page that a GET of a webhook gets has an explanation, in every interleaving with other
requests and with the execution threads: it is configured, or the rule answered this very request,
or the rule has stored it, or it is still fresh in the cache.
-/
namespace PlaidRuntime.WebhookAnswers
open EffectProgram LockMonitor RelyGuarantee ThreadPools WebhookHandlers WebhookServer ExecutionRounds
open LogbackMessage hiding Env
open ResponseModes (ResponseMode)
open ResponseAnswer (ResponseSender ResponseMessage)

variable {T : Type}

abbrev History (T : Type) := List (T × Event)

section owners

def Owned (s : Server T) (channel : ℕ) (t : T) : Prop :=
  ∃ c, s.channels[channel]? = some c ∧ c.owner = t

variable {s : Server T} {channel : ℕ} {t u : T}

theorem Owned.unique (h : Owned s channel t) (h' : Owned s channel u) : t = u := by
  obtain ⟨c, hc, rfl⟩ := h
  obtain ⟨c', hc', rfl⟩ := h'
  rw [hc] at hc'
  cases hc'
  rfl

theorem Owned.setSender (h : Owned s channel t) (sender : Option ℕ) (state : ResponseSender) :
    Owned (s.setSender sender state) channel t := by
  obtain ⟨c, hc, rfl⟩ := h
  cases sender with
  | none => exact ⟨c, hc, rfl⟩
  | some n =>
    simp only [Owned, Server.setSender, List.getElem?_modify, hc]
    by_cases hn : n = channel
    · exact ⟨{ c with sender := state }, by simp [hn], rfl⟩
    · exact ⟨c, by simp [hn], rfl⟩

theorem Owned.openChannel (h : Owned s channel t) (u : T) : Owned (s.openChannel u) channel t := by
  obtain ⟨c, hc, rfl⟩ := h
  refine ⟨c, ?_, rfl⟩
  rw [Server.openChannel, List.getElem?_append_left (List.getElem?_eq_some_iff.mp hc).1]
  exact hc

theorem owned_openChannel (s : Server T) (t : T) : Owned (s.openChannel t) s.channels.length t :=
  ⟨⟨.waiting, t⟩, by simp [Server.openChannel], rfl⟩

/-- What is used or dropped is the sender in question and no other. -/
theorem senderOf_setSender (sender : Option ℕ) (state : ResponseSender) (n : ℕ) :
    (s.setSender sender state).senderOf (some n) = s.senderOf (some n) ∨
      sender = some n ∧ (s.setSender sender state).senderOf (some n) = state := by
  cases sender with
  | none => exact .inl rfl
  | some m =>
    simp only [Server.setSender, Server.senderOf, List.getElem?_modify]
    by_cases hm : m = n
    · subst hm
      cases hc : s.channels[m]? with
      | none => exact .inl (by simp)
      | some c => exact .inr ⟨rfl, by simp⟩
    · exact .inl (by simp [hm])

theorem senderOf_openChannel (n : ℕ) (r : Option ResponseMessage)
    (h : (s.openChannel t).senderOf (some n) = .sent r) : s.senderOf (some n) = .sent r := by
  simp only [Server.senderOf, Server.openChannel] at h ⊢
  rw [List.getElem?_append] at h
  split at h
  · exact h
  · rcases Nat.eq_zero_or_pos (n - s.channels.length) with hz | hpos
    · simp [hz] at h
    · have hnone : ([⟨.waiting, t⟩] : List (Channel T))[n - s.channels.length]? = none :=
        List.getElem?_eq_none hpos
      rw [hnone] at h
      cases h

/-- A dropped sender has sent nothing new. -/
theorem senderOf_dropSender (sender : Option ℕ) (n : ℕ) (r : Option ResponseMessage)
    (h : (s.dropSender sender).senderOf (some n) = .sent r) : s.senderOf (some n) = .sent r := by
  obtain hsame | ⟨rfl, hset⟩ := senderOf_setSender (s := s) sender (s.senderOf sender).drop n
  · exact hsame ▸ h
  · rw [Server.dropSender, hset] at h
    cases hs : s.senderOf (some n) <;> rw [hs] at h <;> simp_all [ResponseSender.drop]

end owners

variable (cfg : Config)

/-- The rule that a webhook is configured with, and how its pages are cached. -/
structure Ruled (webhook : String) (conf : WebhookConfig) (mode : CachingMode) (name : String)
    (rule : PlaidModule) : Prop where
  configured : cfg.webhooks.lookup webhook = some conf
  caching : conf.getMode = some ⟨mode, .rule name⟩
  loaded : cfg.modulesByName.lookup name = some rule

/-- The message of a GET was sent, and whoever took it stored `body` as the response of the rule
and sent it back. -/
structure RuleAnswered (rule : PlaidModule) (q : Queued) (body : String) (h : History T) : Prop where
  sent : ∃ t, (t, .sent none q) ∈ h
  answered : ∃ u channel, q.responseSender = some channel ∧ (u, .took none q) ∈ h ∧
    (u, .stored rule.name body (some channel)) ∈ h

/-- A GET of the webhook was answered with `body` by its rule. -/
def Answered (webhook body : String) (h : History T) : Prop :=
  ∃ conf mode name rule, Ruled cfg webhook conf mode name rule ∧
    ∃ req id data channel, req.webhook = webhook ∧
      RuleAnswered rule ⟨getMessage webhook conf name rule req id data, some channel⟩ body h

structure Sound (s : Server T) : Prop where
  order : InOrder s
  sent : ∀ t pool q channel, (t, .sent pool q) ∈ s.history → q.responseSender = some channel →
    pool = none ∧ Owned s channel t
  once : ∀ t u pool pool' q q' channel, (t, .sent pool q) ∈ s.history →
    (u, .sent pool' q') ∈ s.history → q.responseSender = some channel →
    q'.responseSender = some channel → q = q'
  answers : ∀ channel r, s.senderOf (some channel) = .sent (some r) →
    ∃ t module, (t, .stored module r.body (some channel)) ∈ s.history
  stored : ∀ t module r channel, (t, .stored module r (some channel)) ∈ s.history →
    ∃ pool q m, (t, .took pool q) ∈ s.history ∧ q.responseSender = some channel ∧
      q.message.module = some m ∧ m.name = module
  cache : ∀ webhook stamp body, s.cache webhook = some (stamp, body) →
    ∃ t, (t, .cached webhook stamp body) ∈ s.history
  cached : ∀ t webhook stamp body, (t, .cached webhook stamp body) ∈ s.history →
    Answered cfg webhook body s.history
  responses : ∀ module pr r, s.responses module = some pr → pr.data = some r →
    ∃ t sender, (t, .stored module r sender) ∈ s.history

/-- What a request takes for granted about the thread that makes it. -/
def Permitted (t : T) (s : Server T) : Request → Prop
  | .trySend pool q => ∀ channel, q.responseSender = some channel → pool = none ∧
      Owned s channel t ∧ ∀ pool q', (t, .sent pool q') ∈ s.history →
        q'.responseSender ≠ some channel
  | .writeCache webhook _ body => Answered cfg webhook body s.history
  | .updatePersistentResponse module _ sender => ∀ channel, sender = some channel →
      ∃ pool q m, (t, .took pool q) ∈ s.history ∧ q.responseSender = some channel ∧
        q.message.module = some m ∧ m.name = module
  | _ => True

variable {cfg}

theorem RuleAnswered.mono {rule : PlaidModule} {q : Queued} {body : String} {h h' : History T}
    (ha : RuleAnswered rule q body h) (hsub : h ⊆ h') : RuleAnswered rule q body h' := by
  obtain ⟨⟨t, hsent⟩, u, channel, hq, htook, hstored⟩ := ha
  exact ⟨⟨t, hsub hsent⟩, u, channel, hq, hsub htook, hsub hstored⟩

theorem Answered.mono {webhook body : String} {h h' : History T}
    (ha : Answered cfg webhook body h) (hsub : h ⊆ h') : Answered cfg webhook body h' := by
  obtain ⟨conf, mode, name, rule, hruled, req, id, data, channel, hreq, hanswered⟩ := ha
  exact ⟨conf, mode, name, rule, hruled, req, id, data, channel, hreq, hanswered.mono hsub⟩

section sound
variable {s s' : Server T}

/-- Nothing is noted, and no channel gets an answer. -/
theorem Sound.congr (h : Sound cfg s) (hhistory : s'.history = s.history)
    (hqueues : s'.queues = s.queues) (hcache : s'.cache = s.cache)
    (hresponses : ∀ m pr r, s'.responses m = some pr → pr.data = some r →
      ∃ pr', s.responses m = some pr' ∧ pr'.data = some r)
    (howned : ∀ n u, Owned s n u → Owned s' n u)
    (hanswers : ∀ n r, s'.senderOf (some n) = .sent (some r) → s.senderOf (some n) = .sent (some r)) :
    Sound cfg s' := by
  constructor
  case order => exact h.order.congr hhistory hqueues
  case sent =>
    intro t pool q n hq hn
    rw [hhistory] at hq
    exact ⟨(h.sent t pool q n hq hn).1, howned n t (h.sent t pool q n hq hn).2⟩
  case once =>
    rw [hhistory]
    exact h.once
  case answers =>
    intro n r hr
    rw [hhistory]
    exact h.answers n r (hanswers n r hr)
  case stored =>
    rw [hhistory]
    exact h.stored
  case cache =>
    rw [hhistory, hcache]
    exact h.cache
  case cached =>
    rw [hhistory]
    exact h.cached
  case responses =>
    intro m pr r hpr hr
    obtain ⟨pr', hpr', hr'⟩ := hresponses m pr r hpr hr
    rw [hhistory]
    exact h.responses m pr' r hpr' hr'

theorem mem_record {t u : T} {e event : Event} {history : History T}
    (h : (u, e) ∈ history ++ [(t, event)]) : (u, e) ∈ history ∨ u = t ∧ e = event := by
  rcases List.mem_append.mp h with h | h
  · exact .inl h
  · cases List.mem_singleton.mp h
    exact .inr ⟨rfl, rfl⟩

theorem subset_record {t : T} {event : Event} {history : History T} :
    history ⊆ history ++ [(t, event)] := List.subset_append_left _ _

/-- One more event. What it means for the parts of the state that the event is about is left to
the caller. -/
theorem Sound.record (h : Sound cfg s) (t : T) (event : Event)
    (hhistory : s'.history = s.history ++ [(t, event)]) (horder : InOrder s')
    (howned : ∀ n u, Owned s n u → Owned s' n u)
    (hsent : ∀ pool q n, event = .sent pool q → q.responseSender = some n → pool = none ∧
      Owned s' n t ∧ ∀ u pool' q', (u, .sent pool' q') ∈ s.history → q'.responseSender ≠ some n)
    (hanswers : ∀ n r, s'.senderOf (some n) = .sent (some r) →
      s.senderOf (some n) = .sent (some r) ∨ ∃ module, event = .stored module r.body (some n))
    (hstored : ∀ module r n, event = .stored module r (some n) →
      ∃ pool q m, (t, .took pool q) ∈ s.history ∧ q.responseSender = some n ∧
        q.message.module = some m ∧ m.name = module)
    (hcache : ∀ webhook stamp body, s'.cache webhook = some (stamp, body) →
      s.cache webhook = some (stamp, body) ∨ event = .cached webhook stamp body)
    (hcached : ∀ webhook stamp body, event = .cached webhook stamp body →
      Answered cfg webhook body s.history)
    (hresponses : ∀ module pr r, s'.responses module = some pr → pr.data = some r →
      (∃ pr', s.responses module = some pr' ∧ pr'.data = some r) ∨
        ∃ sender, event = .stored module r sender) : Sound cfg s' := by
  have hsub : s.history ⊆ s'.history := hhistory ▸ subset_record
  have hnew : (t, event) ∈ s'.history := by simp [hhistory]
  have hold : ∀ {u e}, (u, e) ∈ s'.history → (u, e) ∈ s.history ∨ u = t ∧ e = event :=
    fun he => mem_record (hhistory ▸ he)
  constructor
  case order => exact horder
  case sent =>
    intro u pool q n hq hn
    rcases hold hq with hq | ⟨rfl, hevent⟩
    · exact ⟨(h.sent u pool q n hq hn).1, howned n u (h.sent u pool q n hq hn).2⟩
    · exact ⟨(hsent pool q n hevent.symm hn).1, (hsent pool q n hevent.symm hn).2.1⟩
  case once =>
    intro u v pool pool' q q' n hq hq' hn hn'
    rcases hold hq with hq | ⟨rfl, hevent⟩
    · rcases hold hq' with hq' | ⟨rfl, hevent'⟩
      · exact h.once u v pool pool' q q' n hq hq' hn hn'
      · exact absurd hn ((hsent pool' q' n hevent'.symm hn').2.2 u pool q hq)
    · rcases hold hq' with hq' | ⟨rfl, hevent'⟩
      · exact absurd hn' ((hsent pool q n hevent.symm hn).2.2 v pool' q' hq')
      · have heq := hevent.trans hevent'.symm
        cases heq
        rfl
  case answers =>
    intro n r hr
    rcases hanswers n r hr with hr | ⟨module, hevent⟩
    · obtain ⟨u, module, hu⟩ := h.answers n r hr
      exact ⟨u, module, hsub hu⟩
    · exact ⟨t, module, hevent ▸ hnew⟩
  case stored =>
    intro u module r n hu
    rcases hold hu with hu | ⟨rfl, hevent⟩
    · obtain ⟨pool, q, m, hq, hrest⟩ := h.stored u module r n hu
      exact ⟨pool, q, m, hsub hq, hrest⟩
    · obtain ⟨pool, q, m, hq, hrest⟩ := hstored module r n hevent.symm
      exact ⟨pool, q, m, hsub hq, hrest⟩
  case cache =>
    intro webhook stamp body hc
    rcases hcache webhook stamp body hc with hc | hevent
    · obtain ⟨u, hu⟩ := h.cache webhook stamp body hc
      exact ⟨u, hsub hu⟩
    · exact ⟨t, hevent ▸ hnew⟩
  case cached =>
    intro u webhook stamp body hu
    rcases hold hu with hu | ⟨-, hevent⟩
    · exact (h.cached u webhook stamp body hu).mono hsub
    · exact (hcached webhook stamp body hevent.symm).mono hsub
  case responses =>
    intro module pr r hpr hr
    rcases hresponses module pr r hpr hr with ⟨pr', hpr', hr'⟩ | ⟨sender, hevent⟩
    · obtain ⟨u, sender, hu⟩ := h.responses module pr' r hpr' hr'
      exact ⟨u, sender, hsub hu⟩
    · exact ⟨t, sender, hevent ▸ hnew⟩

end sound

section update
variable (t : T) (s : Server T) (module : String) (response : Option String) (sender : Option ℕ)

/-- A sender that is dropped, or used for no answer, carries no new answer. -/
theorem sent_of_setSender {state : ResponseSender}
    (hstate : ∀ r, state = .sent (some r) → s.senderOf sender = .sent (some r)) (n : ℕ)
    (r : ResponseMessage) (h : (s.setSender sender state).senderOf (some n) = .sent (some r)) :
    s.senderOf (some n) = .sent (some r) := by
  obtain hsame | ⟨rfl, hset⟩ := senderOf_setSender (s := s) sender state n
  · exact hsame ▸ h
  · exact hstate r (hset ▸ h)

theorem drop_eq_sent {state : ResponseSender} {r : Option ResponseMessage}
    (h : state.drop = .sent r) : state = .sent r := by
  cases state <;> simp_all [ResponseSender.drop]

theorem send_none_eq_sent {state : ResponseSender} {r : ResponseMessage}
    (h : state.send none = .sent (some r)) : state = .sent (some r) := by
  cases state <;> simp_all [ResponseSender.send]

theorem send_eq_sent {state : ResponseSender} {r r' : ResponseMessage}
    (h : state.send (some r') = .sent (some r)) : state = .sent (some r) ∨ r = r' := by
  cases state <;> simp_all [ResponseSender.send]

/-- An update notes nothing and answers nothing, or it stores the response, notes it and answers
with it. -/
theorem update_cases :
    ((s.update t module response sender).2.history = s.history ∧
      (∀ n r, (s.update t module response sender).2.senderOf (some n) = .sent (some r) →
        s.senderOf (some n) = .sent (some r)) ∧
      ∀ m pr r, (s.update t module response sender).2.responses m = some pr → pr.data = some r →
        ∃ pr', s.responses m = some pr' ∧ pr'.data = some r) ∨
    ∃ stored, response = some stored ∧
      (s.update t module response sender).2.history =
        s.history ++ [(t, .stored module stored sender)] ∧
      (∀ n r, (s.update t module response sender).2.senderOf (some n) = .sent (some r) →
        s.senderOf (some n) = .sent (some r) ∨ sender = some n ∧ r.body = stored) ∧
      ∀ m pr r, (s.update t module response sender).2.responses m = some pr → pr.data = some r →
        (∃ pr', s.responses m = some pr' ∧ pr'.data = some r) ∨ m = module ∧ r = stored := by
  have hkept : ∀ m pr r, Function.update s.responses module (s.responses module) m = some pr →
      pr.data = some r → ∃ pr', s.responses m = some pr' ∧ pr'.data = some r := by
    intro m pr r hpr hr
    rw [Function.update_eq_self] at hpr
    exact ⟨pr, hpr, hr⟩
  have hdrop := sent_of_setSender s sender (fun r (h : (s.senderOf sender).drop = _) => drop_eq_sent h)
  unfold Server.update
  dsimp only
  cases response with
  | none =>
    exact .inl ⟨setSender_history _ _ _, sent_of_setSender s sender fun r h => send_none_eq_sent h,
      hkept⟩
  | some response =>
    cases hpr : s.responses module with
    | none =>
      rw [hpr] at hkept
      exact .inl ⟨setSender_history _ _ _, hdrop, hkept⟩
    | some pr =>
      rw [hpr] at hkept
      simp only [ResponseAnswer.updatePersistentResponse]
      by_cases hsize : response.utf8ByteSize ≤ pr.maxSize
      · cases hlock : pr.poisoned with
        | true =>
          simp only [hsize, if_true]
          exact .inl ⟨setSender_history _ _ _, hdrop, hkept⟩
        | false =>
          simp only [hsize, if_true, Bool.false_eq_true, if_false]
          refine .inr ⟨response, rfl, by simp, fun n r h => ?_, fun m pr' r hm hr => ?_⟩
          · obtain hsame | ⟨hn, hset⟩ := senderOf_setSender (s := s) sender
              ((s.senderOf sender).send (some ⟨200, response⟩)) n
            · exact .inl (hsame ▸ h)
            · rcases send_eq_sent (hset ▸ h) with hold | rfl
              · exact .inl (hn ▸ hold)
              · exact .inr ⟨hn, rfl⟩
          · simp only [Server.record, Function.update_apply] at hm
            split at hm
            · rename_i hmodule
              cases hm
              exact .inr ⟨hmodule, (Option.some.inj hr).symm⟩
            · exact .inl ⟨pr', hm, hr⟩
      · simp only [hsize, if_false]
        exact .inl ⟨setSender_history _ _ _, hdrop, hkept⟩

end update

section replies
variable [DecidableEq T] {t : T} {s s' : Server T} {l : Label}

theorem reply_owned {e : Request} {r : e.Reply} (h : reply t s e l = some (r, s')) {n : ℕ} {u : T}
    (ho : Owned s n u) : Owned s' n u := by
  cases e with
  | now => rwa [reply_now h]
  | readCache webhook => rwa [(reply_readCache h).2]
  | writeCache webhook stamp body => rwa [reply_writeCache h]
  | getPersistentResponseData module => rwa [(reply_getPersistentResponseData h).2]
  | channel => exact (reply_channel h).2 ▸ ho.openChannel t
  | readBody maxSize => rwa [(reply_readBody h).2]
  | newId => rwa [reply_newId h]
  | trySend pool q =>
    obtain ⟨-, rfl⟩ | ⟨-, rfl⟩ := reply_trySend h
    · exact ho
    · exact ho.setSender _ _
  | receive channel => rwa [(reply_receive h).1]
  | recv pool =>
    obtain ⟨-, ⟨q, queue, -, -, rfl⟩ | ⟨-, rfl⟩⟩ := reply_recv h <;> exact ho
  | execute module message response => rwa [reply_execute h]
  | log entry => rwa [reply_log h]
  | updatePersistentResponse module response sender =>
    have hs : s' = (s.update t module response sender).2 := by rw [reply_update h]
    have hset := fun state => ho.setSender sender state
    rw [hs]
    unfold Server.update
    dsimp only
    split <;> exact hset _
  | drop sender => exact reply_drop h ▸ ho.setSender _ _
  | exit => rwa [reply_exit h]

/-- Every permitted request keeps what is known. -/
theorem Sound.reply (hs : Sound cfg s) {e : Request} {r : e.Reply} (hp : Permitted cfg t s e)
    (h : reply t s e l = some (r, s')) : Sound cfg s' := by
  have howned : ∀ n u, Owned s n u → Owned s' n u := fun n u => reply_owned h
  have horder := hs.order.reply h
  cases e with
  | now => exact reply_now h ▸ hs
  | readCache webhook => exact (reply_readCache h).2 ▸ hs
  | writeCache webhook stamp body =>
    have hs' := reply_writeCache h
    refine hs.record t (.cached webhook stamp body) (by rw [hs']; rfl) horder howned (by simp)
      (fun n r hr => .inl (by rwa [hs'] at hr)) (by simp) (fun w st b hc => ?_) (fun w st b hevent => ?_)
      (fun m pr r hpr hr => .inl ⟨pr, by rwa [hs'] at hpr, hr⟩)
    · rw [hs'] at hc
      simp only [Server.insertCache, Server.record, Function.update_apply] at hc
      split at hc
      · rename_i hw
        cases hc
        exact .inr (by rw [hw])
      · exact .inl hc
    · cases hevent
      exact hp
  | getPersistentResponseData module => exact (reply_getPersistentResponseData h).2 ▸ hs
  | channel =>
    have hs' := (reply_channel h).2
    subst hs'
    exact hs.congr rfl rfl rfl (fun _ pr _ hpr hr => ⟨pr, hpr, hr⟩) howned
      fun n r hr => senderOf_openChannel n (some r) hr
  | readBody maxSize => exact (reply_readBody h).2 ▸ hs
  | newId => exact reply_newId h ▸ hs
  | trySend pool q =>
    obtain ⟨-, rfl⟩ | ⟨-, rfl⟩ := reply_trySend h
    · refine hs.record t (.sent pool q) rfl horder howned (fun pool' q' n hevent hn => ?_)
        (fun n r hr => .inl hr) (by simp) (fun _ _ _ hc => .inl hc) (by simp) (fun m pr r hpr hr =>
          .inl ⟨pr, hpr, hr⟩)
      cases hevent
      obtain ⟨hpool, hn', hnew⟩ := hp n hn
      refine ⟨hpool, howned n t hn', fun u pool' q' hu hq' => ?_⟩
      -- who sends with a channel owns it
      have hut := ((hs.sent u pool' q' n hu hq').2).unique hn'
      exact hnew pool' q' (hut ▸ hu) hq'
    · exact hs.congr (setSender_history _ _ _) (setSender_queues _ _ _) (setSender_cache _ _ _)
        (fun _ pr _ hpr hr => ⟨pr, setSender_responses _ _ _ ▸ hpr, hr⟩) howned
        fun n r hr => senderOf_dropSender _ n _ hr
  | receive channel => exact (reply_receive h).1 ▸ hs
  | recv pool =>
    obtain ⟨-, ⟨q, queue, -, -, rfl⟩ | ⟨-, rfl⟩⟩ := reply_recv h
    · exact hs.record t (.took pool q) rfl horder howned (by simp) (fun _ _ hr => .inl hr) (by simp)
        (fun _ _ _ hc => .inl hc) (by simp) (fun _ pr _ hpr hr => .inl ⟨pr, hpr, hr⟩)
    · exact hs
  | execute module message response =>
    have hs' := reply_execute h
    subst hs'
    exact hs.record t (.ran module message) rfl horder howned (by simp) (fun _ _ hr => .inl hr)
      (by simp) (fun _ _ _ hc => .inl hc) (by simp) (fun _ pr _ hpr hr => .inl ⟨pr, hpr, hr⟩)
  | log entry => exact reply_log h ▸ hs
  | updatePersistentResponse module response sender =>
    have hs' : s' = (s.update t module response sender).2 := by rw [reply_update h]
    subst hs'
    obtain ⟨hqueues, hcache, -⟩ := update_frame t s sender module response
    obtain ⟨hhistory, hanswers, hresponses⟩ | ⟨stored, -, hhistory, hanswers, hresponses⟩ :=
      update_cases t s module response sender
    · exact hs.congr hhistory hqueues hcache hresponses howned hanswers
    · refine hs.record t (.stored module stored sender) hhistory horder howned (by simp)
        (fun n r hr => ?_) (fun m r n hevent => ?_) (fun w st b hc => .inl (hcache ▸ hc)) (by simp)
        fun m pr r hpr hr => ?_
      · rcases hanswers n r hr with hold | ⟨hn, hbody⟩
        · exact .inl hold
        · exact .inr ⟨module, by rw [hn, hbody]⟩
      · cases hevent
        exact hp n rfl
      · rcases hresponses m pr r hpr hr with hold | ⟨rfl, rfl⟩
        · exact .inl hold
        · exact .inr ⟨sender, rfl⟩
  | drop sender =>
    have hs' := reply_drop h
    subst hs'
    exact hs.congr (setSender_history _ _ _) (setSender_queues _ _ _) (setSender_cache _ _ _)
      (fun _ pr _ hpr hr => ⟨pr, setSender_responses _ _ _ ▸ hpr, hr⟩) howned
      fun n r hr => senderOf_dropSender _ n _ hr
  | exit =>
    have hs' := reply_exit h
    subst hs'
    exact hs.congr rfl rfl rfl (fun _ pr _ hpr hr => ⟨pr, hpr, hr⟩) howned fun _ _ hr => hr

end replies

section explanations
variable (cfg)

/-- Where a page that a rule stands for comes from; `g` is what the handler read and sent. -/
inductive RulePage (conf : WebhookConfig) (mode : CachingMode) (name : String) (rule : PlaidModule)
    (req : GetRequest) (g : Notes) (h : History T) : Outcome → Prop
  | cached (validity stamp now : UInt64) (body : String) (hmode : mode = .timed validity)
      (hnow : g.now = some now) (fresh : now.toNat < stamp.toNat + validity.toNat)
      (hcached : ∃ t, (t, .cached req.webhook stamp body) ∈ h)
      (answered : Answered cfg req.webhook body h) (unsent : g.tried = []) :
      RulePage conf mode name rule req g h (.html body)
  | persisted (callOnNone : Bool) (body : String)
      (hmode : mode = .usePersistentResponse callOnNone)
      (hstored : ∃ t sender, (t, .stored rule.name body sender) ∈ h) (unsent : g.tried = []) :
      RulePage conf mode name rule req g h (.html body)
  | answered (body : String) (id : String) (data : GuestMemory.Bytes) (channel : ℕ)
      (sent : g.tried = [(none,
        ⟨getMessage req.webhook conf name rule req id data, some channel⟩, .ok ())])
      (hanswered : RuleAnswered rule
        ⟨getMessage req.webhook conf name rule req id data, some channel⟩ body h)
      (called : mode ≠ .usePersistentResponse false) :
      RulePage conf mode name rule req g h (.html body)
  | empty (few : g.tried.length ≤ 1) : RulePage conf mode name rule req g h (.html "")
  | disconnected : RulePage conf mode name rule req g h .panicked

/-- What a GET is answered with. -/
def Explained (req : GetRequest) (g : Notes) (h : History T) (outcome : Outcome) : Prop :=
  match cfg.webhooks.lookup req.webhook with
  | none => outcome = .html ""
  | some conf =>
    match conf.getMode with
    | some ⟨_, .static data⟩ => outcome = .html data
    | some ⟨_, .facebook secret⟩ => outcome = .html (facebookPage secret req.query)
    | some ⟨mode, .rule name⟩ =>
      match cfg.modulesByName.lookup name with
      | none => outcome = .html ""
      | some rule => RulePage cfg conf mode name rule req g h outcome
    | none => outcome = .html ""

variable {cfg}

theorem RulePage.mono {conf : WebhookConfig} {mode : CachingMode} {name : String}
    {rule : PlaidModule} {req : GetRequest} {g : Notes} {h h' : History T} {outcome : Outcome}
    (hpage : RulePage cfg conf mode name rule req g h outcome) (hsub : h ⊆ h') :
    RulePage cfg conf mode name rule req g h' outcome := by
  cases hpage with
  | cached validity stamp now body hmode hnow fresh hcached answered unsent =>
    obtain ⟨t, ht⟩ := hcached
    exact .cached validity stamp now body hmode hnow fresh ⟨t, hsub ht⟩ (answered.mono hsub) unsent
  | persisted callOnNone body hmode hstored unsent =>
    obtain ⟨t, sender, ht⟩ := hstored
    exact .persisted callOnNone body hmode ⟨t, sender, hsub ht⟩ unsent
  | answered body id data channel sent hanswered called =>
    exact .answered body id data channel sent (hanswered.mono hsub) called
  | empty few => exact .empty few
  | disconnected => exact .disconnected

theorem Explained.mono {req : GetRequest} {g : Notes} {h h' : History T} {outcome : Outcome}
    (hx : Explained cfg req g h outcome) (hsub : h ⊆ h') : Explained cfg req g h' outcome := by
  unfold Explained at hx ⊢
  split
  · simp_all
  · split <;> simp_all
    split <;> simp_all
    exact hx.mono hsub

end explanations

section contract
variable [DecidableEq T]

variable (cfg) in
/-- The pages are explained, and nobody else acts in the name of a thread. -/
def answering : Contract (system (T := T) cfg) where
  Inv s := Sound cfg s
  Rely t s s' := (∃ more, s'.history = s.history ++ more ∧ ∀ e ∈ more, e.1 ≠ t) ∧
    ∀ n u, Owned s n u → Owned s' n u
  Ready _ _ := True
  At t e s := Permitted cfg t s e
  Ends _ c a g s :=
    match c with
    | .get req => Explained cfg req g s.history a
    | _ => True
  rely_refl _ _ := ⟨⟨[], (List.append_nil _).symm, nofun⟩, fun _ _ h => h⟩
  rely_trans t s s₁ s₂ h h' := by
    obtain ⟨⟨more, hmore, hothers⟩, howned⟩ := h
    obtain ⟨⟨more', hmore', hothers'⟩, howned'⟩ := h'
    refine ⟨⟨more ++ more', by rw [hmore', hmore, List.append_assoc], fun e he => ?_⟩,
      fun n u hn => howned' n u (howned n u hn)⟩
    exact (List.mem_append.mp he).elim (hothers e) (hothers' e)
  ready_stable _ _ _ _ _ := trivial
  at_stable t e s s' h hp := by
    obtain ⟨⟨more, hmore, hothers⟩, howned⟩ := h
    have hsub : s.history ⊆ s'.history := hmore ▸ List.subset_append_left _ _
    cases e with
    | trySend pool q =>
      intro n hn
      obtain ⟨hpool, ho, hnew⟩ := hp n hn
      refine ⟨hpool, howned n t ho, fun pool' q' hq' => ?_⟩
      rw [hmore] at hq'
      rcases List.mem_append.mp hq' with hq' | hq'
      · exact hnew pool' q' hq'
      · exact absurd rfl (hothers _ hq')
    | writeCache webhook stamp body => exact hp.mono hsub
    | updatePersistentResponse module response sender =>
      intro n hn
      obtain ⟨pool, q, m, hq, hrest⟩ := hp n hn
      exact ⟨pool, q, m, hsub hq, hrest⟩
    | _ => exact trivial
  ends_stable t c a g s s' h hs := by
    obtain ⟨⟨more, hmore, -⟩, -⟩ := h
    cases c with
    | get req => exact hs.mono (hmore ▸ List.subset_append_left _ _)
    | _ => exact trivial
  ends_ready _ _ _ _ _ _ := trivial

section safe
variable {α : Type} {t : T} {Q : α → Notes → Server T → Prop} {p : Program α} {g : Notes}
  {s : Server T}

theorem safe_request {e : Request} {next : e.Reply → Program α} (hp : Permitted cfg t s e)
    (h : ∀ s₁ l r s₂, (answering cfg).Rely t s s₁ → Sound cfg s₁ → Sound cfg s₂ →
      reply t s₁ e l = some (r, s₂) → (answering cfg).Safe t Q (next r) (note g e r) s₂) :
    (answering cfg).Safe t Q (.request e next) g s := by
  refine ⟨hp, fun s₁ l r s₂ hrely hsound hreply => ?_⟩
  have hp₁ := (answering cfg).at_stable t e s s₁ hrely hp
  have hsound₂ := hsound.reply hp₁ hreply
  refine ⟨hsound₂, fun u hu => ⟨?_, fun n v => reply_owned hreply⟩,
    h s₁ l r s₂ hrely hsound hsound₂ hreply⟩
  obtain hsame | ⟨event, hnew, -⟩ := reply_history hreply
  · exact ⟨[], by rw [hsame, List.append_nil], nofun⟩
  · refine ⟨[(t, event)], hnew, fun e he => ?_⟩
    cases List.mem_singleton.mp he
    exact Ne.symm hu

theorem subset_of_rely {s' : Server T} (h : (answering cfg).Rely t s s') : s.history ⊆ s'.history := by
  obtain ⟨⟨more, hmore, -⟩, -⟩ := h
  exact hmore ▸ List.subset_append_left _ _

theorem subset_of_reply {e : Request} {l : Label} {r : e.Reply} {s' : Server T}
    (h : reply t s e l = some (r, s')) : s.history ⊆ s'.history := by
  obtain hsame | ⟨event, hnew, -⟩ := reply_history h
  · exact hsame ▸ List.Subset.refl _
  · exact hnew ▸ List.subset_append_left _ _

/-- A program whose requests stay permitted as the history grows. -/
theorem uses_safe {P : Request → Prop} (hp : p.Uses P)
    (hP : ∀ e s', P e → s.history ⊆ s'.history → Permitted cfg t s' e)
    (hQ : ∀ a g s', Q a g s') : (answering cfg).Safe t Q p g s := by
  induction p generalizing g s with
  | done a => exact hQ a g s
  | request e next ih =>
    refine safe_request (hP e s hp.1 (List.Subset.refl _)) fun s₁ l r s₂ hrely _ _ hreply => ?_
    refine ih r (hp.2 r) fun e s' he hsub => hP e s' he ?_
    have hnow := List.Subset.trans (subset_of_rely hrely) (subset_of_reply hreply)
    exact List.Subset.trans hnow hsub

/-- The requests with which a round goes on after it has taken `q`. -/
def RoundRequest (q : Queued) : Request → Prop
  | .updatePersistentResponse module _ sender => sender = none ∨
      sender = q.responseSender ∧ ∃ m, q.message.module = some m ∧ m.name = module
  | .getPersistentResponseData _ | .execute _ _ _ | .log _ | .drop _ => True
  | _ => False

theorem uses_process (q : Queued) {message : Message} {sender : Option ℕ} {module : PlaidModule}
    (hsender : sender = none ∨
      sender = q.responseSender ∧ ∃ m, q.message.module = some m ∧ m.name = module.name) :
    (processMessageWithModule cfg message sender module).Uses (RoundRequest q) := by
  refine Prog.Uses.bind (Prog.uses_perform trivial) fun persistentResponse => ?_
  refine Prog.Uses.bind (Prog.uses_perform trivial) fun x => ?_
  refine (uses_concludeExecution message sender module persistentResponse x).mono fun e he => ?_
  cases e with
  | updatePersistentResponse m response sender' =>
    obtain ⟨rfl, rfl⟩ := he
    exact hsender
  | log entry => exact trivial
  | drop sender' => exact trivial
  | _ => exact he.elim

theorem uses_processWithModules (q : Queued) (message : Message) (modules : List PlaidModule) :
    (processWithModules cfg message modules).Uses (RoundRequest q) := by
  induction modules with
  | nil => exact trivial
  | cons module modules ih =>
    refine Prog.Uses.bind (uses_process q (.inl rfl)) fun r => ?_
    cases r with
    | ok u => exact ih
    | error e => exact trivial

theorem uses_runMessage (q : Queued) : (runMessage cfg q).Uses (RoundRequest q) := by
  unfold runMessage
  split
  · rename_i module hmodule
    exact Prog.Uses.bind (uses_process q (.inr ⟨rfl, module, hmodule, rfl⟩)) fun _ => trivial
  · refine Prog.Uses.bind (uses_processWithModules q _ _) fun r => ?_
    exact Prog.Uses.bind (Prog.uses_perform trivial) fun _ => trivial
  · exact Prog.Uses.bind (Prog.uses_perform trivial) fun _ => trivial

theorem thread_safe (pool : Pool) :
    (answering cfg).Safe t (fun _ _ _ => True) (executionThread cfg pool) g s := by
  have hround : (answering cfg).Safe t (fun _ _ _ => True) (executionRound cfg pool) g s := by
    refine safe_request trivial fun s₁ l r s₂ _ _ _ hreply => ?_
    obtain ⟨-, ⟨q, queue, -, rfl, rfl⟩ | ⟨rfl, rfl⟩⟩ := reply_recv hreply
    · refine uses_safe (uses_runMessage q) (fun e s' he hsub => ?_) fun _ _ _ => trivial
      cases e with
      | updatePersistentResponse module response sender =>
        intro n hn
        rcases he with rfl | ⟨rfl, m, hm, hname⟩
        · cases hn
        · exact ⟨pool, q, m, hsub (by simp [Server.dequeue]), hn, hm, hname⟩
      | trySend pool q' => exact he.elim
      | writeCache webhook stamp body => exact he.elim
      | _ => exact trivial
    · exact trivial
  refine Contract.Safe.bind (Contract.Safe.mono hround fun r g s' _ => ?_)
  cases r with
  | none => exact trivial
  | some result => exact safe_request trivial fun _ _ _ _ _ _ _ _ => trivial

theorem forwards_safe (hp : p.Uses Forwards) (hQ : ∀ a g s', Q a g s') :
    (answering cfg).Safe t Q p g s := by
  refine uses_safe hp (fun e s' he _ => ?_) hQ
  cases e with
  | trySend pool q =>
    intro n hn
    rw [he] at hn
    cases hn
  | writeCache webhook stamp body => exact he.elim
  | updatePersistentResponse module response sender => exact he.elim
  | _ => exact trivial

omit [DecidableEq T] in
/-- An answer on a channel of `t` was given to the message that `t` sent with it. -/
theorem Sound.answer_origin (h : Sound cfg s) {n : ℕ} {response : ResponseMessage}
    (ho : Owned s n t) (hs : s.senderOf (some n) = .sent (some response)) :
    ∃ q m, (t, .sent none q) ∈ s.history ∧ q.responseSender = some n ∧
      q.message.module = some m ∧ RuleAnswered m q response.body s.history := by
  obtain ⟨u, module, hstored⟩ := h.answers n response hs
  obtain ⟨pool, q, m, htook, hn, hm, rfl⟩ := h.stored u module response.body n hstored
  obtain ⟨v, hsent⟩ := h.order.sent_of_took htook
  obtain ⟨rfl, hv⟩ := h.sent v pool q n hsent hn
  obtain rfl := hv.unique ho
  exact ⟨q, m, hsent, hn, hm, ⟨v, hsent⟩, u, n, hn, htook, hstored⟩

/-- The channel is that of `t`, who has not handed on its sender yet. -/
def Unsent (t : T) (n : ℕ) (s : Server T) : Prop :=
  Owned s n t ∧ ∀ pool q, (t, .sent pool q) ∈ s.history → q.responseSender ≠ some n

theorem Unsent.stable {n : ℕ} {s' : Server T} (h : Unsent t n s)
    (hrely : (answering cfg).Rely t s s') : Unsent t n s' := by
  obtain ⟨⟨more, hmore, hothers⟩, howned⟩ := hrely
  refine ⟨howned n t h.1, fun pool q hq => ?_⟩
  rw [hmore] at hq
  rcases List.mem_append.mp hq with hq | hq
  · exact h.2 pool q hq
  · exact absurd rfl (hothers _ hq)

omit [DecidableEq T] in
theorem Sound.unsent_openChannel (h : Sound cfg s) : Unsent t s.channels.length (s.openChannel t) := by
  refine ⟨owned_openChannel s t, fun pool q hq hn => ?_⟩
  obtain ⟨-, c, hc, -⟩ := h.sent t pool q _ hq hn
  exact absurd (List.getElem?_eq_some_iff.mp hc).1 (lt_irrefl _)

section handler
variable {conf : WebhookConfig} {mode : CachingMode} {name : String} {rule : PlaidModule}
  {req : GetRequest}

theorem getMessage_module (webhook : String) (id : String) (data : GuestMemory.Bytes) :
    (getMessage webhook conf name rule req id data).module = some rule := by
  rw [getMessage, insertHeaders_eq]

/-- What becomes of the answer: it is the rule's, or the page is empty. -/
theorem servePage_safe (hruled : Ruled cfg req.webhook conf mode name rule)
    (hcalled : mode ≠ .usePersistentResponse false) {update : Bool} (id : String)
    (data : GuestMemory.Bytes) (n : ℕ) {r : Except Unit (Option ResponseMessage)}
    (hfew : g.tried.length ≤ 1)
    (hanswer : ∀ response, r = .ok (some response) →
      g.tried = [(none, ⟨getMessage req.webhook conf name rule req id data, some n⟩, .ok ())] ∧
      RuleAnswered rule ⟨getMessage req.webhook conf name rule req id data, some n⟩ response.body
        s.history) :
    (answering cfg).Safe t (fun a g s => RulePage cfg conf mode name rule req g s.history a)
      (servePage req.webhook update r) g s := by
  match r with
  | .error () => exact .empty hfew
  | .ok none => exact .empty hfew
  | .ok (some response) =>
    obtain ⟨htried, hanswered⟩ := hanswer response rfl
    cases update with
    | false => exact .answered response.body id data n htried hanswered hcalled
    | true =>
      refine safe_request trivial fun s₁ l currentTime s₂ hrely _ _ hnow => ?_
      obtain rfl := reply_now hnow
      have hanswered₁ := hanswered.mono (subset_of_rely hrely)
      refine safe_request (show Answered cfg req.webhook response.body s₂.history from ?_)
        fun s₃ l u s₄ hrely₃ _ _ hwrite => ?_
      · exact ⟨conf, mode, name, rule, hruled, req, id, data, n, rfl, hanswered₁⟩
      · have hsub := List.Subset.trans (subset_of_rely hrely₃) (subset_of_reply hwrite)
        exact .answered response.body id data n htried (hanswered₁.mono hsub) hcalled

/-- The wait for the answer. -/
theorem awaitRule_safe (hruled : Ruled cfg req.webhook conf mode name rule)
    (hcalled : mode ≠ .usePersistentResponse false) {update : Bool} (id : String)
    (data : GuestMemory.Bytes) {n : ℕ} {q : Queued} {tried : Except TrySendError Unit}
    (hq : q = ⟨getMessage req.webhook conf name rule req id data, some n⟩)
    (hg : g.tried = [(none, q, tried)]) (ho : Owned s n t)
    (hsent : tried = .ok () → (t, .sent none q) ∈ s.history)
    (hunsent : tried ≠ .ok () → Unsent t n s) :
    (answering cfg).Safe t (fun a g s => RulePage cfg conf mode name rule req g s.history a)
      (awaitRule req.webhook update n tried) g s := by
  have hqn : q.responseSender = some n := by rw [hq]
  have hfew : g.tried.length ≤ 1 := by simp [hg]
  have hmodule : q.message.module = some rule := by
    rw [hq]
    exact getMessage_module _ _ _
  match tried, hg, hsent, hunsent with
  | .error .disconnected, _, _, _ => exact .disconnected
  | .error .full, hg, _, hunsent =>
    refine safe_request trivial fun s₁ l r s₂ hrely hsound _ hreceive => ?_
    obtain ⟨rfl, hstate⟩ := reply_receive hreceive
    refine servePage_safe hruled hcalled id data n hfew fun response hr => ?_
    -- nothing was sent with this channel
    have hunsent₁ := (hunsent nofun).stable hrely
    obtain ⟨q', m, hsent', hn', -⟩ := hsound.answer_origin hunsent₁.1 (hstate _ hr)
    exact absurd hn' (hunsent₁.2 none q' hsent')
  | .ok (), hg, hsent, _ =>
    refine safe_request trivial fun s₁ l r s₂ hrely hsound _ hreceive => ?_
    obtain ⟨rfl, hstate⟩ := reply_receive hreceive
    subst hq
    refine servePage_safe hruled hcalled id data n hfew fun response hr => ⟨hg, ?_⟩
    obtain ⟨q', m, hsent', hn', hm, hanswered⟩ :=
      hsound.answer_origin (hrely.2 n t ho) (hstate _ hr)
    -- the message answered is the one sent here
    obtain rfl := hsound.once t t none none _ q' n (subset_of_rely hrely (hsent rfl)) hsent' rfl hn'
    obtain rfl : rule = m := Option.some.inj (hmodule.symm.trans hm)
    exact hanswered

theorem callRule_safe (hruled : Ruled cfg req.webhook conf mode name rule)
    (hcalled : mode ≠ .usePersistentResponse false) {update : Bool} (hg : g.tried = []) :
    (answering cfg).Safe t (fun a g s => RulePage cfg conf mode name rule req g s.history a)
      (callRule conf req name rule update) g s := by
  refine safe_request trivial fun s₁ l n s₂ _ hsound₁ _ hchannel => ?_
  obtain ⟨rfl, rfl⟩ := reply_channel hchannel
  have hunsent : Unsent t s₁.channels.length (s₁.openChannel t) := hsound₁.unsent_openChannel
  generalize s₁.channels.length = n at hunsent ⊢
  refine safe_request trivial fun s₃ l body s₄ hrely₃ _ _ hbody => ?_
  obtain ⟨-, rfl⟩ := reply_readBody hbody
  cases body with
  | error e => exact safe_request trivial fun _ _ _ _ _ _ _ _ => .empty (by simp [note, hg])
  | ok body =>
    refine safe_request trivial fun s₅ l id s₆ hrely₅ _ _ hid => ?_
    obtain rfl := reply_newId hid
    have hunsent₆ := (hunsent.stable hrely₃).stable hrely₅
    refine safe_request (fun m hm => ?_) fun s₇ l tried s₈ hrely₇ _ _ htry => ?_
    · cases hm
      exact ⟨rfl, hunsent₆⟩
    · have hunsent₇ := hunsent₆.stable hrely₇
      have ho : Owned s₈ n t := reply_owned htry hunsent₇.1
      refine awaitRule_safe hruled hcalled id body rfl (by simp [note, hg]) ho (fun hok => ?_) fun hno => ?_
      · obtain ⟨-, rfl⟩ | ⟨⟨e, rfl⟩, -⟩ := reply_trySend htry
        · exact List.mem_append_right _ (List.mem_singleton.mpr rfl)
        · cases hok
      · obtain ⟨rfl, -⟩ | ⟨-, rfl⟩ := reply_trySend htry
        · exact absurd rfl hno
        · refine ⟨ho, fun pool q' hq' => hunsent₇.2 pool q' ?_⟩
          rwa [Server.dropSender, setSender_history] at hq'

/-- What the caching mode decides is explained or leads to a call that the mode allows. -/
def Decided (cfg : Config) (conf : WebhookConfig) (mode : CachingMode) (name : String)
    (rule : PlaidModule) (req : GetRequest) (g : Notes) (h : History T) : CacheDecision → Prop
  | .page body => RulePage cfg conf mode name rule req g h (.html body)
  | .call _ => mode ≠ .usePersistentResponse false

variable (conf name) in
theorem consultCache_safe {now : UInt64} (hg : g.tried = []) (hnow : g.now = some now) :
    (answering cfg).Safe t
      (fun a g' s => g' = g ∧ Decided cfg conf mode name rule req g s.history a)
      (consultCache req.webhook rule now mode) g s := by
  cases mode with
  | none => exact ⟨rfl, nofun⟩
  | timed validity =>
    refine safe_request trivial fun s₁ l cached s₂ _ hsound _ hread => ?_
    obtain ⟨rfl, rfl⟩ := reply_readCache hread
    generalize hcached : s₂.cache req.webhook = cached
    cases cached with
    | none => exact ⟨rfl, nofun⟩
    | some entry =>
      obtain ⟨stamp, body⟩ := entry
      show (answering cfg).Safe t _ (if stamp + validity > now then _ else _) _ s₂
      split
      · rename_i hfresh
        obtain ⟨u, hu⟩ := hsound.cache req.webhook stamp body hcached
        have hlt : now.toNat < stamp.toNat + validity.toNat := by
          have h := UInt64.lt_iff_toNat_lt.mp hfresh
          rw [UInt64.toNat_add] at h
          exact h.trans_le (Nat.mod_le _ _)
        exact ⟨rfl, .cached validity stamp now body rfl hnow hlt ⟨u, hu⟩
          (hsound.cached u req.webhook stamp body hu) hg⟩
      · exact ⟨rfl, nofun⟩
  | usePersistentResponse callOnNone =>
    refine safe_request trivial fun s₁ l data s₂ _ hsound _ hread => ?_
    obtain ⟨hdata, rfl⟩ := reply_getPersistentResponseData hread
    cases data with
    | none =>
      cases callOnNone with
      | true => exact ⟨rfl, nofun⟩
      | false => exact ⟨rfl, .empty (by simp [hg])⟩
    | some data =>
      obtain ⟨pr, hpr, hget⟩ := Option.bind_eq_some_iff.mp hdata.symm
      have hstored : pr.data = some data := by
        unfold ResponseAnswer.PersistentResponse.getData at hget
        split at hget
        · cases hget
        · exact hget
      exact ⟨rfl, .persisted callOnNone data rfl (hsound.responses rule.name pr data hpr hstored) hg⟩

theorem getHandler_safe (req : GetRequest) :
    (answering cfg).Safe t (fun a g s => Explained cfg req g s.history a) (getHandler cfg req)
      ⟨none, []⟩ s := by
  unfold getHandler
  split
  · rename_i hnone
    show Explained cfg req _ s.history _
    simp only [Explained, hnone]
  · rename_i conf hconf
    split
    · rename_i data hmode
      show Explained cfg req _ s.history _
      simp only [Explained, hconf, hmode]
    · rename_i secret hmode
      show Explained cfg req _ s.history _
      simp only [Explained, hconf, hmode]
    · rename_i mode name hmode
      split
      · rename_i hrule
        show Explained cfg req _ s.history _
        simp only [Explained, hconf, hmode, hrule]
      · rename_i rule hrule
        have hruled : Ruled cfg req.webhook conf mode name rule := ⟨hconf, hmode, hrule⟩
        refine Contract.Safe.mono (Q := fun a g s => RulePage cfg conf mode name rule req g s.history a)
          ?_ fun a g s hpage => by simpa only [Explained, hconf, hmode, hrule] using hpage
        refine safe_request trivial fun s₁ l now s₂ _ _ _ hnow => ?_
        refine Contract.Safe.bind (p := consultCache req.webhook rule now mode)
          (Contract.Safe.mono (consultCache_safe conf name rfl rfl) fun d g s hd => ?_)
        obtain ⟨rfl, hd⟩ := hd
        cases d with
        | page body => exact hd
        | call update => exact callRule_safe hruled hd rfl
    · rename_i hmode
      show Explained cfg req _ s.history _
      simp only [Explained, hconf, hmode]

end handler

theorem code_safe (c : Call) :
    (answering cfg).Safe t ((answering cfg).Ends t c) (code cfg c) ⟨none, []⟩ s := by
  cases c with
  | get req => exact getHandler_safe req
  | post req => exact forwards_safe (uses_postHandler req) fun _ _ _ => trivial
  | produce type_ data source logbacks =>
    exact forwards_safe (uses_produce type_ data source logbacks) fun _ _ _ => trivial
  | work pool => exact thread_safe pool

end safe
end contract

section pages
variable [DecidableEq T]

/-- The server when it starts: nothing is cached, stored or under way. -/
structure Fresh (σ : Config Request Request.Reply (Server T) Call Outcome Notes T) : Prop where
  booted : Booted σ
  channels : σ.shared.channels = []
  cache : ∀ webhook, σ.shared.cache webhook = none
  responses : ∀ module pr, σ.shared.responses module = some pr → pr.data = none

omit [DecidableEq T] in
theorem Fresh.sound {σ : Config Request Request.Reply (Server T) Call Outcome Notes T}
    (h : Fresh σ) : Sound cfg σ.shared := by
  have hnone : ∀ e, e ∉ σ.shared.history := by
    intro e he
    rw [h.booted.history] at he
    cases he
  constructor
  case order =>
    intro pool
    rw [h.booted.history, h.booted.queues]
    rfl
  case sent => exact fun t pool q n hq => absurd hq (hnone _)
  case once => exact fun t u pool pool' q q' n hq => absurd hq (hnone _)
  case answers =>
    intro n r hr
    simp [Server.senderOf, h.channels] at hr
  case stored => exact fun t module r n hr => absurd hr (hnone _)
  case cache =>
    intro webhook stamp body hc
    rw [h.cache webhook] at hc
    cases hc
  case cached => exact fun t webhook stamp body hc => absurd hc (hnone _)
  case responses =>
    intro module pr r hpr hr
    rw [h.responses module pr hpr] at hr
    cases hr

/-- In every interleaving of GETs, POSTs, other producers and execution threads, every GET that
returns has a page with an explanation. -/
theorem get_explained {σ τ : Config Request Request.Reply (Server T) Call Outcome Notes T}
    {as : List (Action Label Call T)} (hf : Fresh σ) (hr : (system cfg).run σ as = some τ) {t : T}
    {req : GetRequest} {outcome : Outcome} {g : Notes}
    (ht : τ.threads t = some ⟨.get req, .done outcome, g⟩) :
    Explained cfg req g τ.shared.history outcome := by
  have hstart : (answering cfg).Good σ := by
    refine ⟨hf.sound, fun t => ?_⟩
    rw [hf.booted.threads]
    exact trivial
  have hgood := Contract.good_run (fun t c s _ _ => code_safe c) hstart hr
  exact hgood.ends ht

end pages

section instances

theorem ping_fresh : Fresh pingServer := by
  refine ⟨ping_booted, rfl, fun _ => rfl, fun module pr hpr => ?_⟩
  simp only [pingServer, Option.ite_none_right_eq_some, Option.some.injEq] at hpr
  rw [← hpr.2]
  rfl

/-- The second GET gets its page from the cache. -/
theorem get_explained_sample : ∃ τ g, (system pingConfig).run pingServer pingServed = some τ ∧
    τ.threads true = some ⟨.get pingRequest, .done (.html "pong"), g⟩ ∧ g.tried = [] ∧
    Explained pingConfig pingRequest g τ.shared.history (.html "pong") := by
  obtain ⟨g, hg, hpage⟩ : ∃ g : Notes, g.tried = [] ∧
      ((system pingConfig).run pingServer pingServed).map (fun τ => τ.threads true) =
        some (some ⟨.get pingRequest, .done (.html "pong"), g⟩) := ⟨_, rfl, rfl⟩
  obtain ⟨τ, hτ, ht⟩ := Option.map_eq_some_iff.mp hpage
  exact ⟨τ, g, hτ, ht, hg, get_explained ping_fresh hτ ht⟩

end instances

end PlaidRuntime.WebhookAnswers
