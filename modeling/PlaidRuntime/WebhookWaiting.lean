import PlaidRuntime.WebhookAnswers

/-!
# No GET waits for nothing

As long as a GET waits, its message is in a queue or an execution thread has it. When the threads
have nothing left to do, every oneshot channel was used or dropped.
-/
namespace PlaidRuntime.WebhookWaiting
open EffectProgram LockMonitor RelyGuarantee ThreadPools WebhookHandlers WebhookServer
open ExecutionRounds WebhookAnswers
open LogbackMessage hiding Env
open ResponseAnswer (ResponseSender ResponseMessage)

variable {T : Type} [DecidableEq T]

/-- The messages a thread took, and the one it took last. -/
def tookBy (t : T) (history : History T) : List Queued :=
  history.filterMap fun e => if e.1 = t then
    match e.2 with
    | .took _ q => some q
    | _ => none else none

def heldBy (t : T) (history : History T) : Option Queued := (tookBy t history).getLast?

section held
variable {t u : T} {history : History T} {event : Event}

theorem heldBy_other (h : u ≠ t) : heldBy u (history ++ [(t, event)]) = heldBy u history := by
  have hnone : tookBy u [(t, event)] = [] := by simp [tookBy, Ne.symm h]
  rw [heldBy, heldBy, tookBy, List.filterMap_append, ← tookBy, ← tookBy, hnone, List.append_nil]

theorem heldBy_idle (h : ∀ pool q, event ≠ .took pool q) :
    heldBy u (history ++ [(t, event)]) = heldBy u history := by
  have hnone : tookBy u [(t, event)] = [] := by
    cases event with
    | took pool q => exact absurd rfl (h pool q)
    | _ => simp [tookBy]
  rw [heldBy, heldBy, tookBy, List.filterMap_append, ← tookBy, ← tookBy, hnone, List.append_nil]

theorem heldBy_took (pool : Pool) (q : Queued) :
    heldBy t (history ++ [(t, .took pool q)]) = some q := by
  simp [heldBy, tookBy]

end held

/-- The channel exists and somebody has used or dropped its sender. -/
def Settled (s : Server T) (n : ℕ) : Prop :=
  n < s.channels.length ∧ s.senderOf (some n) ≠ .waiting

section settled
variable {s s' : Server T} {n : ℕ} {t : T} {l : Label}

omit [DecidableEq T] in
theorem length_setSender (sender : Option ℕ) (state : ResponseSender) :
    (s.setSender sender state).channels.length = s.channels.length := by
  cases sender with
  | none => rfl
  | some m => simp [Server.setSender]

omit [DecidableEq T] in
theorem Settled.setSender (h : Settled s n) {sender : Option ℕ} {state : ResponseSender}
    (hstate : s.senderOf sender ≠ .waiting → state ≠ .waiting) :
    Settled (s.setSender sender state) n := by
  refine ⟨by rw [length_setSender]; exact h.1, ?_⟩
  obtain hsame | ⟨rfl, hset⟩ := senderOf_setSender (s := s) sender state n
  · rw [hsame]
    exact h.2
  · rw [hset]
    exact hstate h.2

omit [DecidableEq T] in
/-- After its sender is used or dropped a channel is settled. -/
theorem settled_setSender (h : n < s.channels.length) {state : ResponseSender}
    (hstate : state ≠ .waiting) : Settled (s.setSender (some n) state) n := by
  refine ⟨by rw [length_setSender]; exact h, ?_⟩
  obtain ⟨c, hc⟩ : ∃ c, s.channels[n]? = some c := ⟨_, List.getElem?_eq_getElem h⟩
  simp [Server.setSender, Server.senderOf, hc, hstate]

theorem drop_ne_waiting (state : ResponseSender) : state.drop ≠ .waiting := by
  cases state <;> simp [ResponseSender.drop]

theorem send_ne_waiting (state : ResponseSender) (r : Option ResponseMessage) :
    state.send r ≠ .waiting := by
  cases state <;> simp [ResponseSender.send]

/-- An update uses the sender or drops it. -/
theorem updated_sender (m : ResponseAnswer.PlaidModule) (response : Option String)
    (state : ResponseSender) :
    (∃ r, (ResponseAnswer.updatePersistentResponse m response state).sender = state.send r) ∨
      (ResponseAnswer.updatePersistentResponse m response state).sender = state.drop := by
  unfold ResponseAnswer.updatePersistentResponse
  split
  · exact .inl ⟨_, rfl⟩
  · exact .inr rfl
  · split
    · split
      · exact .inr rfl
      · exact .inl ⟨_, rfl⟩
    · exact .inr rfl

theorem drop_eq_absent {state : ResponseSender} (h : state.drop = .absent) : state = .absent := by
  cases state <;> simp_all [ResponseSender.drop]

theorem send_eq_absent {state : ResponseSender} {r : Option ResponseMessage}
    (h : state.send r = .absent) : state = .absent := by
  cases state <;> simp_all [ResponseSender.send]

omit [DecidableEq T] in
/-- The channels after an update. -/
theorem update_channels (t : T) (s : Server T) (module : String) (response : Option String)
    (sender : Option ℕ) : ∃ state, state ≠ .waiting ∧
      (s.senderOf sender ≠ .absent → state ≠ .absent) ∧
      (s.update t module response sender).2.channels = (s.setSender sender state).channels := by
  have hchannels : (s.update t module response sender).2.channels = (s.setSender sender
      (ResponseAnswer.updatePersistentResponse ⟨module, 0, s.responses module⟩ response
        (s.senderOf sender)).sender).channels := by
    unfold Server.update
    dsimp only
    split <;> rfl
  obtain ⟨r, hr⟩ | hr := updated_sender ⟨module, 0, s.responses module⟩ response (s.senderOf sender)
  · rw [hr] at hchannels
    exact ⟨_, send_ne_waiting _ r, mt send_eq_absent, hchannels⟩
  · rw [hr] at hchannels
    exact ⟨_, drop_ne_waiting _, mt drop_eq_absent, hchannels⟩

omit [DecidableEq T] in
theorem settled_congr (h : s'.channels = s.channels) : Settled s' n ↔ Settled s n := by
  have hsender : s'.senderOf (some n) = s.senderOf (some n) := by simp only [Server.senderOf, h]
  rw [Settled, Settled, hsender, h]

/-- No request unsettles a channel. -/
theorem Settled.reply (hn : Settled s n) {e : Request} {r : e.Reply}
    (h : reply t s e l = some (r, s')) : Settled s' n := by
  cases e with
  | now => rwa [reply_now h]
  | readCache webhook => rwa [(reply_readCache h).2]
  | writeCache webhook stamp body => rw [reply_writeCache h]; exact hn
  | getPersistentResponseData module => rwa [(reply_getPersistentResponseData h).2]
  | channel =>
    rw [(reply_channel h).2]
    refine ⟨by rw [Server.openChannel, List.length_append]; exact Nat.lt_add_right _ hn.1, ?_⟩
    have hsame : (s.openChannel t).senderOf (some n) = s.senderOf (some n) := by
      simp only [Server.senderOf, Server.openChannel, List.getElem?_append_left hn.1]
    rw [hsame]
    exact hn.2
  | readBody maxSize => rwa [(reply_readBody h).2]
  | newId => rwa [reply_newId h]
  | trySend pool q =>
    obtain ⟨-, rfl⟩ | ⟨-, rfl⟩ := reply_trySend h
    · exact hn
    · exact hn.setSender fun _ => drop_ne_waiting _
  | receive channel => rwa [(reply_receive h).1]
  | recv pool =>
    obtain ⟨-, ⟨q, queue, -, -, rfl⟩ | ⟨-, rfl⟩⟩ := reply_recv h <;> exact hn
  | execute module message response => rw [reply_execute h]; exact hn
  | log entry => rwa [reply_log h]
  | updatePersistentResponse module response sender =>
    have hs' : s' = (s.update t module response sender).2 := by rw [reply_update h]
    obtain ⟨state, hstate, -, hchannels⟩ := update_channels t s module response sender
    rw [hs', settled_congr hchannels]
    exact hn.setSender fun _ => hstate
  | drop sender =>
    rw [reply_drop h]
    exact hn.setSender fun _ => drop_ne_waiting _
  | exit => rw [reply_exit h]; exact hn

/-- The requests that use up a sender. -/
theorem settled_of_drop (hn : n < s.channels.length) {r : Unit}
    (h : reply t s (.drop (some n)) l = some (r, s')) : Settled s' n := by
  rw [reply_drop h]
  exact settled_setSender hn (drop_ne_waiting _)

theorem settled_of_update (hn : n < s.channels.length) {module : String} {response : Option String}
    {r : Except ResponseAnswer.ExecutorError Unit}
    (h : reply t s (.updatePersistentResponse module response (some n)) l = some (r, s')) :
    Settled s' n := by
  have hs' : s' = (s.update t module response (some n)).2 := by rw [reply_update h]
  obtain ⟨state, hstate, -, hchannels⟩ := update_channels t s module response (some n)
  rw [hs', settled_congr hchannels]
  exact settled_setSender hn hstate

end settled

/-- Where the message of a channel that is not settled is. -/
structure Kept (s : Server T) : Prop where
  opened : ∀ t pool q n, (t, .sent pool q) ∈ s.history → q.responseSender = some n →
    n < s.channels.length
  order : InOrder s
  custody : ∀ t pool q n, (t, .sent pool q) ∈ s.history → q.responseSender = some n →
    ¬ Settled s n → (∃ pool, q ∈ s.queues pool) ∨ ∃ u, heldBy u s.history = some q
  present : ∀ n, n < s.channels.length → s.senderOf (some n) ≠ .absent

/-- What the thread took last is dealt with. -/
def Free (t : T) (s : Server T) : Prop :=
  ∀ q n, heldBy t s.history = some q → q.responseSender = some n → Settled s n

def Stands (t : T) (s : Server T) : Request → Prop
  | .recv _ => Free t s
  | .trySend _ q => ∀ n, q.responseSender = some n → n < s.channels.length
  | .receive n => Free t s ∧ n < s.channels.length ∧
      (Settled s n ∨ ∃ u pool q, (u, .sent pool q) ∈ s.history ∧ q.responseSender = some n)
  | _ => True

section kept
variable {s s' : Server T} {t u : T} {l : Label} {e : Request} {r : e.Reply}

theorem reply_length (h : reply t s e l = some (r, s')) : s.channels.length ≤ s'.channels.length := by
  cases e with
  | now => rw [reply_now h]
  | readCache webhook => rw [(reply_readCache h).2]
  | writeCache webhook stamp body => rw [reply_writeCache h]; exact le_refl _
  | getPersistentResponseData module => rw [(reply_getPersistentResponseData h).2]
  | channel =>
    rw [(reply_channel h).2, Server.openChannel, List.length_append]
    exact Nat.le_add_right _ _
  | readBody maxSize => rw [(reply_readBody h).2]
  | newId => rw [reply_newId h]
  | trySend pool q =>
    obtain ⟨-, rfl⟩ | ⟨-, rfl⟩ := reply_trySend h
    · exact le_refl _
    · rw [Server.dropSender, length_setSender]
  | receive channel => rw [(reply_receive h).1]
  | recv pool =>
    obtain ⟨-, ⟨q, queue, -, -, rfl⟩ | ⟨-, rfl⟩⟩ := reply_recv h <;> exact le_refl _
  | execute module message response => rw [reply_execute h]; exact le_refl _
  | log entry => rw [reply_log h]
  | updatePersistentResponse module response sender =>
    have hs' : s' = (s.update t module response sender).2 := by rw [reply_update h]
    obtain ⟨state, -, -, hchannels⟩ := update_channels t s module response sender
    rw [hs', hchannels, length_setSender]
  | drop sender => rw [reply_drop h, Server.dropSender, length_setSender]
  | exit => rw [reply_exit h]

/-- Only a thread that receives changes what it holds. -/
theorem reply_heldBy (h : reply t s e l = some (r, s')) (hu : u ≠ t ∨ ∀ pool, e ≠ .recv pool) :
    heldBy u s'.history = heldBy u s.history := by
  obtain hsame | ⟨event, hnew, hnoted⟩ := reply_history h
  · rw [hsame]
  · rw [hnew]
    obtain hu | hu := hu
    · exact heldBy_other hu
    · refine heldBy_idle fun pool q hevent => ?_
      subst hevent
      cases e with
      | recv pool' => exact hu pool' rfl
      | _ => exact hnoted

/-- Only a thread that receives takes something out of a queue. -/
theorem reply_queued (h : reply t s e l = some (r, s')) (he : ∀ pool, e ≠ .recv pool) {pool : Pool}
    {q : Queued} (hq : q ∈ s.queues pool) : q ∈ s'.queues pool := by
  cases e with
  | now => rwa [reply_now h]
  | readCache webhook => rwa [(reply_readCache h).2]
  | writeCache webhook stamp body => rw [reply_writeCache h]; exact hq
  | getPersistentResponseData module => rwa [(reply_getPersistentResponseData h).2]
  | channel => rw [(reply_channel h).2]; exact hq
  | readBody maxSize => rwa [(reply_readBody h).2]
  | newId => rwa [reply_newId h]
  | trySend pool' q' =>
    obtain ⟨-, rfl⟩ | ⟨-, rfl⟩ := reply_trySend h
    · simp only [Server.enqueue, Server.record, Function.update_apply]
      split
      · rename_i hpool
        exact List.mem_append_left _ (hpool ▸ hq)
      · exact hq
    · rwa [Server.dropSender, setSender_queues]
  | receive channel => rwa [(reply_receive h).1]
  | recv pool' => exact absurd rfl (he pool')
  | execute module message response => rw [reply_execute h]; exact hq
  | log entry => rwa [reply_log h]
  | updatePersistentResponse module response sender =>
    have hs' : s' = (s.update t module response sender).2 := by rw [reply_update h]
    rwa [hs', (update_frame t s sender module response).1]
  | drop sender => rwa [reply_drop h, Server.dropSender, setSender_queues]
  | exit => rwa [reply_exit h]

/-- What is sent is in its queue. -/
theorem reply_sent (h : reply t s e l = some (r, s')) {pool : Pool} {q : Queued}
    (hq : (u, .sent pool q) ∈ s'.history) :
    (u, .sent pool q) ∈ s.history ∨ e = .trySend pool q ∧ q ∈ s'.queues pool := by
  obtain hsame | ⟨event, hnew, hnoted⟩ := reply_history h
  · exact .inl (hsame ▸ hq)
  · rw [hnew] at hq
    rcases mem_record hq with hq | ⟨rfl, hevent⟩
    · exact .inl hq
    · subst hevent
      cases e with
      | trySend pool' q' =>
        obtain ⟨rfl, rfl⟩ := hnoted
        obtain ⟨-, rfl⟩ | ⟨-, rfl⟩ := reply_trySend h
        · exact .inr ⟨rfl, by simp [Server.enqueue, Server.record]⟩
        · rw [Server.dropSender, setSender_history] at hnew
          exact absurd (congrArg List.length hnew) (by simp)
      | _ => exact hnoted.elim

omit [DecidableEq T] in
/-- The channels that are there have a state. -/
theorem present_setSender (hs : ∀ n, n < s.channels.length → s.senderOf (some n) ≠ .absent)
    {sender : Option ℕ} {state : ResponseSender} (hstate : s.senderOf sender ≠ .absent → state ≠ .absent)
    {n : ℕ} (hn : n < (s.setSender sender state).channels.length) :
    (s.setSender sender state).senderOf (some n) ≠ .absent := by
  rw [length_setSender] at hn
  obtain hsame | ⟨rfl, hset⟩ := senderOf_setSender (s := s) sender state n
  · rw [hsame]
    exact hs n hn
  · rw [hset]
    exact hstate (hs n hn)

/-- A channel that is there stays there. -/
theorem reply_present (hs : ∀ n, n < s.channels.length → s.senderOf (some n) ≠ .absent)
    (h : reply t s e l = some (r, s')) (n : ℕ) (hn : n < s'.channels.length) :
    s'.senderOf (some n) ≠ .absent := by
  have hdrop : ∀ sender, n < (s.dropSender sender).channels.length →
      (s.dropSender sender).senderOf (some n) ≠ .absent :=
    fun sender hn => present_setSender hs (mt drop_eq_absent) hn
  cases e with
  | now => rw [reply_now h] at hn ⊢; exact hs n hn
  | readCache webhook => rw [(reply_readCache h).2] at hn ⊢; exact hs n hn
  | writeCache webhook stamp body => rw [reply_writeCache h] at hn ⊢; exact hs n hn
  | getPersistentResponseData module =>
    rw [(reply_getPersistentResponseData h).2] at hn ⊢
    exact hs n hn
  | channel =>
    rw [(reply_channel h).2] at hn ⊢
    simp only [Server.openChannel, Server.senderOf, List.length_append, List.length_singleton] at hn ⊢
    rcases Nat.lt_succ_iff_lt_or_eq.mp hn with hlt | rfl
    · rw [List.getElem?_append_left hlt]
      exact hs n hlt
    · simp
  | readBody maxSize => rw [(reply_readBody h).2] at hn ⊢; exact hs n hn
  | newId => rw [reply_newId h] at hn ⊢; exact hs n hn
  | trySend pool q =>
    obtain ⟨-, rfl⟩ | ⟨-, rfl⟩ := reply_trySend h
    · exact hs n hn
    · exact hdrop _ hn
  | receive channel => rw [(reply_receive h).1] at hn ⊢; exact hs n hn
  | recv pool =>
    obtain ⟨-, ⟨q, queue, -, -, rfl⟩ | ⟨-, rfl⟩⟩ := reply_recv h <;> exact hs n hn
  | execute module message response => rw [reply_execute h] at hn ⊢; exact hs n hn
  | log entry => rw [reply_log h] at hn ⊢; exact hs n hn
  | updatePersistentResponse module response sender =>
    have hs' : s' = (s.update t module response sender).2 := by rw [reply_update h]
    obtain ⟨state, -, hstate, hchannels⟩ := update_channels t s module response sender
    have hsender : s'.senderOf (some n) = (s.setSender sender state).senderOf (some n) := by
      rw [hs']
      simp only [Server.senderOf, hchannels]
    rw [hsender]
    exact present_setSender hs hstate (by rwa [hs', hchannels] at hn)
  | drop sender => rw [reply_drop h] at hn ⊢; exact hdrop _ hn
  | exit => rw [reply_exit h] at hn ⊢; exact hs n hn

theorem Kept.reply (hs : Kept s) (hp : Stands t s e) (h : reply t s e l = some (r, s')) :
    Kept s' := by
  constructor
  case opened =>
    intro u pool q n hq hn
    rcases reply_sent h hq with hold | ⟨rfl, -⟩
    · exact (hs.opened u pool q n hold hn).trans_le (reply_length h)
    · exact (hp n hn).trans_le (reply_length h)
  case order => exact hs.order.reply h
  case present => exact reply_present hs.present h
  case custody =>
    intro v pool q n hq hn hsettled
    rcases reply_sent h hq with hold | ⟨-, hqueue⟩
    · have hc := hs.custody v pool q n hold hn fun hset => hsettled (hset.reply h)
      by_cases he : ∀ pool, e ≠ .recv pool
      · exact hc.imp (fun ⟨pool, hq⟩ => ⟨pool, reply_queued h he hq⟩)
          fun ⟨u, hu⟩ => ⟨u, by rw [reply_heldBy h (.inr he), hu]⟩
      · simp only [ne_eq, not_forall, not_not] at he
        obtain ⟨pool₀, rfl⟩ := he
        obtain ⟨-, ⟨q₀, queue, hq₀, -, rfl⟩ | ⟨-, rfl⟩⟩ := reply_recv h
        · obtain ⟨pool', hq'⟩ | ⟨u, hu⟩ := hc
          · by_cases hpool : pool' = pool₀
            · subst hpool
              rw [hq₀] at hq'
              rcases List.mem_cons.mp hq' with rfl | hq'
              · exact .inr ⟨t, heldBy_took _ _⟩
              · exact .inl ⟨pool', by simpa [Server.dequeue, Server.record] using hq'⟩
            · exact .inl ⟨pool', by simpa [Server.dequeue, Server.record, hpool] using hq'⟩
          · by_cases hut : u = t
            · subst hut
              exact absurd ((hp q n hu hn).reply h) hsettled
            · exact .inr ⟨u, by rw [reply_heldBy h (.inl hut), hu]⟩
        · exact hc
    · exact .inl ⟨pool, hqueue⟩

end kept

variable (cfg : Config)

/-- Between its calls a thread keeps no message, and what the others do settles channels only. -/
def waiting : Contract (system (T := T) cfg) where
  Inv s := Kept s
  Rely t s s' := heldBy t s'.history = heldBy t s.history ∧ (∀ n, Settled s n → Settled s' n) ∧
    s.channels.length ≤ s'.channels.length ∧ s.history ⊆ s'.history
  Ready t s := Free t s
  At t e s := Stands t s e
  Ends t _ _ _ s := Free t s
  rely_refl _ _ := ⟨rfl, fun _ h => h, le_refl _, List.Subset.refl _⟩
  rely_trans _ _ _ _ h h' := ⟨h'.1.trans h.1, fun n hn => h'.2.1 n (h.2.1 n hn),
    h.2.2.1.trans h'.2.2.1, List.Subset.trans h.2.2.2 h'.2.2.2⟩
  ready_stable _ _ _ h hs := fun q n hq hn => h.2.1 n (hs q n (h.1 ▸ hq) hn)
  at_stable t e s s' h hs := by
    have hfree : Free t s → Free t s' := fun hs q n hq hn => h.2.1 n (hs q n (h.1 ▸ hq) hn)
    cases e with
    | recv pool => exact hfree hs
    | trySend pool q => exact fun n hn => (hs n hn).trans_le h.2.2.1
    | receive n =>
      obtain ⟨hf, hn, hsent⟩ := hs
      refine ⟨hfree hf, hn.trans_le h.2.2.1, hsent.imp (h.2.1 n) fun hsent => ?_⟩
      obtain ⟨u, pool, q, hq, hqn⟩ := hsent
      exact ⟨u, pool, q, h.2.2.2 hq, hqn⟩
    | _ => exact trivial
  ends_stable _ _ _ _ _ _ h hs := fun q n hq hn => h.2.1 n (hs q n (h.1 ▸ hq) hn)
  ends_ready _ _ _ _ _ h := h

variable {cfg}

section safe
variable {α : Type} {t : T} {Q : α → Notes → Server T → Prop} {p : Program α} {g : Notes}
  {s s' : Server T}

theorem Free.stable (h : Free t s) (hrely : (waiting cfg).Rely t s s') : Free t s' :=
  fun q n hq hn => hrely.2.1 n (h q n (hrely.1 ▸ hq) hn)

/-- What a thread does itself, as long as it does not receive, is like what others do. -/
theorem rely_of_reply {u : T} {e : Request} {l : Label} {r : e.Reply}
    (h : reply t s e l = some (r, s')) (hu : u ≠ t ∨ ∀ pool, e ≠ .recv pool) :
    (waiting cfg).Rely u s s' :=
  ⟨reply_heldBy h hu, fun _ hn => hn.reply h, reply_length h, subset_of_reply h⟩

theorem safe_request {e : Request} {next : e.Reply → Program α} (hp : Stands t s e)
    (h : ∀ s₁ l r s₂, (waiting cfg).Rely t s s₁ → Kept s₁ → Kept s₂ →
      reply t s₁ e l = some (r, s₂) → (waiting cfg).Safe t Q (next r) (note g e r) s₂) :
    (waiting cfg).Safe t Q (.request e next) g s := by
  refine ⟨hp, fun s₁ l r s₂ hrely hkept hreply => ?_⟩
  have hkept₂ := hkept.reply ((waiting cfg).at_stable t e s s₁ hrely hp) hreply
  exact ⟨hkept₂, fun u hu => rely_of_reply hreply (.inl hu), h s₁ l r s₂ hrely hkept hkept₂ hreply⟩

/-- A request that is no receiving, seen from what was known before. -/
theorem step_request {e : Request} {next : e.Reply → Program α} (hp : Stands t s e)
    (he : ∀ pool, e ≠ .recv pool)
    (h : ∀ s₁ l r s₂, reply t s₁ e l = some (r, s₂) → (waiting cfg).Rely t s s₁ →
      (waiting cfg).Rely t s s₂ → (waiting cfg).Safe t Q (next r) (note g e r) s₂) :
    (waiting cfg).Safe t Q (.request e next) g s :=
  safe_request hp fun s₁ l r s₂ hrely _ _ hreply =>
    h s₁ l r s₂ hreply hrely
      ((waiting cfg).rely_trans t s s₁ s₂ hrely (rely_of_reply hreply (.inr he)))

/-- Requests about which nothing has to be known. -/
def Plain : Request → Prop
  | .recv _ | .receive _ => False
  | .trySend _ q => q.responseSender = none
  | _ => True

theorem Plain.stands {e : Request} (h : Plain e) : Stands t s e := by
  cases e with
  | trySend pool q =>
    intro n hn
    rw [show q.responseSender = none from h] at hn
    cases hn
  | recv pool => exact h.elim
  | receive n => exact h.elim
  | _ => exact trivial

theorem plain_safe (hp : p.Uses Plain) (hQ : ∀ a g s', (waiting cfg).Rely t s s' → Q a g s') :
    (waiting cfg).Safe t Q p g s := by
  induction p generalizing g s with
  | done a => exact hQ a g s ((waiting cfg).rely_refl t s)
  | request e next ih =>
    refine step_request hp.1.stands (fun pool he => ?_) fun s₁ l r s₂ _ _ hrely => ?_
    · have hplain := hp.1
      rw [he] at hplain
      exact hplain
    · exact ih r (hp.2 r) fun a g s' h => hQ a g s' ((waiting cfg).rely_trans t s s₂ s' hrely h)

section round
variable {sender : Option ℕ}

/-- The channel is open, or there is none. -/
def Opened (s : Server T) (sender : Option ℕ) : Prop := ∀ n, sender = some n → n < s.channels.length

/-- The sender is used or dropped. -/
def Released (s : Server T) (sender : Option ℕ) : Prop := ∀ n, sender = some n → Settled s n

theorem Opened.stable (h : Opened s sender) (hrely : (waiting cfg).Rely t s s') : Opened s' sender :=
  fun n hn => (h n hn).trans_le hrely.2.2.1

theorem Released.stable (h : Released s sender) (hrely : (waiting cfg).Rely t s s') :
    Released s' sender := fun n hn => hrely.2.1 n (h n hn)

theorem drop_safe (ho : Opened s sender) {a : α}
    (hQ : ∀ g s', Released s' sender → (waiting cfg).Rely t s s' → Q a g s') :
    (waiting cfg).Safe t Q (do Prog.perform (Request.drop sender); pure a) g s := by
  refine step_request trivial nofun fun s₁ l r s₂ hdrop hrely₁ hrely₂ => hQ _ s₂ (fun n hn => ?_) hrely₂
  subst hn
  exact settled_of_drop (ho.stable hrely₁ n rfl) hdrop

/-- However an execution ends, the sender is used up. -/
theorem conclude_safe {message : Message} {module : PlaidModule} {response : Option String}
    {x : ResponseAnswer.Execution} (ho : Opened s sender) :
    (waiting cfg).Safe t (fun _ _ s' => Released s' sender ∧ (waiting cfg).Rely t s s')
      (concludeExecution cfg message sender module response x) g s := by
  have herror : ∀ name text data, (waiting cfg).Safe t
      (fun _ _ s' => Released s' sender ∧ (waiting cfg).Rely t s s')
      (logModuleError name text data sender) g s := by
    intro name text data
    refine step_request trivial nofun fun s₁ l r s₂ _ _ hrely => ?_
    have hrest : ∀ result : Except ResponseAnswer.ExecutorError Unit, (waiting cfg).Safe t
        (fun _ _ s' => Released s' sender ∧ (waiting cfg).Rely t s s')
        (do Prog.perform (Request.drop sender); pure result)
        (note g (.log (.moduleError name text data)) r) s₂ := fun result =>
      drop_safe (ho.stable hrely) fun g s' hs' h =>
        ⟨hs', (waiting cfg).rely_trans t s s₂ s' hrely h⟩
    cases r with
    | ok u => exact hrest _
    | error e => exact hrest _
  unfold concludeExecution
  split
  · exact herror _ _ _
  · dsimp only
    split
    · exact herror _ _ _
    · have hlog : ∀ name env, (logReturned name env).Uses Plain := by
        intro name env
        unfold logReturned
        split
        · exact Prog.Uses.bind (Prog.uses_perform trivial) fun _ => trivial
        · exact trivial
      refine Contract.Safe.bind (plain_safe (hlog _ _) fun _ g s₁ hrely₁ => ?_)
      refine step_request trivial nofun fun s₂ l r s₃ hupdate hrely₂ hrely₃ => ?_
      have hreleased : Released s₃ sender := by
        intro n hn
        subst hn
        exact settled_of_update ((ho.stable hrely₁).stable hrely₂ n rfl) hupdate
      have hrely := (waiting cfg).rely_trans t s s₁ s₃ hrely₁ hrely₃
      cases r with
      | ok u => exact ⟨hreleased, hrely⟩
      | error e =>
        refine step_request trivial nofun fun _ _ _ s₄ _ _ hrely₄ => ?_
        exact ⟨hreleased.stable hrely₄, (waiting cfg).rely_trans t s s₃ s₄ hrely hrely₄⟩

theorem process_safe {message : Message} {module : PlaidModule} (ho : Opened s sender) :
    (waiting cfg).Safe t (fun _ _ s' => Released s' sender ∧ (waiting cfg).Rely t s s')
      (processMessageWithModule cfg message sender module) g s := by
  refine step_request trivial nofun fun s₁ l response s₂ _ _ hrely₂ => ?_
  refine step_request trivial nofun fun s₃ l x s₄ _ _ hrely₄ => ?_
  have hrely := (waiting cfg).rely_trans t s s₂ s₄ hrely₂ hrely₄
  exact Contract.Safe.mono (conclude_safe (ho.stable hrely)) fun _ _ s' h =>
    ⟨h.1, (waiting cfg).rely_trans t s s₄ s' hrely h.2⟩

theorem runMessage_safe {q : Queued} (ho : Opened s q.responseSender) :
    (waiting cfg).Safe t (fun _ _ s' => Released s' q.responseSender ∧ (waiting cfg).Rely t s s')
      (runMessage cfg q) g s := by
  unfold runMessage
  split
  · exact Contract.Safe.bind (Contract.Safe.mono (process_safe ho) fun _ _ _ h => h)
  · have hplain : ∀ message modules, (processWithModules cfg message modules).Uses Plain :=
      fun message modules => (uses_processWithModules q message modules).mono fun e he => by
        cases e <;> first | exact trivial | exact he.elim
    refine Contract.Safe.bind (plain_safe (hplain _ _) fun result g s₁ hrely => ?_)
    exact drop_safe (ho.stable hrely) fun g s' hs' h =>
      ⟨hs', (waiting cfg).rely_trans t s s₁ s' hrely h⟩
  · exact drop_safe ho fun g s' hs' h => ⟨hs', h⟩

/-- A round ends with nothing left in hand. -/
theorem round_safe {pool : Pool} (hfree : Free t s) :
    (waiting cfg).Safe t (fun _ _ s' => Free t s') (executionRound cfg pool) g s := by
  refine safe_request hfree fun s₁ l r s₂ hrely hkept _ hreply => ?_
  obtain ⟨-, ⟨q, queue, hq, rfl, rfl⟩ | ⟨rfl, rfl⟩⟩ := reply_recv hreply
  · have hheld : heldBy t (s₁.dequeue t pool q queue).history = some q := heldBy_took pool q
    have ho : Opened (s₁.dequeue t pool q queue) q.responseSender := by
      intro n hn
      have hsent : q ∈ sentTo pool s₁.history := by
        rw [hkept.order pool, hq]
        exact List.mem_append_right _ List.mem_cons_self
      obtain ⟨u, hu⟩ := mem_sentTo.mp hsent
      exact hkept.opened u pool q n hu hn
    refine Contract.Safe.mono (runMessage_safe ho) fun _ _ s' h q' n hq' hn => ?_
    rw [h.2.1, hheld] at hq'
    cases hq'
    exact h.1 n hn
  · exact hfree.stable hrely

theorem thread_safe {pool : Pool} (hfree : Free t s) :
    (waiting cfg).Safe t (fun _ _ s' => Free t s') (executionThread cfg pool) g s := by
  refine Contract.Safe.bind (Contract.Safe.mono (round_safe hfree) fun r g s' hs' => ?_)
  cases r with
  | none => exact hs'
  | some result => exact step_request trivial nofun fun _ _ _ s₂ _ _ hrely => hs'.stable hrely

end round

section handlers
variable {req : GetRequest}

theorem callRule_safe {conf : WebhookConfig} {name : String} {rule : PlaidModule} {update : Bool}
    (hfree : Free t s) :
    (waiting cfg).Safe t (fun _ _ s' => Free t s') (callRule conf req name rule update) g s := by
  refine step_request trivial (by simp) fun s₁ l n s₂ hchannel hrely₁ hrely₂ => ?_
  have ho : n < s₂.channels.length := by
    obtain ⟨rfl, rfl⟩ := reply_channel hchannel
    simp [Server.openChannel]
  have hfree₂ := hfree.stable hrely₂
  refine step_request trivial (by simp) fun s₃ l body s₄ _ _ hrely₄ => ?_
  have hfree₄ := hfree₂.stable hrely₄
  cases body with
  | error e => exact step_request trivial (by simp) fun _ _ _ s₅ _ _ hrely => hfree₄.stable hrely
  | ok body =>
    refine step_request trivial (by simp) fun s₅ l id s₆ _ _ hrely₆ => ?_
    have hfree₆ := hfree₄.stable hrely₆
    have ho₆ := (ho.trans_le hrely₄.2.2.1).trans_le hrely₆.2.2.1
    refine step_request (fun m hm => ?_) (by simp) fun s₇ l tried s₈ htry hrely₇ hrely₈ => ?_
    · cases hm
      exact ho₆
    · have hfree₈ := hfree₆.stable hrely₈
      -- the message is under way, or it was dropped and its sender with it
      have hsent : Settled s₈ n ∨
          ∃ u pool q, (u, .sent pool q) ∈ s₈.history ∧ q.responseSender = some n := by
        obtain ⟨-, rfl⟩ | ⟨-, rfl⟩ := reply_trySend htry
        · exact .inr ⟨t, none, _, List.mem_append_right _ (List.mem_singleton.mpr rfl), rfl⟩
        · exact .inl (settled_setSender (ho₆.trans_le hrely₇.2.2.1) (drop_ne_waiting _))
      have hawait : ∀ g, (waiting cfg).Safe t (fun _ _ s' => Free t s')
          (do let response ← Prog.perform (Request.receive n); servePage req.webhook update response)
          g s₈ := by
        intro g
        refine step_request ⟨hfree₈, ho₆.trans_le hrely₈.2.2.1, hsent⟩ (by simp)
          fun s₉ l r s₁₀ _ _ hrely₁₀ => ?_
        refine plain_safe (p := servePage req.webhook update r) ?_ fun a g s' h =>
          (hfree₈.stable hrely₁₀).stable h
        unfold servePage
        split
        · split
          · exact Prog.Uses.bind (Prog.uses_perform trivial) fun _ =>
              Prog.Uses.bind (Prog.uses_perform trivial) fun _ => trivial
          · exact trivial
        · exact trivial
        · exact trivial
      cases tried with
      | error e =>
        cases e with
        | disconnected => exact hfree₈
        | full => exact hawait _
      | ok _ => exact hawait _

theorem getHandler_safe (hfree : Free t s) :
    (waiting cfg).Safe t (fun _ _ s' => Free t s') (getHandler cfg req) g s := by
  unfold getHandler
  split
  · exact hfree
  · split
    · exact hfree
    · exact hfree
    · rename_i conf _ _ mode name _
      split
      · exact hfree
      · rename_i rule _
        refine step_request trivial nofun fun s₁ l now s₂ _ _ hrely₂ => ?_
        have hcache : (consultCache req.webhook rule now mode).Uses Plain := by
          unfold consultCache
          split
          · refine Prog.Uses.bind (Prog.uses_perform trivial) fun cached => ?_
            split
            · split <;> exact trivial
            · exact trivial
          · exact trivial
          · refine Prog.Uses.bind (Prog.uses_perform trivial) fun data => ?_
            split
            · exact trivial
            · split <;> exact trivial
        refine Contract.Safe.bind (p := consultCache req.webhook rule now mode)
          (plain_safe hcache fun d g s₃ hrely₃ => ?_)
        have hfree₃ := (hfree.stable hrely₂).stable hrely₃
        cases d with
        | page body => exact hfree₃
        | call update => exact callRule_safe hfree₃
    · exact hfree

theorem code_safe (c : Call) (hfree : Free t s) :
    (waiting cfg).Safe t ((waiting cfg).Ends t c) (code cfg c) g s := by
  have hforwards : ∀ {p : Program Outcome}, p.Uses Forwards →
      (waiting cfg).Safe t (fun _ _ s' => Free t s') p g s := by
    intro p hp
    refine plain_safe (hp.mono fun e he => ?_) fun _ _ _ hrely => hfree.stable hrely
    cases e <;> first | exact trivial | exact he
  cases c with
  | get req => exact getHandler_safe hfree
  | post req => exact hforwards (uses_postHandler req)
  | produce type_ data source logbacks => exact hforwards (uses_produce type_ data source logbacks)
  | work pool => exact thread_safe hfree

end handlers
end safe

/-- The thread is idle, or it waits for a message or an answer. -/
def AtRest : Option (Thread Request Request.Reply Call Outcome Notes) → Bool
  | none => true
  | some ⟨_, .done _, _⟩ => true
  | some ⟨_, .request (.recv _) _, _⟩ => true
  | some ⟨_, .request (.receive _) _, _⟩ => true
  | _ => false

theorem free_of_atRest {σ : Config Request Request.Reply (Server T) Call Outcome Notes T}
    (h : (waiting cfg).Good σ) {u : T} (hu : AtRest (σ.threads u) = true) : Free u σ.shared := by
  have hholds := h.holds u
  generalize σ.threads u = th at hu hholds
  match th, hu, hholds with
  | none, _, hholds => exact hholds
  | some ⟨_, .done _, _⟩, _, hholds => exact hholds
  | some ⟨_, .request (.recv _) _, _⟩, _, hholds => exact hholds.1
  | some ⟨_, .request (.receive _) _, _⟩, _, hholds => exact hholds.1.1

theorem fresh_kept {σ : Config Request Request.Reply (Server T) Call Outcome Notes T}
    (h : Fresh σ) : Kept σ.shared := by
  have hnone : ∀ e, e ∉ σ.shared.history := by
    intro e he
    rw [h.booted.history] at he
    cases he
  constructor
  case opened => exact fun t pool q n hq => absurd hq (hnone _)
  case order =>
    intro pool
    rw [h.booted.history, h.booted.queues]
    rfl
  case custody => exact fun t pool q n hq => absurd hq (hnone _)
  case present =>
    intro n hn
    rw [h.channels] at hn
    cases hn

/-- When the queues are empty and no thread has anything to do but wait, every GET that waits has
its answer: the rule has sent it, or the sender was dropped. -/
theorem no_get_left_waiting {σ τ : Config Request Request.Reply (Server T) Call Outcome Notes T}
    {as : List (Action Label Call T)} (hf : Fresh σ) (hr : (system cfg).run σ as = some τ)
    (hqueues : ∀ pool, τ.shared.queues pool = []) (hrest : ∀ u, AtRest (τ.threads u) = true) {t : T}
    {c : Call} {n : ℕ} {next : Except Unit (Option ResponseMessage) → Program Outcome} {g : Notes}
    (ht : τ.threads t = some ⟨c, .request (.receive n) next, g⟩) :
    ((system cfg).next τ (.step t .done)).isSome = true := by
  have hstart : (waiting cfg).Good σ := by
    refine ⟨fresh_kept hf, fun u => ?_⟩
    rw [hf.booted.threads]
    intro q n hq
    rw [hf.booted.history] at hq
    cases hq
  have hgood := Contract.good_run (fun t c s _ hfree => code_safe c hfree) hstart hr
  obtain ⟨-, hn, hsent⟩ := hgood.stands ht
  have hsettled : Settled τ.shared n := by
    by_contra hwaiting
    obtain hset | ⟨u, pool, q, hq, hqn⟩ := hsent
    · exact hwaiting hset
    · obtain ⟨pool', hqueue⟩ | ⟨v, hv⟩ := hgood.inv.custody u pool q n hq hqn hwaiting
      · rw [hqueues] at hqueue
        cases hqueue
      · exact hwaiting (free_of_atRest hgood (hrest v) q n hv hqn)
  have hpresent := hgood.inv.present n hn
  have hreply : (WebhookServer.reply t τ.shared (.receive n) .done).isSome = true := by
    simp only [WebhookServer.reply]
    split
    · rfl
    · rfl
    · rename_i hsent hdropped
      cases hstate : τ.shared.senderOf (some n) with
      | absent => exact absurd hstate hpresent
      | waiting => exact absurd hstate hsettled.2
      | sent response => exact absurd hstate (hsent response)
      | dropped => exact absurd hstate hdropped
  simp only [System.next, ht]
  rw [Option.isSome_map]
  exact hreply

section instances

theorem no_get_left_waiting_sample : ∃ τ, (system pingConfig).run pingServer pingWaits = some τ ∧
    ((system pingConfig).next τ (.step true .done)).isSome = true := by
  obtain ⟨next, g, hthread⟩ : ∃ next g,
      ((system pingConfig).run pingServer pingWaits).map (fun τ => τ.threads true) =
        some (some ⟨.get pingRequest, .request (.receive 0) next, g⟩) := ⟨_, _, rfl⟩
  obtain ⟨τ, hτ, ht⟩ := Option.map_eq_some_iff.mp hthread
  have hqueues : ∀ pool, τ.shared.queues pool = [] := by
    intro pool
    have hempty : ((system pingConfig).run pingServer pingWaits).map
        (fun τ => τ.shared.queues pool) = some [] := by cases pool <;> rfl
    rw [hτ] at hempty
    exact Option.some.inj hempty
  have hrest : ∀ u, AtRest (τ.threads u) = true := by
    intro u
    have hquiet : ((system pingConfig).run pingServer pingWaits).map
        (fun τ => AtRest (τ.threads u)) = some true := by cases u <;> rfl
    rw [hτ] at hquiet
    exact Option.some.inj hquiet
  exact ⟨τ, hτ, no_get_left_waiting ping_fresh hτ hqueues hrest ht⟩

end instances

end PlaidRuntime.WebhookWaiting
