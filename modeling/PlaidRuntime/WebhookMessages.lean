import PlaidRuntime.WebhookAnswers

/-!
# What a request sends to the rules

A request hands over one message at most: its own, with the configured headers and nothing else of
the request's head.
-/
namespace PlaidRuntime.WebhookMessages
open EffectProgram GuestMemory LockMonitor ThreadPools WebhookHandlers WebhookServer
open WebhookAnswers (Ruled)
open LogbackMessage hiding Env
open ResponseAnswer (ResponseMessage)

/-- The requested headers that were sent, under the names asked for. -/
def Carries (conf : WebhookConfig) (headers : HeaderMap) (message : Message) : Prop :=
  ∀ name, message.headers.lookup name = if name ∈ conf.headers then headers.get name else none

structure PostMessage (conf : WebhookConfig) (req : PostRequest) (message : Message) : Prop where
  type_ : message.type_ = conf.logType
  source : message.source = .webhookPost (conf.label.getD req.webhook)
  budget : message.logbacksAllowed = conf.logbacksAllowed
  data : message.data.length ≤ conf.maxBodySize
  headers : Carries conf req.headers message
  query : ∀ key, message.queryParams.lookup key = none
  module : message.module = none

structure GetMessage (conf : WebhookConfig) (name : String) (rule : PlaidModule) (req : GetRequest)
    (message : Message) : Prop where
  type_ : message.type_ = name
  source : message.source = .webhookGet (conf.label.getD req.webhook)
  budget : message.logbacksAllowed = conf.logbacksAllowed
  data : message.data.length ≤ conf.maxBodySize
  headers : Carries conf req.headers message
  query : ∀ key, message.queryParams.lookup key = (req.query.lookup key).map asBytes
  module : message.module = some rule

section messages
variable {conf : WebhookConfig} {body : Bytes}

theorem carries_insertHeaders {headers : HeaderMap} {message : Message}
    (hnone : ∀ name, message.headers.lookup name = none) :
    Carries conf headers (insertHeaders conf headers message) := by
  intro name
  rw [lookup_insertHeaders, hnone]
  by_cases hname : name ∈ conf.headers
  · cases hget : headers.get name <;> simp [hname]
  · simp [hname]

theorem postMessage_spec {req : PostRequest} (id : String)
    (hbody : body.length ≤ conf.maxBodySize) :
    PostMessage conf req (postMessage req.webhook conf req.headers id body) := by
  have hheaders : Carries conf req.headers (postMessage req.webhook conf req.headers id body) :=
    carries_insertHeaders fun name => rfl
  constructor
  case headers => exact hheaders
  case data =>
    rw [postMessage, insertHeaders_eq]
    exact hbody
  case type_ => rw [postMessage, insertHeaders_eq]; rfl
  case source => rw [postMessage, insertHeaders_eq]; rfl
  case budget => rw [postMessage, insertHeaders_eq]; rfl
  case query => rw [postMessage, insertHeaders_eq]; exact fun key => rfl
  case module => rw [postMessage, insertHeaders_eq]; rfl

theorem getMessage_spec {name : String} {rule : PlaidModule} {req : GetRequest} (id : String)
    (hbody : body.length ≤ conf.maxBodySize) :
    GetMessage conf name rule req (getMessage req.webhook conf name rule req id body) := by
  have hheaders : Carries conf req.headers (getMessage req.webhook conf name rule req id body) :=
    carries_insertHeaders fun name => rfl
  constructor
  case headers => exact hheaders
  case data =>
    rw [getMessage, insertHeaders_eq]
    exact hbody
  case query =>
    rw [getMessage, insertHeaders_eq]
    exact lookup_queryParams req.query
  case type_ => rw [getMessage, insertHeaders_eq]; rfl
  case source => rw [getMessage, insertHeaders_eq]; rfl
  case budget => rw [getMessage, insertHeaders_eq]; rfl
  case module => rw [getMessage, insertHeaders_eq]

end messages

/-- What a GET hands over: nothing, or one message for its rule. -/
def GetSends (cfg : WebhookHandlers.Config) (req : GetRequest) (g : Notes) : Prop :=
  g.tried = [] ∨ ∃ conf mode name rule, Ruled cfg req.webhook conf mode name rule ∧
    mode ≠ .usePersistentResponse false ∧ ∃ m n r,
      g.tried = [(none, ⟨m, some n⟩, r)] ∧ GetMessage conf name rule req m

/-- What a POST hands over, and the status code that it is answered with. -/
def PostSends (cfg : WebhookHandlers.Config) (req : PostRequest) (outcome : Outcome) (g : Notes) :
    Prop :=
  g.tried = [] ∧ outcome = .status 200 ∨
  ∃ conf, cfg.webhooks.lookup req.webhook = some conf ∧ ∃ m r,
    g.tried = [(cfg.pools.poolOf conf.logType, ⟨m, none⟩, r)] ∧ PostMessage conf req m ∧
    outcome = postOutcome r

def RequestSends (cfg : WebhookHandlers.Config) : Call → Outcome → Notes → Prop
  | .get req, _, g => GetSends cfg req g
  | .post req, outcome, g => PostSends cfg req outcome g
  | _, _, _ => True

/-- What a request has handed over so far, whether it has returned or not. -/
def RequestSent (cfg : WebhookHandlers.Config) : Call → Notes → Prop
  | .get req, g => GetSends cfg req g
  | .post req, g => g.tried = [] ∨ ∃ conf, cfg.webhooks.lookup req.webhook = some conf ∧ ∃ m r,
      g.tried = [(cfg.pools.poolOf conf.logType, ⟨m, none⟩, r)] ∧ PostMessage conf req m
  | _, _ => True

theorem prefix_singleton {α : Type} {l : List α} {a : α} (h : l <+: [a]) : l = [] ∨ l = [a] := by
  obtain rfl | ⟨b, hb, hnil⟩ := List.prefix_cons_iff.mp h
  · exact .inl rfl
  · exact .inr (by rw [hb, List.prefix_nil.mp hnil])

/-- What it will have handed over when it returns begins with that. -/
theorem requestSent_of_sends {cfg : WebhookHandlers.Config} {c : Call} {outcome : Outcome}
    {g g' : Notes} (h : RequestSends cfg c outcome g') (hp : g.tried <+: g'.tried) :
    RequestSent cfg c g := by
  cases c with
  | get req =>
    obtain hnil | ⟨conf, mode, name, rule, hruled, hcalled, m, n, r, htried, hmessage⟩ := h
    · exact .inl (List.prefix_nil.mp (hnil ▸ hp))
    · obtain hnone | hone := prefix_singleton (htried ▸ hp)
      · exact .inl hnone
      · exact .inr ⟨conf, mode, name, rule, hruled, hcalled, m, n, r, hone, hmessage⟩
  | post req =>
    obtain ⟨hnil, -⟩ | ⟨conf, hconf, m, r, htried, hmessage, -⟩ := h
    · exact .inl (List.prefix_nil.mp (hnil ▸ hp))
    · obtain hnone | hone := prefix_singleton (htried ▸ hp)
      · exact .inl hnone
      · exact .inr ⟨conf, hconf, m, r, hone, hmessage⟩
  | produce type_ data source logbacks => exact trivial
  | work pool => exact trivial

variable {T : Type} [DecidableEq T] {cfg : WebhookHandlers.Config}

section handlers
variable {t : T} {g : Notes}

theorem tried_note (g : Notes) (e : Request) (r : e.Reply) : g.tried <+: (note g e r).tried := by
  cases e with
  | trySend pool q => exact List.prefix_append _ _
  | _ => exact List.prefix_refl _

abbrev Yields {α : Type} (t : T) (Q : α → Notes → Prop) (p : Program α) (g : Notes) : Prop :=
  p.Yields (reply t) (fun g _ e r _ => note g e r) (fun _ _ _ _ => True) Q g

/-- A program that sends nothing. -/
theorem yields_unsent {α : Type} {p : Program α} {Q : α → Notes → Prop}
    (hp : p.Uses fun e => ∀ pool q, e ≠ .trySend pool q)
    (hQ : ∀ a g', g'.tried = g.tried → Q a g') : Yields t Q p g := by
  induction p generalizing g with
  | done a => exact hQ a g rfl
  | request e next ih =>
    intro s l r s' _ hreply
    refine ih r (hp.2 r) fun a g' hg' => hQ a g' (hg'.trans ?_)
    cases e with
    | trySend pool q => exact absurd rfl (hp.1 pool q)
    | _ => rfl

theorem servePage_unsent (webhook : String) (update : Bool)
    (r : Except Unit (Option ResponseMessage)) :
    (servePage webhook update r).Uses fun e => ∀ pool q, e ≠ .trySend pool q := by
  unfold servePage
  split
  · split
    · exact Prog.Uses.bind (Prog.uses_perform nofun) fun _ =>
        Prog.Uses.bind (Prog.uses_perform nofun) fun _ => trivial
    · exact trivial
  · exact trivial
  · exact trivial

theorem postHandler_yields (req : PostRequest) :
    Yields t (PostSends cfg req) (postHandler cfg req) ⟨none, []⟩ := by
  unfold postHandler
  split
  · exact .inl ⟨rfl, rfl⟩
  · rename_i conf hconf
    intro s₁ l₁ body s₂ _ hbody
    obtain ⟨hlimit, -⟩ := reply_readBody hbody
    cases body with
    | error e => exact .inl ⟨rfl, rfl⟩
    | ok body =>
      intro s₃ l₃ id s₄ _ hid s₅ l₅ tried s₆ _ htry
      have hspec : PostMessage conf req (postMessage req.webhook conf req.headers id body) :=
        postMessage_spec id (of_decide_eq_true hlimit)
      refine .inr ⟨conf, hconf, _, tried, ?_, hspec, rfl⟩
      rw [← hspec.type_]
      rfl

theorem callRule_yields {conf : WebhookConfig} {mode : CachingMode} {name : String}
    {rule : PlaidModule} {req : GetRequest} {update : Bool}
    (hruled : Ruled cfg req.webhook conf mode name rule)
    (hcalled : mode ≠ .usePersistentResponse false) (hg : g.tried = []) :
    Yields t (fun _ g => GetSends cfg req g) (callRule conf req name rule update) g := by
  intro s₁ l₁ n s₂ _ _ s₃ l₃ body s₄ _ hbody
  obtain ⟨hlimit, -⟩ := reply_readBody hbody
  cases body with
  | error e =>
    intro _ _ _ _ _ _
    exact .inl hg
  | ok body =>
    intro s₅ l₅ id s₆ _ _ s₇ l₇ tried s₈ _ _
    have hspec : GetMessage conf name rule req (getMessage req.webhook conf name rule req id body) :=
      getMessage_spec id (of_decide_eq_true hlimit)
    have hsends : ∀ g' : Notes, g'.tried =
        [(none, ⟨getMessage req.webhook conf name rule req id body, some n⟩, tried)] →
        GetSends cfg req g' := fun g' hg' =>
      .inr ⟨conf, mode, name, rule, hruled, hcalled, _, n, tried, hg', hspec⟩
    have htried : g.tried ++
        [(none, ⟨getMessage req.webhook conf name rule req id body, some n⟩, tried)] =
        [(none, ⟨getMessage req.webhook conf name rule req id body, some n⟩, tried)] := by
      rw [hg, List.nil_append]
    match tried with
    | .error .disconnected => exact hsends _ htried
    | .error .full =>
      intro s₉ l₉ r s₁₀ _ _
      exact yields_unsent (servePage_unsent _ _ _) fun _ g' hg' => hsends g' (hg'.trans htried)
    | .ok () =>
      intro s₉ l₉ r s₁₀ _ _
      exact yields_unsent (servePage_unsent _ _ _) fun _ g' hg' => hsends g' (hg'.trans htried)

theorem consultCache_yields {webhook : String} {rule : PlaidModule} {now : UInt64}
    {mode : CachingMode} :
    Yields t (fun d g' => g'.tried = g.tried ∧
      ∀ update, d = .call update → mode ≠ .usePersistentResponse false)
      (consultCache webhook rule now mode) g := by
  cases mode with
  | none => exact ⟨rfl, fun _ _ => nofun⟩
  | timed validity =>
    intro s₁ l₁ cached s₂ _ _
    cases cached with
    | none => exact ⟨rfl, fun _ _ => nofun⟩
    | some entry =>
      obtain ⟨stamp, body⟩ := entry
      show Yields t _ (if stamp + validity > now then _ else _) _
      split <;> exact ⟨rfl, fun _ _ => nofun⟩
  | usePersistentResponse callOnNone =>
    intro s₁ l₁ data s₂ _ _
    cases data with
    | some data => exact ⟨rfl, nofun⟩
    | none =>
      cases callOnNone with
      | true => exact ⟨rfl, fun _ _ => nofun⟩
      | false => exact ⟨rfl, nofun⟩

theorem getHandler_yields (req : GetRequest) :
    Yields t (fun _ g => GetSends cfg req g) (getHandler cfg req) ⟨none, []⟩ := by
  unfold getHandler
  split
  · exact .inl rfl
  · rename_i conf hconf
    split
    · exact .inl rfl
    · exact .inl rfl
    · rename_i mode name hmode
      split
      · exact .inl rfl
      · rename_i rule hrule
        intro s₁ l₁ now s₂ _ _
        refine Prog.Yields.bind (p := consultCache req.webhook rule now mode)
          (Prog.Yields.mono (fun d g hd => ?_) consultCache_yields)
        cases d with
        | page body => exact .inl hd.1
        | call update => exact callRule_yields ⟨hconf, hmode, hrule⟩ (hd.2 update rfl) hd.1
    · exact .inl rfl

end handlers

/-- Every request of a program turns out in some way on some server. -/
theorem exists_reply (t : T) (s : Server T) (e : Request) : ∃ s l r s', reply t s e l = some (r, s') := by
  cases e with
  | now => exact ⟨s, .time 0, 0, s, rfl⟩
  | readCache webhook => exact ⟨s, .done, _, _, rfl⟩
  | writeCache webhook stamp body => exact ⟨s, .done, _, _, rfl⟩
  | getPersistentResponseData module => exact ⟨s, .done, _, _, rfl⟩
  | channel => exact ⟨s, .done, _, _, rfl⟩
  | readBody maxSize => exact ⟨s, .body (.error ""), _, _, rfl⟩
  | newId => exact ⟨s, .id "", _, _, rfl⟩
  | trySend pool q => exact ⟨s, .tried (.error .full), _, _, rfl⟩
  | receive channel =>
    let s : Server T := { s with channels := List.replicate (channel + 1) ⟨.dropped, t⟩ }
    have hsender : s.senderOf (some channel) = .dropped := by simp [Server.senderOf, s]
    exact ⟨s, .done, .error (), s, by simp only [reply, hsender]⟩
  | recv pool =>
    exact ⟨{ s with exited := fun _ => false, queues := fun _ => [] }, .closed, none, _, rfl⟩
  | execute module message response => exact ⟨s, .executed ⟨.ok (), [], .ok 0, false⟩, _, _, rfl⟩
  | log entry => exact ⟨s, .logged (.ok ()), _, _, rfl⟩
  | updatePersistentResponse module response sender => exact ⟨s, .done, _, _, rfl⟩
  | drop sender => exact ⟨s, .done, _, _, rfl⟩
  | exit => exact ⟨s, .done, _, _, rfl⟩

/-- Whatever happens at the same time, also before it returns: a GET hands over one message at most,
which is for its rule alone and carries the body within the limit, the configured headers and the
query; a POST hands over one at most, to the pool of its log type. Of those that have returned, only
a POST with a full queue is answered with 429. -/
theorem requests_send {σ τ : LockMonitor.Config Request Request.Reply (Server T) Call Outcome Notes T}
    {as : List (Action Label Call T)} (hb : ExecutionRounds.Booted σ)
    (hr : (system cfg).run σ as = some τ) {t : T} {c : Call} {p : Program Outcome} {g : Notes}
    (ht : τ.threads t = some ⟨c, p, g⟩) :
    RequestSent cfg c g ∧ ∀ outcome, p = .done outcome → RequestSends cfg c outcome g := by
  have hcode : ∀ c (t : T), True → Yields t (RequestSends cfg c) (code cfg c) ⟨none, []⟩ := by
    intro c t _
    cases c with
    | get req => exact getHandler_yields req
    | post req => exact postHandler_yields req
    | produce type_ data source logbacks => exact Prog.yields_true _ _
    | work pool => exact Prog.yields_true _ _
  have hstart : EndWell (system (T := T) cfg) (fun _ _ _ _ _ => True)
      (RequestSends cfg) σ := by
    intro t th hth
    rw [hb.threads] at hth
    cases hth
  have halong : (system (T := T) cfg).Along
      (Granted (fun _ _ _ _ _ => True) fun _ => True) σ as := by
    refine StepMachine.along_of_forall (fun σ a => ?_) σ as
    cases a with
    | start t c => exact trivial
    | step t l => exact fun _ _ _ _ _ => trivial
  have hends : Yields t (RequestSends cfg c) p g := endWell_run hcode hstart halong hr t ⟨c, p, g⟩ ht
  obtain ⟨outcome, g', hsends, hbefore⟩ := Prog.Yields.completes Notes.tried
    (fun _ e => by simpa using exists_reply t σ.shared e) (fun g _ e r _ => tried_note g e r) hends
  refine ⟨requestSent_of_sends hsends hbefore, fun outcome hp => ?_⟩
  subst hp
  exact hends

section instances

theorem requests_send_sample : ∃ τ g, (system pingConfig).run pingServer (pingServed.take 15) =
      some τ ∧ τ.threads true = some ⟨.get pingRequest, .done (.html "pong"), g⟩ ∧
    RequestSent pingConfig (.get pingRequest) g ∧
    RequestSends pingConfig (.get pingRequest) (.html "pong") g := by
  obtain ⟨g, hpage⟩ : ∃ g : Notes,
      ((system pingConfig).run pingServer (pingServed.take 15)).map (fun τ => τ.threads true) =
        some (some ⟨.get pingRequest, .done (.html "pong"), g⟩) := ⟨_, rfl⟩
  obtain ⟨τ, hτ, ht⟩ := Option.map_eq_some_iff.mp hpage
  obtain ⟨hsent, hsends⟩ := requests_send ExecutionRounds.ping_booted hτ ht
  exact ⟨τ, g, hτ, ht, hsent, hsends _ rfl⟩

end instances

end PlaidRuntime.WebhookMessages
