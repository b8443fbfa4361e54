import PlaidRuntime.StepMachine

/-!
# Endpoints of a websocket client

A heap of endpoints with their backoff, and the loop that takes one, connects, and gives it
back when the connection fails or drops (`data/websocket`). Durations and instants count
nanoseconds. A `BinaryHeap` promises the entry it gives out to be a greatest one and nothing
more, so it is a list here and the choice among equals an argument.
-/
namespace PlaidRuntime.WebsocketEndpoints
open StepMachine

structure UriEntry where
  name : String
  uri : String
  backoffDuration : ℕ
  nextAttempt : ℕ
  deriving DecidableEq, Repr

structure UriSelector where
  uris : List UriEntry
  initialRetryAfter : ℕ
  maxRetryAfter : ℕ
  logType : String

/-- `Duration::MAX`. -/
def durationMax : ℕ := 2 ^ 64 * 10 ^ 9 - 1

def UriSelector.new (uris : List (String × String)) (initialRetryAfter maxRetryAfter : ℕ)
    (logType : String) (now : ℕ) : UriSelector where
  uris := uris.map fun u => ⟨u.1, u.2, initialRetryAfter, now⟩
  initialRetryAfter := initialRetryAfter
  maxRetryAfter := maxRetryAfter
  logType := logType

/-- The comparison is reversed, so a greatest entry has the earliest attempt. -/
def peek (sel : UriSelector) (i : ℕ) : Option UriEntry :=
  sel.uris[i]?.bind fun e => if sel.uris.all (e.nextAttempt ≤ ·.nextAttempt) then some e else none

def pop (sel : UriSelector) (i : ℕ) : UriSelector := { sel with uris := sel.uris.eraseIdx i }

/-- Doubling panics when the duration overflows. -/
def markFailed (sel : UriSelector) (entry : UriEntry) (now : ℕ) : Option UriSelector :=
  if entry.backoffDuration * 2 ≤ durationMax then
    let backoff := min (entry.backoffDuration * 2) sel.maxRetryAfter
    some { sel with
      uris := { entry with backoffDuration := backoff, nextAttempt := now + backoff } :: sel.uris }
  else none

def resetFailure (sel : UriSelector) (entry : UriEntry) (now : ℕ) : UriEntry :=
  { entry with backoffDuration := sel.initialRetryAfter, nextAttempt := now }

/-- Where the task of the client stands: in `next_uri`, asleep there before the entry it has
peeked at, in `start` with an entry in hand, or back in the loop with it. -/
inductive Phase
  | selecting
  | sleeping (i : ℕ)
  | connecting (entry : UriEntry)
  | connected (entry : UriEntry)
  | returned (entry : UriEntry)
  | stopped
  deriving DecidableEq, Repr

structure Client where
  clock : ℕ
  selector : UriSelector
  phase : Phase
  /-- Failures of an endpoint since it last connected. -/
  failures : String → ℕ

inductive Event
  | tick (now : ℕ)
  | next (i : ℕ)
  | wake
  | connect (ok : Bool)
  | drop
  | fail

def step (s : Client) : Event → Option Client
  | .tick now => if s.clock ≤ now then some { s with clock := now } else none
  | .next i =>
    match s.phase with
    | .selecting =>
      if s.selector.uris.isEmpty then some { s with phase := .stopped }
      else (peek s.selector i).map fun e =>
        if s.clock < e.nextAttempt then { s with phase := .sleeping i }
        else { s with selector := pop s.selector i, phase := .connecting e }
    | _ => none
  | .wake =>
    match s.phase with
    | .sleeping i => (peek s.selector i).bind fun e =>
      if e.nextAttempt ≤ s.clock then
        some { s with selector := pop s.selector i, phase := .connecting e }
      else none
    | _ => none
  | .connect ok =>
    match s.phase with
    | .connecting e =>
      if ok then
        some { s with phase := .connected e, failures := Function.update s.failures e.name 0 }
      else some { s with phase := .returned e }
    | _ => none
  | .drop =>
    match s.phase with
    | .connected e => some { s with phase := .returned (resetFailure s.selector e s.clock) }
    | _ => none
  | .fail =>
    match s.phase with
    | .returned e => (markFailed s.selector e s.clock).map fun sel =>
      { s with
        selector := sel
        phase := .selecting
        failures := Function.update s.failures e.name (s.failures e.name + 1) }
    | _ => none

/-- `WebSocketClient::new` on a map of endpoints, in the order it iterates. -/
def boot (uris : List (String × String)) (initialRetryAfter maxRetryAfter : ℕ) (logType : String)
    (now : ℕ) : Client where
  clock := now
  selector := .new uris initialRetryAfter maxRetryAfter logType now
  phase := .selecting
  failures _ := 0

def Phase.held : Phase → List UriEntry
  | .connecting e => [e]
  | .connected e => [e]
  | .returned e => [e]
  | _ => []

/-- The endpoints in the heap and the one checked out. -/
def entries (s : Client) : List UriEntry := s.phase.held ++ s.selector.uris

def UriEntry.pair (e : UriEntry) : String × String := (e.name, e.uri)

/-- The backoff after `n` failures in a row. -/
def backoff (initial max n : ℕ) : ℕ := if n = 0 then initial else min (initial * 2 ^ n) max

theorem backoff_succ (initial max n : ℕ) :
    min (backoff initial max n * 2) max = backoff initial max (n + 1) := by
  unfold backoff
  rw [if_neg (Nat.succ_ne_zero n), pow_succ, ← Nat.mul_assoc]
  split
  · rename_i hn
    subst hn
    simp
  · generalize initial * 2 ^ n = x
    omega

theorem backoff_le (initial max n : ℕ) : backoff initial max n ≤ initial ∨ backoff initial max n ≤ max := by
  unfold backoff
  split
  · exact Or.inl (le_refl _)
  · exact Or.inr (min_le_right _ _)

theorem peek_some {sel : UriSelector} {i : ℕ} {e : UriEntry} (h : peek sel i = some e) :
    sel.uris[i]? = some e ∧ ∀ e' ∈ sel.uris, e.nextAttempt ≤ e'.nextAttempt := by
  unfold peek at h
  obtain ⟨e₀, hi, he⟩ := Option.bind_eq_some_iff.mp h
  split at he
  · rename_i hall
    cases he
    exact ⟨hi, by simpa using hall⟩
  · cases he

theorem perm_of_getElem? {α : Type} {l : List α} {i : ℕ} {a : α} (h : l[i]? = some a) :
    (a :: l.eraseIdx i).Perm l := by
  obtain ⟨hi, rfl⟩ := List.getElem?_eq_some_iff.mp h
  exact List.getElem_cons_eraseIdx_perm hi

section loop
variable {uris : List (String × String)} {initial max : ℕ}

/-- Between two steps: every endpoint is in the heap or in hand, with the backoff its failures
ask for; while an endpoint is connected its failures are forgotten. -/
structure Kept (uris : List (String × String)) (initial max : ℕ) (s : Client) : Prop where
  initialRetry : s.selector.initialRetryAfter = initial
  maxRetry : s.selector.maxRetryAfter = max
  pairs : ((entries s).map UriEntry.pair).Perm uris
  backoffs : ∀ e ∈ entries s, s.phase ≠ .connected e →
    e.backoffDuration = backoff initial max (s.failures e.name)
  connected : ∀ e, s.phase = .connected e → s.failures e.name = 0

theorem Kept.names_nodup {s : Client} (h : Kept uris initial max s)
    (hkeys : (uris.map Prod.fst).Nodup) : ((entries s).map UriEntry.name).Nodup := by
  have hperm := (h.pairs.map Prod.fst).nodup_iff.mpr hkeys
  rwa [List.map_map] at hperm

/-- Taking an entry out of the heap. -/
theorem Kept.take {s : Client} (h : Kept uris initial max s) {i : ℕ} {e : UriEntry}
    (hp : peek s.selector i = some e) (hheld : s.phase.held = []) :
    Kept uris initial max { s with selector := pop s.selector i, phase := .connecting e } := by
  have hperm : (e :: s.selector.uris.eraseIdx i).Perm (entries s) := by
    rw [entries, hheld]
    exact perm_of_getElem? (peek_some hp).1
  refine ⟨h.initialRetry, h.maxRetry, (hperm.map _).trans h.pairs, fun x hx _ => ?_, nofun⟩
  apply h.backoffs x (hperm.mem_iff.mp hx)
  intro hc
  rw [hc] at hheld
  cases hheld

theorem Kept.step (hkeys : (uris.map Prod.fst).Nodup) {s s' : Client} {ev : Event}
    (h : Kept uris initial max s) (hs : step s ev = some s') : Kept uris initial max s' := by
  cases ev with
  | tick now =>
    simp only [WebsocketEndpoints.step] at hs
    split at hs <;> cases hs
    exact { h with }
  | next i =>
    simp only [WebsocketEndpoints.step] at hs
    split at hs
    · rename_i hph
      split at hs
      · rename_i hempty
        cases hs
        have hnil : s.selector.uris = [] := List.isEmpty_iff.mp hempty
        refine ⟨h.initialRetry, h.maxRetry, ?_, ?_, nofun⟩
        · have hpairs := h.pairs
          rwa [entries, hph] at hpairs
        · intro e he
          rw [entries, hnil] at he
          cases he
      · obtain ⟨e, hp, rfl⟩ := Option.map_eq_some_iff.mp hs
        split
        · refine ⟨h.initialRetry, h.maxRetry, ?_, ?_, nofun⟩
          · have hpairs := h.pairs
            rwa [entries, hph] at hpairs
          · intro x hx _
            apply h.backoffs x _ (by rw [hph]; nofun)
            rw [entries, hph]
            exact hx
        · exact h.take hp (by rw [hph]; rfl)
    · cases hs
  | wake =>
    simp only [WebsocketEndpoints.step] at hs
    split at hs
    · rename_i i hph
      obtain ⟨e, hp, hs⟩ := Option.bind_eq_some_iff.mp hs
      split at hs <;> cases hs
      exact h.take hp (by rw [hph]; rfl)
    · cases hs
  | connect ok =>
    simp only [WebsocketEndpoints.step] at hs
    split at hs
    · rename_i e hph
      have hpairs := h.pairs
      have hnames := h.names_nodup hkeys
      simp only [entries, hph, Phase.held] at hpairs hnames
      split at hs <;> cases hs
      · refine ⟨h.initialRetry, h.maxRetry, hpairs, ?_, ?_⟩
        · -- the others have other names, so the reset does not concern them
          intro x hx hne
          have hx' : x ∈ s.selector.uris := by
            rcases List.mem_append.mp hx with hx | hx
            · cases List.mem_singleton.mp hx
              exact absurd rfl hne
            · exact hx
          have hname : x.name ≠ e.name := by
            intro heq
            apply (List.nodup_cons.mp hnames).1
            rw [← heq]
            exact List.mem_map_of_mem hx'
          simp only [Function.update_of_ne hname]
          apply h.backoffs x _ (by rw [hph]; nofun)
          exact List.mem_append_right _ hx'
        · intro x hx
          cases hx
          exact Function.update_self _ _ _
      · refine ⟨h.initialRetry, h.maxRetry, hpairs, fun x hx _ => ?_, nofun⟩
        apply h.backoffs x _ (by rw [hph]; nofun)
        rw [entries, hph]
        exact hx
    · cases hs
  | drop =>
    simp only [WebsocketEndpoints.step] at hs
    split at hs
    · rename_i e hph
      cases hs
      have hpairs := h.pairs
      have hnames := h.names_nodup hkeys
      simp only [entries, hph, Phase.held] at hpairs hnames
      refine ⟨h.initialRetry, h.maxRetry, hpairs, fun x hx _ => ?_, nofun⟩
      rcases List.mem_append.mp hx with hx | hx
      · cases List.mem_singleton.mp hx
        change s.selector.initialRetryAfter = backoff initial max (s.failures e.name)
        rw [h.connected e hph, h.initialRetry]
        rfl
      · apply h.backoffs x (List.mem_append_right _ hx)
        rw [hph]
        intro hc
        cases hc
        exact (List.nodup_cons.mp hnames).1 (List.mem_map_of_mem hx)
    · cases hs
  | fail =>
    simp only [WebsocketEndpoints.step] at hs
    split at hs
    · rename_i e hph
      obtain ⟨sel, hm, rfl⟩ := Option.map_eq_some_iff.mp hs
      unfold markFailed at hm
      split at hm <;> cases hm
      have hpairs := h.pairs
      have hnames := h.names_nodup hkeys
      simp only [entries, hph, Phase.held] at hpairs hnames
      refine ⟨h.initialRetry, h.maxRetry, hpairs, fun x hx _ => ?_, nofun⟩
      rcases List.mem_cons.mp hx with rfl | hx
      · have he := h.backoffs e (by rw [entries, hph]; exact List.mem_cons_self) (by rw [hph]; nofun)
        simp only [Function.update_self]
        rw [he, h.maxRetry, backoff_succ]
      · have hname : x.name ≠ e.name := by
          intro heq
          apply (List.nodup_cons.mp hnames).1
          rw [← heq]
          exact List.mem_map_of_mem hx
        simp only [Function.update_of_ne hname]
        apply h.backoffs x (List.mem_append_right _ hx)
        rw [hph]
        nofun
    · cases hs

theorem Kept.boot (uris : List (String × String)) (initial max : ℕ) (logType : String) (now : ℕ) :
    Kept uris initial max (boot uris initial max logType now) := by
  refine ⟨rfl, rfl, ?_, ?_, nofun⟩
  · simp [entries, WebsocketEndpoints.boot, UriSelector.new, Phase.held, UriEntry.pair,
      Function.comp_def]
  · intro e he _
    simp only [entries, WebsocketEndpoints.boot, UriSelector.new, Phase.held, List.nil_append,
      List.mem_map] at he
    obtain ⟨u, -, rfl⟩ := he
    rfl

/-- What `next_uri` gives out. -/
theorem step_connecting {s s' : Client} {ev : Event} {e : UriEntry} (hs : step s ev = some s')
    (he : s'.phase = .connecting e) (hne : s.phase ≠ .connecting e) :
    e ∈ s.selector.uris ∧ (∀ e' ∈ s.selector.uris, e.nextAttempt ≤ e'.nextAttempt) ∧
      e.nextAttempt ≤ s.clock := by
  cases ev with
  | tick now =>
    simp only [step] at hs
    split at hs <;> cases hs
    exact absurd he hne
  | next i =>
    simp only [step] at hs
    split at hs
    · split at hs
      · cases hs
        cases he
      · obtain ⟨e', hp, rfl⟩ := Option.map_eq_some_iff.mp hs
        split at he
        · cases he
        · rename_i hready
          cases he
          obtain ⟨hi, hmin⟩ := peek_some hp
          exact ⟨List.mem_of_getElem? hi, hmin, Nat.le_of_not_lt hready⟩
    · cases hs
  | wake =>
    simp only [step] at hs
    split at hs
    · obtain ⟨e', hp, hs⟩ := Option.bind_eq_some_iff.mp hs
      split at hs <;> cases hs
      rename_i hready
      cases he
      obtain ⟨hi, hmin⟩ := peek_some hp
      exact ⟨List.mem_of_getElem? hi, hmin, hready⟩
    · cases hs
  | connect ok =>
    simp only [step] at hs
    split at hs
    · split at hs <;> cases hs <;> cases he
    · cases hs
  | drop =>
    simp only [step] at hs
    split at hs
    · cases hs
      cases he
    · cases hs
  | fail =>
    simp only [step] at hs
    split at hs
    · obtain ⟨sel, -, rfl⟩ := Option.map_eq_some_iff.mp hs
      cases he
    · cases hs

/-- No endpoint is lost, the backoff doubles up to its limit with each failure in a row, and
`next_uri` gives out an earliest entry, never before its time. -/
theorem endpoints_kept (hkeys : (uris.map Prod.fst).Nodup) {logType : String} {now : ℕ}
    (hinitial : initial * 2 ≤ durationMax) (hmax : max * 2 ≤ durationMax) {es : List Event}
    {s : Client} (hr : run step (boot uris initial max logType now) es = some s) :
    ((entries s).map UriEntry.pair).Perm uris ∧
    (∀ e ∈ entries s, 1 ≤ s.failures e.name →
      e.backoffDuration = min (initial * 2 ^ s.failures e.name) max) ∧
    (∀ ev s' e, step s ev = some s' → s'.phase = .connecting e → s.phase ≠ .connecting e →
      e ∈ s.selector.uris ∧ (∀ e' ∈ s.selector.uris, e.nextAttempt ≤ e'.nextAttempt) ∧
        e.nextAttempt ≤ s.clock) ∧
    ∀ e, s.phase = .returned e → (step s .fail).isSome = true := by
  have hkept : Kept uris initial max s := run_invariant
    (fun s ev s' h hs => Kept.step hkeys h hs) (Kept.boot uris initial max logType now) hr
  refine ⟨hkept.pairs, ?_, fun ev s' e hs he hne => step_connecting hs he hne, ?_⟩
  · intro e he hfail
    have hb := hkept.backoffs e he (fun hc => by rw [hkept.connected e hc] at hfail; omega)
    rw [hb, backoff, if_neg (by omega)]
  · intro e hph
    have hb := hkept.backoffs e (by rw [entries, hph]; exact List.mem_cons_self) (by rw [hph]; nofun)
    have hfits : e.backoffDuration * 2 ≤ durationMax := by
      rw [hb]
      rcases backoff_le initial max (s.failures e.name) with hle | hle <;> omega
    simp [step, hph, markFailed, hfits]

def sampleRun : List Event :=
  [.next 0, .connect false, .fail, .next 1, .connect true, .tick 2000, .drop, .fail, .next 1,
    .connect false, .fail]

/-- One endpoint fails twice, the other connects and drops. -/
theorem endpoints_kept_sample :
    (run step (boot [("a", "wss://a"), ("b", "wss://b")] 1000 3000 "log" 0) sampleRun).map
      (fun s => (s.failures "a", s.failures "b", (entries s).map UriEntry.backoffDuration)) =
      some (2, 1, [3000, 2000]) ∧
    ∀ s, run step (boot [("a", "wss://a"), ("b", "wss://b")] 1000 3000 "log" 0) sampleRun = some s →
      ((entries s).map UriEntry.pair).Perm [("a", "wss://a"), ("b", "wss://b")] ∧
      (∀ e ∈ entries s, 1 ≤ s.failures e.name →
        e.backoffDuration = min (1000 * 2 ^ s.failures e.name) 3000) ∧
      (∀ ev s' e, step s ev = some s' → s'.phase = .connecting e → s.phase ≠ .connecting e →
        e ∈ s.selector.uris ∧ (∀ e' ∈ s.selector.uris, e.nextAttempt ≤ e'.nextAttempt) ∧
          e.nextAttempt ≤ s.clock) ∧
      ∀ e, s.phase = .returned e → (step s .fail).isSome = true := by
  refine ⟨by decide +kernel, fun s hr => ?_⟩
  refine endpoints_kept ?_ ?_ ?_ hr
  · decide
  · decide
  · decide

end loop
end PlaidRuntime.WebsocketEndpoints
