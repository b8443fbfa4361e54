import PlaidRuntime.StepMachine
import PlaidRuntime.Rotation

/-!
# Node selection and failover of RPC calls

Calls share one selector. A call reads the index, tries the node it finds there and, when the
node fails, advances the index before its next attempt (`apis/blockchain/common`).
-/
namespace PlaidRuntime.NodeSelection
open StepMachine Rotation

structure NodeConfig where
  uri : String
  name : String
  deriving DecidableEq, Repr

/-- The index is an `AtomicUsize`. -/
inductive SelectionStrategy
  | roundRobin (currentIndex : ℕ)
  | random
  deriving DecidableEq, Repr

structure NodeSelector where
  nodes : List NodeConfig
  selectionState : SelectionStrategy
  deriving DecidableEq, Repr

inductive BlockchainError
  | serdeError (text : String)
  | networkError (text : String)
  | callFailed (status : ℕ) (message : String)
  | noNodes (identifier : String)
  | allNodesFailed
  | evm (text : String)
  | solana (text : String)
  deriving DecidableEq, Repr

def BlockchainError.isRetryable : BlockchainError → Bool
  | .callFailed status _ => (500 ≤ status && status < 600) || status == 429
  | .networkError _ => true
  | _ => false

/-- `choice` is what the random generator draws. -/
def selectNode (s : NodeSelector) (choice : ℕ) : Option NodeConfig :=
  if s.nodes.isEmpty then none
  else match s.selectionState with
    | .roundRobin currentIndex => s.nodes[currentIndex % s.nodes.length]?
    | .random => s.nodes[choice % s.nodes.length]?

def markCurrentNodeFailed (s : NodeSelector) : NodeSelector :=
  match s.selectionState with
  | .roundRobin currentIndex =>
    if s.nodes.isEmpty then s
    else { s with selectionState := .roundRobin ((currentIndex + 1) % 2 ^ 64) }
  | .random => s

/-- Where the loop of `execute_rpc_call` stands. -/
inductive Call
  | selecting (attempt : ℕ) (lastError : BlockchainError)
  | trying (attempt : ℕ) (node : NodeConfig)
  | marking (attempt : ℕ) (node : NodeConfig) (error : BlockchainError)
  | returned (result : Except BlockchainError String)

variable {T : Type} [DecidableEq T]

structure Client (T : Type) where
  selector : NodeSelector
  maxRetries : UInt8
  identifier : String
  calls : T → Call

inductive Event (T : Type)
  | select (t : T) (choice : ℕ)
  | reply (t : T) (response : Except BlockchainError String)
  | mark (t : T)

def Event.caller : Event T → T
  | .select t _ => t
  | .reply t _ => t
  | .mark t => t

def setCall (s : Client T) (t : T) (c : Call) : Client T :=
  { s with calls := Function.update s.calls t c }

def step (s : Client T) : Event T → Option (Client T)
  | .select t choice =>
    match s.calls t with
    | .selecting attempt lastError =>
      if attempt ≤ s.maxRetries.toNat then
        match selectNode s.selector choice with
        | none => some (setCall s t (.returned (.error (.noNodes s.identifier))))
        | some node => some (setCall s t (.trying attempt node))
      else some (setCall s t (.returned (.error lastError)))
    | _ => none
  | .reply t response =>
    match s.calls t with
    | .trying attempt node =>
      match response with
      | .ok r => some (setCall s t (.returned (.ok r)))
      | .error e =>
        if e.isRetryable then some (setCall s t (.marking attempt node e))
        else some (setCall s t (.returned (.error e)))
    | _ => none
  | .mark t =>
    match s.calls t with
    | .marking attempt _ e =>
      some (setCall { s with selector := markCurrentNodeFailed s.selector } t
        (.selecting (attempt + 1) e))
    | _ => none

/-- Healthy nodes always answer, the others always fail with an error worth a retry. -/
def behaves (healthy : NodeConfig → Bool) (s : Client T) : Event T → Bool
  | .reply t response =>
    match s.calls t, response with
    | .trying _ node, .ok _ => healthy node
    | .trying _ node, .error e => !healthy node && e.isRetryable
    | _, _ => true
  | _ => true

/-- The selector still stands at the node that failed, and advancing it leads to the next. -/
def orderly (s : Client T) : Event T → Bool
  | .mark t =>
    match s.calls t, s.selector.selectionState with
    | .marking _ node _, .roundRobin i =>
      s.selector.nodes[i % s.selector.nodes.length]? == some node &&
        (i + 1) % 2 ^ 64 % s.selector.nodes.length ==
          (i % s.selector.nodes.length + 1) % s.selector.nodes.length
    | _, _ => true
  | _ => true

/-- Calls that have not begun, on a round robin over `nodes`. -/
structure Started (nodes : List NodeConfig) (s : Client T) : Prop where
  nodes : s.selector.nodes = nodes
  index : ∃ i < 2 ^ 64, s.selector.selectionState = .roundRobin i
  calls : ∀ t, s.calls t = .selecting 1 .allNodesFailed

section failover
variable {nodes : List NodeConfig} {healthy : NodeConfig → Bool}

/-- The places of the healthy nodes. -/
def HealthyAt (nodes : List NodeConfig) (healthy : NodeConfig → Bool) (k : ℕ) : Prop :=
  ∃ node, nodes[k]? = some node ∧ healthy node = true

theorem exists_healthyAt (h : ∃ node ∈ nodes, healthy node = true) :
    ∃ k < nodes.length, HealthyAt nodes healthy k := by
  obtain ⟨node, hmem, hh⟩ := h
  obtain ⟨k, hk, hnode⟩ := List.mem_iff_getElem.mp hmem
  exact ⟨k, hk, node, List.getElem?_eq_some_iff.mpr ⟨hk, hnode⟩, hh⟩

/-- What a call may have spent when the selector is `ahead` places from a healthy node and was
`start` places from one at first; `taken` are the steps the call has made. -/
def Within (healthy : NodeConfig → Bool) (start ahead taken : ℕ) : Call → Prop
  | .selecting attempt _ => attempt + ahead ≤ start + 1 ∧ taken + 3 = 3 * attempt
  | .trying attempt _ => attempt + ahead ≤ start + 1 ∧ taken + 2 = 3 * attempt
  | .marking attempt node _ =>
    attempt + ahead ≤ start + 1 ∧ taken + 1 = 3 * attempt ∧ healthy node = false
  | .returned result => (∃ text, result = .ok text) ∧ taken ≤ 3 * (start + 1)

theorem Within.mono {start ahead ahead' taken : ℕ} {c : Call} (h : Within healthy start ahead taken c)
    (ha : ahead' ≤ ahead) : Within healthy start ahead' taken c := by
  cases c with
  | selecting attempt e => exact ⟨by have := h.1; omega, h.2⟩
  | trying attempt node => exact ⟨by have := h.1; omega, h.2⟩
  | marking attempt node e => exact ⟨by have := h.1; omega, h.2⟩
  | returned result => exact h

def stepsOf (t : T) (es : List (Event T)) : ℕ := es.countP fun e => decide (e.caller = t)

theorem stepsOf_append (t : T) (es : List (Event T)) (e : Event T) :
    stepsOf t (es ++ [e]) = stepsOf t es + if e.caller = t then 1 else 0 := by
  simp [stepsOf, List.countP_append, List.countP_cons]

/-- `start` is the distance of the first index from a healthy node. -/
structure Rotating (nodes : List NodeConfig) (healthy : NodeConfig → Bool) (maxRetries start : ℕ)
    (es : List (Event T)) (s : Client T) : Prop where
  same : s.selector.nodes = nodes
  retries : s.maxRetries.toNat = maxRetries
  calls : ∃ i, s.selector.selectionState = .roundRobin i ∧ ∀ t,
    Within healthy start (distance (HealthyAt nodes healthy) nodes.length i) (stepsOf t es)
      (s.calls t)

/-- The caller moves on, the selector and the other calls stay as they are. -/
theorem Rotating.setCall {maxRetries start : ℕ} {es : List (Event T)} {s : Client T}
    (h : Rotating nodes healthy maxRetries start es s) {t : T} {c : Call} {e : Event T}
    (he : e.caller = t)
    (hc : ∀ ahead, Within healthy start ahead (stepsOf t es) (s.calls t) →
      Within healthy start ahead (stepsOf t es + 1) c) :
    Rotating nodes healthy maxRetries start (es ++ [e]) (setCall s t c) := by
  obtain ⟨i, hi, hcalls⟩ := h.calls
  refine ⟨h.same, h.retries, i, hi, fun u => ?_⟩
  simp only [NodeSelection.setCall, Function.update_apply, stepsOf_append, he]
  by_cases hu : u = t
  · subst hu
    rw [if_pos rfl, if_pos rfl]
    exact hc _ (hcalls u)
  · rw [if_neg hu, if_neg (Ne.symm hu)]
    exact hcalls u

theorem Rotating.step (hhealthy : ∃ node ∈ nodes, healthy node = true) {maxRetries start : ℕ}
    (hmax : start + 1 ≤ maxRetries) {es : List (Event T)} {s s' : Client T} {e : Event T}
    (h : Rotating nodes healthy maxRetries start es s)
    (hP : behaves healthy s e = true ∧ orderly s e = true) (hs : step s e = some s') :
    Rotating nodes healthy maxRetries start (es ++ [e]) s' := by
  have hgood := exists_healthyAt hhealthy
  have hne : s.selector.nodes.isEmpty = false := by
    obtain ⟨node, hmem, -⟩ := hhealthy
    rw [h.same]
    exact List.isEmpty_eq_false_iff.mpr (List.ne_nil_of_mem hmem)
  obtain ⟨i, hi, hcalls⟩ := h.calls
  cases e with
  | select t choice =>
    simp only [NodeSelection.step] at hs
    split at hs
    · rename_i attempt lastError ht
      have hw := hcalls t
      rw [ht] at hw
      have hattempt : attempt ≤ s.maxRetries.toNat := by
        rw [h.retries]
        have := hw.1
        omega
      have hlt : i % nodes.length < nodes.length := by
        obtain ⟨k, hk, -⟩ := hgood
        exact Nat.mod_lt _ (by omega)
      have hselect : selectNode s.selector choice = some (nodes[i % nodes.length]) := by
        unfold selectNode
        rw [hne, hi, h.same]
        exact List.getElem?_eq_getElem hlt
      rw [if_pos hattempt, hselect] at hs
      cases hs
      apply h.setCall (t := t) rfl
      intro ahead hw'
      rw [ht] at hw'
      exact ⟨hw'.1, by have := hw'.2; omega⟩
    · cases hs
  | reply t response =>
    simp only [NodeSelection.step] at hs
    split at hs
    · rename_i attempt node ht
      have hb := hP.1
      simp only [behaves, ht] at hb
      cases response with
      | ok text =>
        cases hs
        apply h.setCall (t := t) rfl
        intro ahead hw
        rw [ht] at hw
        refine ⟨⟨text, rfl⟩, ?_⟩
        have h1 := hw.1
        have h2 := hw.2
        omega
      | error error =>
        rw [Bool.and_eq_true, Bool.not_eq_true'] at hb
        simp only [hb.2, if_true] at hs
        cases hs
        apply h.setCall (t := t) rfl
        intro ahead hw
        rw [ht] at hw
        exact ⟨hw.1, by have := hw.2; omega, hb.1⟩
    · cases hs
  | mark t =>
    simp only [NodeSelection.step] at hs
    split at hs
    · rename_i attempt node error ht
      cases hs
      have ho := hP.2
      simp only [orderly, ht, hi, h.same, Bool.and_eq_true, beq_iff_eq] at ho
      obtain ⟨hnode, hnext⟩ := ho
      have hw := hcalls t
      rw [ht] at hw
      -- the index stands at a node that failed, so it is not at a healthy one
      have hbad : ¬ HealthyAt nodes healthy (i % nodes.length) := by
        rintro ⟨node', hnode', hh⟩
        rw [hnode] at hnode'
        cases hnode'
        rw [hw.2.2] at hh
        cases hh
      have hnear : distance (HealthyAt nodes healthy) nodes.length ((i + 1) % 2 ^ 64) + 1 =
          distance (HealthyAt nodes healthy) nodes.length i := by
        rw [← distance_succ hgood hbad]
        congr 1
        apply distance_congr
        rw [hnext, Nat.mod_add_mod]
      have hmark : markCurrentNodeFailed s.selector =
          { s.selector with selectionState := .roundRobin ((i + 1) % 2 ^ 64) } := by
        simp [markCurrentNodeFailed, hi, hne]
      refine ⟨?_, h.retries, (i + 1) % 2 ^ 64, ?_, fun u => ?_⟩
      · simp only [NodeSelection.setCall, hmark, h.same]
      · simp only [NodeSelection.setCall, hmark]
      · simp only [NodeSelection.setCall, Function.update_apply, stepsOf_append]
        by_cases hu : u = t
        · subst hu
          have hcaller : (Event.mark u).caller = u := rfl
          rw [if_pos rfl, if_pos hcaller]
          have h1 := hw.1
          have h2 := hw.2.1
          exact ⟨by omega, by omega⟩
        · have hcaller : (Event.mark t).caller ≠ u := Ne.symm hu
          rw [if_neg hu, if_neg hcaller]
          exact (hcalls u).mono (by omega)
    · cases hs

/-- A call that has not returned has a next step. -/
theorem exists_step (healthy : NodeConfig → Bool) (s : Client T) (t : T)
    (ht : ∀ r, s.calls t ≠ .returned r) :
    ∃ e, e.caller = t ∧ behaves healthy s e = true ∧ (step s e).isSome = true := by
  cases hc : s.calls t with
  | selecting attempt lastError =>
    refine ⟨.select t 0, rfl, rfl, ?_⟩
    simp only [step, hc]
    split
    · split <;> rfl
    · rfl
  | trying attempt node =>
    cases hh : healthy node with
    | true => exact ⟨.reply t (.ok ""), rfl, by simp [behaves, hc, hh], by simp [step, hc]⟩
    | false =>
      refine ⟨.reply t (.error (.networkError "")), rfl, ?_, ?_⟩
      · simp [behaves, hc, hh, BlockchainError.isRetryable]
      · simp [step, hc, BlockchainError.isRetryable]
  | marking attempt node e => exact ⟨.mark t, rfl, rfl, by simp [step, hc]⟩
  | returned r => exact absurd hc (ht r)

/-- As long as no call advances the selector away from a node it has not tried, every call
returns an answer, after at most one attempt for each node. -/
theorem failover_reaches_healthy {s s' : Client T} {es : List (Event T)} (hs : Started nodes s)
    (hhealthy : ∃ node ∈ nodes, healthy node = true)
    (hmax : nodes.length ≤ s.maxRetries.toNat)
    (hP : Along step (fun s e => behaves healthy s e = true ∧ orderly s e = true) s es)
    (hr : run step s es = some s') (t : T) :
    (∀ r, s'.calls t = .returned r → ∃ text, r = .ok text) ∧
    stepsOf t es ≤ 3 * nodes.length ∧
    ((∀ r, s'.calls t ≠ .returned r) →
      ∃ e, e.caller = t ∧ behaves healthy s' e = true ∧ (step s' e).isSome = true) := by
  obtain ⟨i, -, hi⟩ := hs.index
  have hgood := exists_healthyAt hhealthy
  have hlt := distance_lt hgood i
  have hstart : Rotating nodes healthy s.maxRetries.toNat
      (distance (HealthyAt nodes healthy) nodes.length i) [] s := by
    refine ⟨hs.nodes, rfl, i, hi, fun u => ?_⟩
    rw [hs.calls u]
    exact ⟨by omega, rfl⟩
  have hend := run_invariant_history
    (fun p s e s' h hP hs => Rotating.step hhealthy (by omega) h hP hs) hstart hP hr
  obtain ⟨j, -, hcalls⟩ := hend.calls
  have hw := hcalls t
  refine ⟨fun r hret => ?_, ?_, exists_step healthy s' t⟩
  · rw [hret] at hw
    exact hw.1
  · rw [List.nil_append] at hw
    cases hc : s'.calls t with
    | selecting attempt e =>
      rw [hc] at hw
      have h1 := hw.1
      have h2 := hw.2
      omega
    | trying attempt node =>
      rw [hc] at hw
      have h1 := hw.1
      have h2 := hw.2
      omega
    | marking attempt node e =>
      rw [hc] at hw
      have h1 := hw.1
      have h2 := hw.2.1
      omega
    | returned r =>
      rw [hc] at hw
      have h2 := hw.2
      omega

end failover

section instances

def bad : NodeConfig := ⟨"https://bad", "bad"⟩
def good : NodeConfig := ⟨"https://good", "good"⟩

def twoNodes : Client Bool where
  selector := ⟨[bad, good], .roundRobin 0⟩
  maxRetries := 2
  identifier := "1"
  calls _ := .selecting 1 .allNodesFailed

theorem twoNodes_started : Started [bad, good] twoNodes :=
  ⟨rfl, ⟨0, by decide, rfl⟩, fun _ => rfl⟩

def downError : BlockchainError := .callFailed 503 "down"

/-- Two calls fail on the same node, and together they advance past the healthy one. -/
def bothFail : List (Event Bool) :=
  [.select true 0, .select false 0, .reply true (.error downError), .reply false (.error downError),
    .mark true, .mark false, .select true 0, .reply true (.error downError), .mark true,
    .select true 0]

/-- One call fails alone and moves on to the healthy node; the other then finds it at once. -/
def oneFails : List (Event Bool) :=
  [.select true 0, .reply true (.error downError), .mark true, .select false 0, .select true 0,
    .reply true (.ok "a"), .reply false (.ok "b")]

def Call.isError : Call → Bool
  | .returned (.error _) => true
  | _ => false

def Call.isOk : Call → Bool
  | .returned (.ok _) => true
  | _ => false

theorem both_fail_skips_healthy :
    Started [bad, good] twoNodes ∧ [bad, good].length ≤ twoNodes.maxRetries.toNat ∧
    Along step (fun s e => behaves (· == good) s e = true) twoNodes bothFail ∧
    (run step twoNodes bothFail).map (fun s => (s.calls true).isError) = some true :=
  ⟨twoNodes_started, by decide, by decide +kernel, by decide +kernel⟩

theorem one_fails_reaches_healthy :
    (run step twoNodes oneFails).map (fun s => ((s.calls true).isOk, (s.calls false).isOk)) =
      some (true, true) ∧
    ∀ s', run step twoNodes oneFails = some s' → ∀ t,
      (∀ r, s'.calls t = .returned r → ∃ text, r = .ok text) ∧
      stepsOf t oneFails ≤ 3 * [bad, good].length ∧
      ((∀ r, s'.calls t ≠ .returned r) →
        ∃ e, e.caller = t ∧ behaves (· == good) s' e = true ∧ (step s' e).isSome = true) := by
  refine ⟨by decide +kernel, fun s' hr t => ?_⟩
  apply failover_reaches_healthy twoNodes_started _ (by decide) (by decide +kernel) hr t
  exact ⟨good, by decide, by decide⟩

end instances
end PlaidRuntime.NodeSelection
