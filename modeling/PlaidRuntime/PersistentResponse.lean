import PlaidRuntime.StepMachine

/-!
# The persistent response of a module

Executions of one module on any threads. Each starts with a copy of the stored response in its
environment, may set the response there, and writes what it finds there back when it ends well
(`executor/mod.rs`, `functions/response.rs`).
-/
namespace PlaidRuntime.PersistentResponse
open StepMachine

/-- `response` is the field of the environment; `own` remembers what the execution itself set
last. -/
inductive Execution
  | waiting
  | running (response own : Option String)
  | finished

variable {T : Type} [DecidableEq T]

/-- `data` sits behind a lock that is only held to copy it or to replace it. -/
structure Module (T : Type) where
  maxSize : ℕ
  data : Option String
  executions : T → Execution
  /-- The executions that serve a GET, and the answers they have sent. -/
  servesGet : T → Bool
  answers : T → Option (Option String)
  /-- The response set by the execution that was the last to end well of those that had set one
  within the size limit. -/
  lastSet : Option String

inductive Event (T : Type)
  | start (t : T)
  | setResponse (t : T) (message : String)
  | finish (t : T) (success : Bool)

def answer (s : Module T) (t : T) (body : Option String) : T → Option (Option String) :=
  if s.servesGet t then Function.update s.answers t (some body) else s.answers

/-- A response that is too large is an error, and the waiting GET is not answered. -/
def updatePersistentResponse (s : Module T) (t : T) (response : Option String) : Module T :=
  match response with
  | none => { s with answers := answer s t none }
  | some r =>
    if r.utf8ByteSize ≤ s.maxSize then { s with data := some r, answers := answer s t (some r) }
    else s

def recordSet (s : Module T) (own : Option String) : Option String :=
  match own with
  | none => s.lastSet
  | some r => if r.utf8ByteSize ≤ s.maxSize then some r else s.lastSet

def step (s : Module T) : Event T → Option (Module T)
  | .start t =>
    match s.executions t with
    | .waiting =>
      some { s with executions := Function.update s.executions t (.running s.data none) }
    | _ => none
  | .setResponse t message =>
    match s.executions t with
    | .running _ _ => some { s with
        executions := Function.update s.executions t (.running (some message) (some message)) }
    | _ => none
  | .finish t success =>
    match s.executions t with
    | .running response own =>
      let ended := { s with executions := Function.update s.executions t .finished }
      if success then
        some { updatePersistentResponse ended t response with lastSet := recordSet s own }
      else some ended
    | _ => none

/-- The stored response is the one set last, and an execution that set none leaves it alone and
answers its GET with nothing. -/
def Keeps (s : Module T) (e : Event T) : Prop :=
  ∀ s', step s e = some s' → s'.data = s'.lastSet ∧
    ∀ t success response, e = .finish t success → s.executions t = .running response none →
      s'.data = s.data ∧ (s.servesGet t = true → s'.answers t = some none)

/-- An execution that set no response has none in its environment when it ends well, or it
serves no GET and writing back what it has changes nothing. One that fails drops the sender of
its GET, so that it must serve none. -/
def Untouched (s : Module T) : Event T → Prop
  | .finish t true =>
    ∀ r, s.executions t = .running (some r) none →
      s.servesGet t = false ∧ (s.data = some r ∨ s.maxSize < r.utf8ByteSize)
  | .finish t false => ∀ response, s.executions t = .running response none → s.servesGet t = false
  | _ => True

/-- What an execution has set itself is what its environment holds, and it has sent no answer
before its end. -/
structure Consistent (s : Module T) : Prop where
  owned : ∀ t response r, s.executions t = .running response (some r) → response = some r
  unanswered : ∀ t, s.executions t ≠ .finished → s.answers t = none

structure Started (s : Module T) : Prop where
  executions : ∀ t, s.executions t = .waiting
  answers : ∀ t, s.answers t = none
  lastSet : s.data = s.lastSet

omit [DecidableEq T] in
theorem Started.consistent {s : Module T} (h : Started s) : Consistent s := by
  constructor
  · intro t response r hr
    rw [h.executions t] at hr
    cases hr
  · intro t _
    exact h.answers t

/-- A change of one execution that sends no answer. -/
theorem Consistent.set {s : Module T} (h : Consistent s) {t : T} {x : Execution}
    (howned : ∀ response r, x = .running response (some r) → response = some r)
    (ht : s.executions t ≠ .finished) :
    Consistent { s with executions := Function.update s.executions t x } := by
  constructor
  · intro u response r hu
    simp only [Function.update_apply] at hu
    split at hu
    · exact howned response r hu
    · exact h.owned u response r hu
  · intro u hu
    by_cases hut : u = t
    · rw [hut]
      exact h.unanswered t ht
    · simp only [Function.update_of_ne hut] at hu
      exact h.unanswered u hu

theorem updatePersistentResponse_answers {s : Module T} {t u : T} {response : Option String}
    (hu : u ≠ t) : (updatePersistentResponse s t response).answers u = s.answers u := by
  have hanswer : ∀ body, answer s t body u = s.answers u := by
    intro body
    unfold answer
    split
    · exact Function.update_of_ne hu _ _
    · rfl
  unfold updatePersistentResponse
  cases response with
  | none => exact hanswer none
  | some r =>
    simp only
    split
    · exact hanswer (some r)
    · rfl

theorem updatePersistentResponse_executions (s : Module T) (t : T) (response : Option String) :
    (updatePersistentResponse s t response).executions = s.executions := by
  unfold updatePersistentResponse
  cases response with
  | none => rfl
  | some r =>
    simp only
    split <;> rfl

theorem Consistent.step {s s' : Module T} {e : Event T} (h : Consistent s)
    (hs : step s e = some s') : Consistent s' := by
  cases e with
  | start t =>
    simp only [PersistentResponse.step] at hs
    split at hs
    · rename_i ht
      cases hs
      exact h.set (by simp) (by rw [ht]; nofun)
    · cases hs
  | setResponse t message =>
    simp only [PersistentResponse.step] at hs
    split at hs
    · rename_i ht
      cases hs
      exact h.set (by simp) (by rw [ht]; nofun)
    · cases hs
  | finish t success =>
    simp only [PersistentResponse.step] at hs
    split at hs
    · rename_i response own ht
      have hended := h.set (x := .finished) nofun (by rw [ht]; nofun)
      split at hs <;> cases hs
      · constructor
        · intro u
          simp only [updatePersistentResponse_executions]
          exact hended.owned u
        · intro u hu
          have hut : u ≠ t := by
            rintro rfl
            simp only [updatePersistentResponse_executions, Function.update_self] at hu
            exact hu rfl
          simp only [updatePersistentResponse_executions] at hu
          simp only [updatePersistentResponse_answers hut]
          exact hended.unanswered u hu
      · exact hended
    · cases hs

/-- What the end of a successful execution does to the response and to its own GET. -/
theorem finish_result {s s' : Module T} {t : T} {response own : Option String}
    (h : Consistent s) (ht : s.executions t = .running response own)
    (hs : step s (.finish t true) = some s') :
    s'.lastSet = recordSet s own ∧
    (response = none ∧ s'.data = s.data ∧ (s.servesGet t = true → s'.answers t = some none) ∨
    ∃ r, response = some r ∧
      (r.utf8ByteSize ≤ s.maxSize ∧ s'.data = some r ∧
        (s.servesGet t = true → s'.answers t = some (some r)) ∨
      s.maxSize < r.utf8ByteSize ∧ s'.data = s.data ∧ s'.answers t = none)) := by
  have hnone := h.unanswered t (by rw [ht]; nofun)
  simp only [step, ht, if_true, Option.some.injEq] at hs
  subst hs
  refine ⟨rfl, ?_⟩
  cases response with
  | none =>
    refine Or.inl ⟨rfl, rfl, fun hg => ?_⟩
    simp [updatePersistentResponse, answer, hg]
  | some r =>
    refine Or.inr ⟨r, rfl, ?_⟩
    by_cases hr : r.utf8ByteSize ≤ s.maxSize
    · refine Or.inl ⟨hr, ?_, fun hg => ?_⟩
      · simp [updatePersistentResponse, hr]
      · simp [updatePersistentResponse, hr, answer, hg]
    · refine Or.inr ⟨Nat.lt_of_not_le hr, ?_, ?_⟩
      · simp [updatePersistentResponse, hr]
      · simp [updatePersistentResponse, hr, hnone]

theorem keeps_finish_iff {s : Module T} (h : Consistent s) (hd : s.data = s.lastSet) (t : T) :
    Keeps s (.finish t true) ↔ Untouched s (.finish t true) := by
  cases ht : s.executions t with
  | waiting =>
    apply iff_of_true
    · intro s' hs
      simp [step, ht] at hs
    · intro r hr
      rw [ht] at hr
      cases hr
  | finished =>
    apply iff_of_true
    · intro s' hs
      simp [step, ht] at hs
    · intro r hr
      rw [ht] at hr
      cases hr
  | running response own =>
    constructor
    · intro hk r hr
      rw [ht] at hr
      cases hr
      obtain ⟨s', hs⟩ : ∃ s', step s (.finish t true) = some s' := by
        simp [step, ht]
      obtain ⟨-, hr⟩ := finish_result h ht hs
      obtain ⟨hdata, hget⟩ := (hk s' hs).2 t true (some r) rfl ht
      have hno : s.servesGet t = false := by
        by_contra hg
        rw [Bool.not_eq_false] at hg
        have hans := hget hg
        rcases hr with ⟨hr, -⟩ | ⟨r', hr', ⟨-, -, hans'⟩ | ⟨-, -, hans'⟩⟩
        · cases hr
        · rw [hans' hg] at hans
          cases hans
        · rw [hans'] at hans
          cases hans
      refine ⟨hno, ?_⟩
      rcases hr with ⟨hr, -⟩ | ⟨r', hr', ⟨-, hdata', -⟩ | ⟨hlarge, -, -⟩⟩
      · cases hr
      · cases hr'
        exact Or.inl (hdata.symm.trans hdata')
      · cases hr'
        exact Or.inr hlarge
    · intro hu s' hs
      obtain ⟨hset, hr⟩ := finish_result h ht hs
      cases own with
      | some r =>
        -- the execution has set the response itself
        cases h.owned t response r ht
        refine ⟨?_, fun u success response' hu' hrun => ?_⟩
        · rw [hset]
          rcases hr with ⟨hr, -⟩ | ⟨r', hr', ⟨hsize, hdata, -⟩ | ⟨hlarge, hdata, -⟩⟩
          · cases hr
          · cases hr'
            rw [hdata, recordSet, if_pos hsize]
          · cases hr'
            rw [hdata, recordSet, if_neg (Nat.not_le.mpr hlarge), hd]
        · cases hu'
          rw [ht] at hrun
          cases hrun
      | none =>
        have hsame : s'.data = s.data ∧ (s.servesGet t = true → s'.answers t = some none) := by
          rcases hr with ⟨-, hdata, hans⟩ | ⟨r, rfl, hr⟩
          · exact ⟨hdata, hans⟩
          · obtain ⟨hno, hcopy⟩ := hu r ht
            refine ⟨?_, fun hg => ?_⟩
            · rcases hr with ⟨hsize, hdata, -⟩ | ⟨-, hdata, -⟩
              · rcases hcopy with hcopy | hlarge
                · rw [hdata, hcopy]
                · omega
              · exact hdata
            · rw [hno] at hg
              cases hg
        refine ⟨?_, fun u success response' hu' hrun => ?_⟩
        · rw [hset, hsame.1, hd]
          rfl
        · cases hu'
          exact hsame

/-- A failing execution changes nothing, and its GET is not answered. -/
theorem keeps_failed_iff {s : Module T} (h : Consistent s) (hd : s.data = s.lastSet) (t : T) :
    Keeps s (.finish t false) ↔ Untouched s (.finish t false) := by
  have hended : ∀ s', step s (.finish t false) = some s' →
      s'.data = s.data ∧ s'.lastSet = s.lastSet ∧ s'.answers = s.answers := by
    intro s' hs
    simp only [step] at hs
    split at hs
    · cases hs
      exact ⟨rfl, rfl, rfl⟩
    · cases hs
  constructor
  · intro hk response ht
    obtain ⟨s', hs⟩ : ∃ s', step s (.finish t false) = some s' := by
      simp [step, ht]
    have hnone : s'.answers t = none := by
      rw [(hended s' hs).2.2]
      exact h.unanswered t (by rw [ht]; nofun)
    by_contra hg
    rw [Bool.not_eq_false] at hg
    have hans := ((hk s' hs).2 t false response rfl ht).2 hg
    rw [hnone] at hans
    cases hans
  · intro hu s' hs
    obtain ⟨hdata, hset, -⟩ := hended s' hs
    refine ⟨by rw [hdata, hset, hd], fun u success response hu' hrun => ⟨hdata, fun hg => ?_⟩⟩
    cases hu'
    rw [hu response hrun] at hg
    cases hg

/-- One step keeps the response of the last setter if and only if it is not the end of an
execution that would write a stale copy back or leaves its GET without an answer. -/
theorem keeps_iff {s : Module T} (h : Consistent s) (hd : s.data = s.lastSet) (e : Event T) :
    Keeps s e ↔ Untouched s e := by
  cases e with
  | start t =>
    apply iff_of_true _ trivial
    intro s' hs
    simp only [step] at hs
    split at hs
    · cases hs
      exact ⟨hd, nofun⟩
    · cases hs
  | setResponse t message =>
    apply iff_of_true _ trivial
    intro s' hs
    simp only [step] at hs
    split at hs
    · cases hs
      exact ⟨hd, nofun⟩
    · cases hs
  | finish t success =>
    cases success with
    | false => exact keeps_failed_iff h hd t
    | true => exact keeps_finish_iff h hd t

theorem along_keeps_iff {s : Module T} (h : Consistent s) (hd : s.data = s.lastSet)
    (es : List (Event T)) : Along step Keeps s es ↔ Along step Untouched s es := by
  induction es generalizing s with
  | nil => exact Iff.rfl
  | cons e es ih =>
    constructor
    · intro hk
      refine ⟨(keeps_iff h hd e).mp hk.1, fun s' hs => ?_⟩
      exact (ih (h.step hs) (hk.1 s' hs).1).mp (hk.2 s' hs)
    · intro hu
      have hk := (keeps_iff h hd e).mpr hu.1
      refine ⟨hk, fun s' hs => ?_⟩
      exact (ih (h.step hs) (hk s' hs).1).mpr (hu.2 s' hs)

/-- In a run the stored response is at every moment the one set last and every GET of an execution
that has set none gets nothing as its answer, if and only if no such execution ends with a copy
that it writes over a newer response or gives to its GET, and none that serves a GET fails. -/
theorem persistent_response_iff {s : Module T} (hs : Started s) (es : List (Event T)) :
    Along step Keeps s es ↔ Along step Untouched s es :=
  along_keeps_iff hs.consistent hs.lastSet es

section instances

/-- The first of two executions may serve a GET. -/
def stored (data : Option String) (get : Bool) : Module Bool where
  maxSize := 100
  data := data
  executions _ := .waiting
  servesGet t := t && get
  answers _ := none
  lastSet := data

theorem stored_started (data : Option String) (get : Bool) : Started (stored data get) :=
  ⟨fun _ => rfl, fun _ => rfl, rfl⟩

/-- The first execution starts, the second sets a new response and ends, then the first ends. -/
def overlap : List (Event Bool) :=
  [.start true, .start false, .setResponse false "new", .finish false true, .finish true true]

/-- The older copy is written over the newer response. -/
theorem stale_copy_overwrites :
    Started (stored (some "old") false) ∧ ¬ Along step Keeps (stored (some "old") false) overlap := by
  have hs := stored_started (some "old") false
  refine ⟨hs, ?_⟩
  rw [along_keeps_iff hs.consistent hs.lastSet]
  intro h
  have hu : Untouched _ (.finish true true) :=
    ((((h.2 _ rfl).2 _ rfl).2 _ rfl).2 _ rfl).1
  obtain ⟨-, hold | hlarge⟩ := hu "old" rfl
  · exact absurd hold (by decide)
  · exact absurd hlarge (by decide)

/-- When nothing is stored yet, the same order does no harm, also to a GET of the first. -/
theorem overlap_without_copy : Along step Keeps (stored none true) overlap := by
  rw [persistent_response_iff (stored_started _ _)]
  refine ⟨trivial, fun s₁ h₁ => ⟨trivial, fun s₂ h₂ => ⟨trivial, fun s₃ h₃ => ?_⟩⟩⟩
  obtain rfl := Option.some.inj h₁
  obtain rfl := Option.some.inj h₂
  obtain rfl := Option.some.inj h₃
  refine ⟨fun r hr => ?_, fun s₄ h₄ => ⟨fun r hr => ?_, fun _ _ => trivial⟩⟩
  · have hsetter : Execution.running (some "new") (some "new") = .running (some r) none := hr
    cases hsetter
  · obtain rfl := Option.some.inj h₄
    have hfresh : Execution.running none none = .running (some r) none := hr
    cases hfresh

end instances
end PlaidRuntime.PersistentResponse
