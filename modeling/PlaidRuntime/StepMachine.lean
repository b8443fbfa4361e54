import Mathlib

/-!
# Deterministic step machines

A machine steps under labels; a label that is not enabled has no successor. Everything that
an outside world decides is in the label, so a list of labels is a schedule.
-/
namespace PlaidRuntime.StepMachine

variable {S L : Type} (step : S → L → Option S)

def run (s : S) : List L → Option S
  | [] => some s
  | l :: ls => (step s l).bind fun t => run t ls

/-- Every label of the schedule is taken from a state that satisfies `P`. -/
def Along (P : S → L → Prop) (s : S) : List L → Prop
  | [] => True
  | l :: ls => P s l ∧ ∀ t, step s l = some t → Along P t ls

/-- On a concrete schedule the assumption can be evaluated. -/
instance decidableAlong {P : S → L → Prop} [∀ s l, Decidable (P s l)] (s : S) :
    (ls : List L) → Decidable (Along step P s ls)
  | [] => .isTrue trivial
  | l :: ls =>
    have : Decidable (∀ t, step s l = some t → Along step P t ls) :=
      match step s l with
      | none => .isTrue (by simp)
      | some t =>
        have : Decidable (Along step P t ls) := decidableAlong t ls
        decidable_of_iff (Along step P t ls) (by simp)
    inferInstanceAs (Decidable (_ ∧ _))

variable {step}

theorem run_invariant_along {J : S → Prop} {P : S → L → Prop}
    (hstep : ∀ s l t, J s → P s l → step s l = some t → J t) {s t : S} {ls : List L} (h : J s)
    (hP : Along step P s ls) (hr : run step s ls = some t) : J t := by
  induction ls generalizing s with
  | nil =>
    cases hr
    exact h
  | cons l ls ih =>
    obtain ⟨u, hn, hr⟩ := Option.bind_eq_some_iff.mp hr
    exact ih (hstep s l u h hP.1 hn) (hP.2 u hn) hr

/-- An invariant may also speak about the labels taken so far. -/
theorem run_invariant_history {J : List L → S → Prop} {P : S → L → Prop}
    (hstep : ∀ p s l t, J p s → P s l → step s l = some t → J (p ++ [l]) t) {p : List L} {s t : S}
    {ls : List L} (h : J p s) (hP : Along step P s ls) (hr : run step s ls = some t) :
    J (p ++ ls) t := by
  induction ls generalizing s p with
  | nil =>
    cases hr
    rwa [List.append_nil]
  | cons l ls ih =>
    obtain ⟨u, hn, hr⟩ := Option.bind_eq_some_iff.mp hr
    have hnext := ih (hstep p s l u h hP.1 hn) (hP.2 u hn) hr
    rwa [List.append_assoc] at hnext

/-- What every step preserves, every run preserves. -/
theorem run_invariant {J : S → Prop} (hstep : ∀ s l t, J s → step s l = some t → J t) {s t : S}
    {ls : List L} (h : J s) (hr : run step s ls = some t) : J t := by
  induction ls generalizing s with
  | nil =>
    cases hr
    exact h
  | cons l ls ih =>
    obtain ⟨u, hn, hr⟩ := Option.bind_eq_some_iff.mp hr
    exact ih (hstep s l u h hn) hr

theorem run_append (s : S) (ls ls' : List L) :
    run step s (ls ++ ls') = (run step s ls).bind fun t => run step t ls' := by
  induction ls generalizing s with
  | nil => rfl
  | cons l ls ih =>
    rw [List.cons_append, run, run, Option.bind_assoc]
    simp only [ih]

theorem along_append {P : S → L → Prop} {s : S} {ls ls' : List L} (h : Along step P s ls)
    (h' : ∀ t, run step s ls = some t → Along step P t ls') : Along step P s (ls ++ ls') := by
  induction ls generalizing s with
  | nil => exact h' s rfl
  | cons l ls ih =>
    refine ⟨h.1, fun t ht => ih (h.2 t ht) fun u hu => h' u ?_⟩
    rw [run, ht, Option.bind_some, hu]

/-- The assumption holds where the next label is taken. -/
theorem Along.next {P : S → L → Prop} {s t : S} {ls ls' : List L} {l : L}
    (h : Along step P s (ls ++ l :: ls')) (hr : run step s ls = some t) : P t l := by
  induction ls generalizing s with
  | nil =>
    cases hr
    exact h.1
  | cons l' ls ih =>
    obtain ⟨u, hn, hr⟩ := Option.bind_eq_some_iff.mp hr
    exact ih (h.2 u hn) hr

theorem Along.mono {P P' : S → L → Prop} (hP : ∀ s l, P s l → P' s l) {s : S} {ls : List L}
    (h : Along step P s ls) : Along step P' s ls := by
  induction ls generalizing s with
  | nil => trivial
  | cons l ls ih => exact ⟨hP s l h.1, fun t hn => ih (h.2 t hn)⟩

/-- An assumption may be weakened by an invariant that it keeps. -/
theorem along_mono_of_invariant {J : S → Prop} {P P' : S → L → Prop}
    (hstep : ∀ s l t, J s → P s l → step s l = some t → J t) (hP : ∀ s l, J s → P s l → P' s l) {s : S}
    {ls : List L} (h : J s) (ha : Along step P s ls) : Along step P' s ls := by
  induction ls generalizing s with
  | nil => trivial
  | cons l ls ih => exact ⟨hP s l h ha.1, fun t hn => ih (hstep s l t h ha.1 hn) (ha.2 t hn)⟩

/-- An assumption that holds everywhere holds along every schedule. -/
theorem along_of_forall {P : S → L → Prop} (hP : ∀ s l, P s l) (s : S) (ls : List L) :
    Along step P s ls := by
  induction ls generalizing s with
  | nil => trivial
  | cons l ls ih => exact ⟨hP s l, fun t _ => ih t⟩

/-- Two conditions that agree in the states met hold along the same schedules. -/
theorem along_iff {J : S → Prop} {A P Q : S → L → Prop}
    (hstep : ∀ s l t, J s → A s l → step s l = some t → J t)
    (hiff : ∀ s l, J s → A s l → (P s l ↔ Q s l)) {s : S} {ls : List L} (h : J s)
    (hA : Along step A s ls) : Along step P s ls ↔ Along step Q s ls := by
  induction ls generalizing s with
  | nil => exact Iff.rfl
  | cons l ls ih =>
    have hnext : ∀ t, step s l = some t → (Along step P t ls ↔ Along step Q t ls) :=
      fun t ht => ih (hstep s l t h hA.1 ht) (hA.2 t ht)
    constructor
    · intro hP
      exact ⟨(hiff s l h hA.1).mp hP.1, fun t ht => (hnext t ht).mp (hP.2 t ht)⟩
    · intro hQ
      exact ⟨(hiff s l h hA.1).mpr hQ.1, fun t ht => (hnext t ht).mpr (hQ.2 t ht)⟩

section answers
variable {S T I O P : Type}

/-- What a machine that always answers gives for a list of inputs. -/
def answers (step : S → I → O × S) (s : S) : List I → List O
  | [] => []
  | i :: is => (step s i).1 :: answers step (step s i).2 is

/-- Two machines that answer alike from related states, and stay related, answer alike all the
way. -/
theorem answers_related {step : S → I → O × S} {step' : T → I → P × T} {R : S → T → Prop}
    {Same : O → P → Prop} {Ok : I → Prop}
    (hstep : ∀ s t i, R s t → Ok i →
      Same (step s i).1 (step' t i).1 ∧ R (step s i).2 (step' t i).2)
    {s : S} {t : T} (h : R s t) {is : List I} (hok : ∀ i ∈ is, Ok i) :
    List.Forall₂ Same (answers step s is) (answers step' t is) := by
  induction is generalizing s t with
  | nil => exact .nil
  | cons i is ih =>
    obtain ⟨hsame, hrel⟩ := hstep s t i h (hok i List.mem_cons_self)
    exact .cons hsame (ih hrel fun j hj => hok j (List.mem_cons_of_mem i hj))

end answers

/-! Machines that run on their own. -/
section unlabelled
variable {S : Type} {step : S → Option S} {s t u : S}

def Reaches (step : S → Option S) : S → S → Prop :=
  Relation.ReflTransGen fun s t => step s = some t

theorem Reaches.invariant {J : S → Prop} (hstep : ∀ s t, J s → step s = some t → J t) (h : J s)
    (hr : Reaches step s t) : J t := by
  induction hr with
  | refl => exact h
  | tail _ hlast ih => exact hstep _ _ ih hlast

/-- Where every step gets smaller the machine comes to rest. -/
theorem exists_final {μ : S → ℕ} (hμ : ∀ s t, step s = some t → μ t < μ s) (s : S) :
    ∃ t, Reaches step s t ∧ step t = none := by
  induction hn : μ s using Nat.strong_induction_on generalizing s with
  | h n ih =>
    cases hs : step s with
    | none => exact ⟨s, .refl, hs⟩
    | some t =>
      obtain ⟨u, htu, hu⟩ := ih (μ t) (hn ▸ hμ s t hs) t rfl
      exact ⟨u, .head hs htu, hu⟩

end unlabelled
end PlaidRuntime.StepMachine
