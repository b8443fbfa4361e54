import PlaidRuntime.EffectProgram
import PlaidRuntime.StepMachine

/-!
# Interleaved programs around one lock

Threads run programs whose requests are answered one at a time against a shared state.
The monitor rule proves an invariant of the part of the state that a lock protects: each
program is checked alone, with the protected part fixed while the lock is held.
-/
namespace PlaidRuntime.LockMonitor
open EffectProgram

/-- `reply` answers a request of a thread; the label chooses among the possible answers
and `none` means that the request has to wait. Notes are observations about one call. -/
structure System (E : Type) (R : E → Type) (S L C A G T : Type) where
  code : C → Prog E R A
  reply : T → S → (e : E) → L → Option (R e × S)
  fresh : G
  note : G → S → (e : E) → R e → S → G

structure Thread (E : Type) (R : E → Type) (C A G : Type) where
  call : C
  rest : Prog E R A
  notes : G

structure Config (E : Type) (R : E → Type) (S C A G T : Type) where
  shared : S
  threads : T → Option (Thread E R C A G)

inductive Action (L C T : Type)
  | start (t : T) (c : C)
  | step (t : T) (l : L)
  deriving DecidableEq

variable {E : Type} {R : E → Type} {S L C A G T O : Type} [DecidableEq T]

/-- A thread takes a new call only when its previous one has returned. -/
def Idle : Option (Thread E R C A G) → Bool
  | none => true
  | some ⟨_, .done _, _⟩ => true
  | some ⟨_, .request _ _, _⟩ => false

namespace System
variable (sys : System E R S L C A G T)

def put (σ : Config E R S C A G T) (s : S) (t : T) (th : Thread E R C A G) :
    Config E R S C A G T :=
  ⟨s, Function.update σ.threads t (some th)⟩

def next (σ : Config E R S C A G T) : Action L C T → Option (Config E R S C A G T)
  | .start t c =>
    if Idle (σ.threads t) then some (put σ σ.shared t ⟨c, sys.code c, sys.fresh⟩) else none
  | .step t l =>
    match σ.threads t with
    | some ⟨c, .request e k, g⟩ =>
      (sys.reply t σ.shared e l).map fun r =>
        put σ r.2 t ⟨c, k r.1, sys.note g σ.shared e r.1 r.2⟩
    | _ => none

abbrev run (σ : Config E R S C A G T) (as : List (Action L C T)) : Option (Config E R S C A G T) :=
  StepMachine.run sys.next σ as

/-- Every action of the schedule is taken from a configuration that satisfies `P`. -/
abbrev Along (P : Config E R S C A G T → Action L C T → Prop) (σ : Config E R S C A G T)
    (as : List (Action L C T)) : Prop :=
  StepMachine.Along sys.next P σ as

variable {sys}

theorem next_start {σ τ : Config E R S C A G T} {t : T} {c : C}
    (h : sys.next σ (.start t c) = some τ) :
    Idle (σ.threads t) = true ∧ τ = put σ σ.shared t ⟨c, sys.code c, sys.fresh⟩ := by
  simp only [next] at h
  split at h
  · exact ⟨‹_›, (Option.some.inj h).symm⟩
  · cases h

theorem next_step {σ τ : Config E R S C A G T} {t : T} {l : L}
    (h : sys.next σ (.step t l) = some τ) :
    ∃ c e k g r s', σ.threads t = some ⟨c, .request e k, g⟩ ∧
      sys.reply t σ.shared e l = some (r, s') ∧
      τ = put σ s' t ⟨c, k r, sys.note g σ.shared e r s'⟩ := by
  simp only [next] at h
  split at h
  · rename_i c e k g ht
    obtain ⟨⟨r, s'⟩, hr, rfl⟩ := Option.map_eq_some_iff.mp h
    exact ⟨c, e, k, g, r, s', ht, hr, rfl⟩
  · cases h

end System

section interference
variable (sys : System E R S L C A G T) (assumes : C → G → (e : E) → L → S → Prop)

/-- What a schedule has to grant: `starts` when a call begins, `assumes` at its requests. -/
def Granted (starts : C → Prop) (σ : Config E R S C A G T) : Action L C T → Prop
  | .start _ c => starts c
  | .step t l => ∀ c e k g, σ.threads t = some ⟨c, .request e k, g⟩ → assumes c g e l σ.shared

instance {starts : C → Prop} [DecidablePred starts]
    [∀ c g e l s, Decidable (assumes c g e l s)] (σ : Config E R S C A G T) (a : Action L C T) :
    Decidable (Granted assumes starts σ a) :=
  match a with
  | .start _ c => inferInstanceAs (Decidable (starts c))
  | .step t l =>
    match h : σ.threads t with
    | none => .isTrue (by simp [Granted, h])
    | some ⟨_, .done _, _⟩ => .isTrue (by simp [Granted, h])
    | some ⟨c, .request e k, g⟩ =>
      decidable_of_iff (assumes c g e l σ.shared) (by
        constructor
        · intro ha c' e' k' g' heq
          rw [h] at heq
          cases heq
          exact ha
        · exact fun hall => hall c e k g h)

/-- Every running call still ends well. -/
def EndWell (Q : C → A → G → Prop) (σ : Config E R S C A G T) : Prop :=
  ∀ t th, σ.threads t = some th →
    th.rest.Yields (sys.reply t) sys.note (assumes th.call) (Q th.call) th.notes

variable {sys assumes}

/-- Calls that end well under any interference do so in every interleaving. -/
theorem endWell_run {starts : C → Prop} {Q : C → A → G → Prop}
    (hcode : ∀ c t, starts c → (sys.code c).Yields (sys.reply t) sys.note (assumes c) (Q c) sys.fresh)
    {σ τ : Config E R S C A G T} {as : List (Action L C T)} (h : EndWell sys assumes Q σ)
    (ha : sys.Along (Granted assumes starts) σ as) (hr : sys.run σ as = some τ) :
    EndWell sys assumes Q τ := by
  refine StepMachine.run_invariant_along (fun σ a τ hw hP hn => ?_) h ha hr
  -- only the thread that moves has to be looked at
  have others : ∀ {s : S} {u : T} {thu : Thread E R C A G},
      thu.rest.Yields (sys.reply u) sys.note (assumes thu.call) (Q thu.call) thu.notes →
      EndWell sys assumes Q (System.put σ s u thu) := by
    intro s u thu hu t th ht
    by_cases htu : t = u
    · subst htu
      simp only [System.put, Function.update_self] at ht
      cases ht
      exact hu
    · simp only [System.put, Function.update_of_ne htu] at ht
      exact hw t th ht
  cases a with
  | start t c =>
    obtain ⟨-, rfl⟩ := System.next_start hn
    exact others (hcode c t hP)
  | step t l =>
    obtain ⟨c, e, k, g, r, s', ht, hreply, rfl⟩ := System.next_step hn
    exact others (hw t _ ht _ l r s' (hP c e k g ht) hreply)

end interference

/-- A lock and the part of the shared state it protects. `member` are the calls that may
take the lock, `serves` says which threads may serve which calls, `allows` is what a run
assumes of the state when it answers a request. -/
structure Monitor (sys : System E R S L C A G T) (O : Type) where
  holder : S → Option T
  view : S → O
  Inv : O → Prop
  member : C → Prop
  serves : T → C → Prop
  allows : C → E → S → Prop
  Noted : C → G → Prop
  Returns : C → A → G → Prop

namespace Monitor
variable {sys : System E R S L C A G T} (m : Monitor sys O)

/-- The rest of a member call is safe. `some o` means that the thread holds the lock and
that the protected part is `o`; it stays so until the thread itself acts. -/
def Safe (c : C) (t : T) : Prog E R A → Option O → G → Prop
  | .done a, held, g => held = none ∧ m.Noted c g ∧ m.Returns c a g
  | .request e k, none, g => m.Noted c g ∧ ∀ s l r s', m.allows c e s → m.holder s ≠ some t →
      sys.reply t s e l = some (r, s') →
      (m.view s' = m.view s ∧ m.holder s' = m.holder s ∧
        Safe c t (k r) none (sys.note g s e r s')) ∨
      (m.holder s = none ∧ m.holder s' = some t ∧ m.view s' = m.view s ∧
        (m.Inv (m.view s) → Safe c t (k r) (some (m.view s)) (sys.note g s e r s')))
  | .request e k, some o, g => m.Noted c g ∧ ∀ s l r s', m.allows c e s → m.holder s = some t →
      m.view s = o → sys.reply t s e l = some (r, s') →
      (m.holder s' = some t ∧ Safe c t (k r) (some (m.view s')) (sys.note g s e r s')) ∨
      (m.holder s' = none ∧ m.Inv (m.view s') ∧ Safe c t (k r) none (sys.note g s e r s'))

/-- Calls of other kinds leave the lock alone and change the protected part only while it
is free, keeping the invariant. -/
def Foreign (c : C) (t : T) : Prog E R A → Prop
  | .done _ => True
  | .request e k => (∀ s l r s', m.allows c e s → sys.reply t s e l = some (r, s') →
      m.holder s' = m.holder s ∧ (m.view s' = m.view s ∨
        (m.holder s = none ∧ (m.Inv (m.view s) → m.Inv (m.view s'))))) ∧
      ∀ r, Foreign c t (k r)

def held (s : S) (t : T) : Option O := if m.holder s = some t then some (m.view s) else none

/-- What the monitor knows of one thread. -/
def Tracked (s : S) (t : T) : Option (Thread E R C A G) → Prop
  | none => m.holder s ≠ some t
  | some th => (m.member th.call → m.Safe th.call t th.rest (m.held s t) th.notes) ∧
      (¬ m.member th.call → m.holder s ≠ some t ∧ m.Foreign th.call t th.rest)

structure Good (σ : Config E R S C A G T) : Prop where
  inv : m.holder σ.shared = none → m.Inv (m.view σ.shared)
  tracked : ∀ t, m.Tracked σ.shared t (σ.threads t)

def Allowed (σ : Config E R S C A G T) : Action L C T → Prop
  | .start t c => m.serves t c
  | .step t _ => ∀ c e k g, σ.threads t = some ⟨c, .request e k, g⟩ → m.allows c e σ.shared

variable {m}

omit [DecidableEq T] in
/-- A call is foreign when each request it can issue is harmless. -/
theorem foreign_of_uses {c : C} {t : T} {P : E → Prop} {p : Prog E R A} (h : p.Uses P)
    (hP : ∀ e s l r s', P e → m.allows c e s → sys.reply t s e l = some (r, s') →
      m.holder s' = m.holder s ∧ (m.view s' = m.view s ∨
        (m.holder s = none ∧ (m.Inv (m.view s) → m.Inv (m.view s'))))) : m.Foreign c t p := by
  induction p with
  | done a => trivial
  | request e k ih => exact ⟨fun s l r s' => hP e s l r s' h.1, fun r => ih r (h.2 r)⟩

theorem held_of_holder {s : S} {t : T} (h : m.holder s = some t) :
    m.held s t = some (m.view s) := by simp [held, h]

theorem held_of_not_holder {s : S} {t : T} (h : m.holder s ≠ some t) : m.held s t = none := by
  simp [held, h]

theorem Tracked.not_holder_of_idle {s : S} {t : T} {th : Option (Thread E R C A G)}
    (h : m.Tracked s t th) (hi : Idle th = true) : m.holder s ≠ some t := by
  classical
  match th, h, hi with
  | none, h, _ => exact h
  | some ⟨c, .done a, g⟩, h, _ =>
    by_cases hc : m.member c
    · intro hh
      have := (h.1 hc).1
      simp [held_of_holder hh] at this
    · exact (h.2 hc).1

/-- A thread that does not move keeps its status when the holder is unchanged, and the
protected part too if this thread is the holder. -/
theorem Tracked.frame {s s' : S} {u : T} {th : Option (Thread E R C A G)}
    (h : m.Tracked s u th) (hh : m.holder s' = some u ↔ m.holder s = some u)
    (hv : m.holder s = some u → m.view s' = m.view s) : m.Tracked s' u th := by
  have he : m.held s' u = m.held s u := by
    by_cases hu : m.holder s = some u
    · rw [held_of_holder hu, held_of_holder (hh.mpr hu), hv hu]
    · rw [held_of_not_holder hu, held_of_not_holder (mt hh.mp hu)]
  cases th with
  | none => exact mt hh.mp h
  | some th =>
    refine ⟨fun hc => ?_, fun hc => ?_⟩
    · rw [he]
      exact h.1 hc
    · exact ⟨mt hh.mp (h.2 hc).1, (h.2 hc).2⟩

theorem good_start {σ : Config E R S C A G T} {t : T} {c : C} (h : m.Good σ)
    (hi : Idle (σ.threads t) = true)
    (hsafe : m.member c → m.Safe c t (sys.code c) none sys.fresh)
    (hforeign : ¬ m.member c → m.Foreign c t (sys.code c)) :
    m.Good (System.put σ σ.shared t ⟨c, sys.code c, sys.fresh⟩) := by
  have hn := (h.tracked t).not_holder_of_idle hi
  refine ⟨h.inv, fun u => ?_⟩
  by_cases hu : u = t
  · subst hu
    simp only [System.put, Function.update_self, Tracked, held_of_not_holder hn]
    exact ⟨hsafe, fun hc => ⟨hn, hforeign hc⟩⟩
  · simp only [System.put, Function.update_of_ne hu]
    exact h.tracked u

theorem good_member_step {σ : Config E R S C A G T} {t : T} {c : C} {e : E} {k : R e → Prog E R A}
    {g : G} {l : L} {r : R e} {s' : S} (h : m.Good σ) (hc : m.member c)
    (ht : σ.threads t = some ⟨c, .request e k, g⟩) (ha : m.allows c e σ.shared)
    (hr : sys.reply t σ.shared e l = some (r, s')) :
    m.Good (System.put σ s' t ⟨c, k r, sys.note g σ.shared e r s'⟩) := by
  have hs := h.tracked t
  rw [ht] at hs
  have hs := hs.1 hc
  -- the moving thread first, then the others through the frame lemma
  have key : (m.holder s' = none → m.Inv (m.view s')) ∧
      m.Safe c t (k r) (m.held s' t) (sys.note g σ.shared e r s') ∧
      ∀ u, u ≠ t → (m.holder s' = some u ↔ m.holder σ.shared = some u) ∧
        (m.holder σ.shared = some u → m.view s' = m.view σ.shared) := by
    by_cases hh : m.holder σ.shared = some t
    · rw [held_of_holder hh] at hs
      rcases hs.2 _ _ _ _ ha hh rfl hr with ⟨h', hsafe⟩ | ⟨h', hinv, hsafe⟩
      · rw [held_of_holder h']
        refine ⟨fun hn => by simp [h'] at hn, hsafe, fun u hu => ?_⟩
        simp [hh, h', Ne.symm hu]
      · have hn : m.holder s' ≠ some t := by simp [h']
        rw [held_of_not_holder hn]
        refine ⟨fun _ => hinv, hsafe, fun u hu => ?_⟩
        simp [hh, h', Ne.symm hu]
    · rw [held_of_not_holder hh] at hs
      rcases hs.2 _ _ _ _ ha hh hr with ⟨hv, h', hsafe⟩ | ⟨hn, h', hv, hsafe⟩
      · rw [held_of_not_holder (h' ▸ hh)]
        refine ⟨fun hn => ?_, hsafe, fun u _ => ⟨by rw [h'], fun _ => hv⟩⟩
        rw [hv]
        exact h.inv (h' ▸ hn)
      · rw [held_of_holder h', hv]
        refine ⟨fun hn' => by simp [h'] at hn', hsafe (h.inv hn), fun u hu => ?_⟩
        simp [hn, h', Ne.symm hu]
  refine ⟨key.1, fun u => ?_⟩
  by_cases hu : u = t
  · subst hu
    simp only [System.put, Function.update_self, Tracked]
    exact ⟨fun _ => key.2.1, fun hn => absurd hc hn⟩
  · simp only [System.put, Function.update_of_ne hu]
    exact (h.tracked u).frame (key.2.2 u hu).1 (key.2.2 u hu).2

theorem good_foreign_step {σ : Config E R S C A G T} {t : T} {c : C} {e : E} {k : R e → Prog E R A}
    {g : G} {l : L} {r : R e} {s' : S} (h : m.Good σ) (hc : ¬ m.member c)
    (ht : σ.threads t = some ⟨c, .request e k, g⟩) (ha : m.allows c e σ.shared)
    (hr : sys.reply t σ.shared e l = some (r, s')) :
    m.Good (System.put σ s' t ⟨c, k r, sys.note g σ.shared e r s'⟩) := by
  have hs := h.tracked t
  rw [ht] at hs
  obtain ⟨hn, hf⟩ := hs.2 hc
  obtain ⟨hh, hv⟩ := hf.1 _ _ _ _ ha hr
  refine ⟨fun hnone => ?_, fun u => ?_⟩
  · rcases hv with hv | ⟨hfree, hinv⟩
    · simp only [System.put] at hnone ⊢
      rw [hv]
      exact h.inv (hh ▸ hnone)
    · exact hinv (h.inv hfree)
  · by_cases hu : u = t
    · subst hu
      simp only [System.put, Function.update_self, Tracked]
      exact ⟨fun hm => absurd hm hc, fun _ => ⟨hh ▸ hn, hf.2 r⟩⟩
    · simp only [System.put, Function.update_of_ne hu]
      refine (h.tracked u).frame (by rw [hh]) fun hhu => ?_
      rcases hv with hv | ⟨hfree, _⟩
      · exact hv
      · simp [hfree] at hhu

/-- The monitor rule: when every member call is safe and every other call is foreign, all
configurations of all admitted runs are good. -/
theorem good_run
    (hsafe : ∀ c t, m.serves t c → m.member c → m.Safe c t (sys.code c) none sys.fresh)
    (hforeign : ∀ c t, m.serves t c → ¬ m.member c → m.Foreign c t (sys.code c))
    {σ τ : Config E R S C A G T} {as : List (Action L C T)} (h : m.Good σ)
    (ha : sys.Along m.Allowed σ as) (hr : sys.run σ as = some τ) : m.Good τ := by
  classical
  refine StepMachine.run_invariant_along (fun σ a τ hg hP hn => ?_) h ha hr
  cases a with
  | start t c =>
    obtain ⟨hi, rfl⟩ := System.next_start hn
    exact good_start hg hi (hsafe c t hP) (hforeign c t hP)
  | step t l =>
    obtain ⟨c, e, k, g, r, s', ht, hr, rfl⟩ := System.next_step hn
    by_cases hc : m.member c
    · exact good_member_step hg hc ht (hP c e k g ht) hr
    · exact good_foreign_step hg hc ht (hP c e k g ht) hr

omit [DecidableEq T] in
theorem Safe.noted {c : C} {t : T} {p : Prog E R A} {o : Option O} {g : G}
    (h : m.Safe c t p o g) : m.Noted c g := by
  match p, o, h with
  | .done _, _, h => exact h.2.1
  | .request _ _, none, h => exact h.1
  | .request _ _, some _, h => exact h.1

theorem Good.noted {σ : Config E R S C A G T} (h : m.Good σ) {t : T} {th : Thread E R C A G}
    (ht : σ.threads t = some th) (hc : m.member th.call) : m.Noted th.call th.notes := by
  have hs := h.tracked t
  rw [ht] at hs
  exact (hs.1 hc).noted

theorem Good.returns {σ : Config E R S C A G T} (h : m.Good σ) {t : T} {c : C} {a : A} {g : G}
    (ht : σ.threads t = some ⟨c, .done a, g⟩) (hc : m.member c) : m.Returns c a g := by
  have hs := h.tracked t
  rw [ht] at hs
  exact (hs.1 hc).2.2

end Monitor
end PlaidRuntime.LockMonitor
