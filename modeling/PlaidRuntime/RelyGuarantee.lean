import PlaidRuntime.LockMonitor

/-!
# Rely and guarantee

Every call is checked alone, against a relation that says what the other threads may do to the
shared state between two of its requests. In return each of its own steps has to stay within
what the others rely on.
-/
namespace PlaidRuntime.RelyGuarantee
open EffectProgram LockMonitor

variable {E : Type} {R : E → Type} {S L C A G T : Type} [DecidableEq T]

/-- What every reply keeps, every run keeps. -/
theorem shared_invariant {sys : System E R S L C A G T} {J : S → Prop}
    (hreply : ∀ t s e l r s', J s → sys.reply t s e l = some (r, s') → J s')
    {σ τ : Config E R S C A G T} {as : List (Action L C T)} (h : J σ.shared)
    (hr : sys.run σ as = some τ) : J τ.shared := by
  refine StepMachine.run_invariant (J := fun σ => J σ.shared) (fun σ a τ hj hn => ?_) h hr
  cases a with
  | start t c =>
    obtain ⟨-, rfl⟩ := System.next_start hn
    exact hj
  | step t l =>
    obtain ⟨c, e, next, g, r, s', -, hstep, rfl⟩ := System.next_step hn
    exact hreply t _ e l r s' hj hstep

/-- `Inv` holds between any two steps, `Rely t` is what the others may do while thread `t` waits.
`Ready t` holds when `t` may take a new call, `At t` when it stands at a request and `Ends t` when
a call of `t` has returned. -/
structure Contract (sys : System E R S L C A G T) where
  Inv : S → Prop
  Rely : T → S → S → Prop
  Ready : T → S → Prop
  At : T → E → S → Prop
  Ends : T → C → A → G → S → Prop
  rely_refl : ∀ t s, Rely t s s
  rely_trans : ∀ t s s₁ s₂, Rely t s s₁ → Rely t s₁ s₂ → Rely t s s₂
  ready_stable : ∀ t s s', Rely t s s' → Ready t s → Ready t s'
  at_stable : ∀ t e s s', Rely t s s' → At t e s → At t e s'
  ends_stable : ∀ t c a g s s', Rely t s s' → Ends t c a g s → Ends t c a g s'
  ends_ready : ∀ t c a g s, Ends t c a g s → Ready t s

namespace Contract
variable {sys : System E R S L C A G T} (k : Contract sys)

/-- From here on the program of thread `t` keeps the contract, and it ends with `Q`. -/
def Safe {α : Type} (t : T) (Q : α → G → S → Prop) : Prog E R α → G → S → Prop
  | .done a, g, s => Q a g s
  | .request e next, g, s => k.At t e s ∧ ∀ s₁ l r s₂, k.Rely t s s₁ → k.Inv s₁ →
      sys.reply t s₁ e l = some (r, s₂) →
      k.Inv s₂ ∧ (∀ u, u ≠ t → k.Rely u s₁ s₂) ∧
        Safe t Q (next r) (sys.note g s₁ e r s₂) s₂

/-- What holds of one thread. -/
def Holds (s : S) (t : T) : Option (Thread E R C A G) → Prop
  | none => k.Ready t s
  | some th => k.Safe t (k.Ends t th.call) th.rest th.notes s

structure Good (σ : Config E R S C A G T) : Prop where
  inv : k.Inv σ.shared
  holds : ∀ t, k.Holds σ.shared t (σ.threads t)

variable {k}

section safe
variable {α β : Type} {t : T} {Q Q' : α → G → S → Prop} {p : Prog E R α} {g : G} {s s' : S}

omit [DecidableEq T] in
theorem Safe.mono (h : k.Safe t Q p g s) (hQ : ∀ a g s, Q a g s → Q' a g s) :
    k.Safe t Q' p g s := by
  induction p generalizing g s with
  | done a => exact hQ a g s h
  | request e next ih =>
    refine ⟨h.1, fun s₁ l r s₂ hrely hinv hreply => ?_⟩
    obtain ⟨hinv', hothers, hrest⟩ := h.2 s₁ l r s₂ hrely hinv hreply
    exact ⟨hinv', hothers, ih r hrest⟩

omit [DecidableEq T] in
theorem Safe.bind {Q : β → G → S → Prop} {f : α → Prog E R β}
    (h : k.Safe t (fun a g s => k.Safe t Q (f a) g s) p g s) : k.Safe t Q (p >>= f) g s := by
  induction p generalizing g s with
  | done a => exact h
  | request e next ih =>
    refine ⟨h.1, fun s₁ l r s₂ hrely hinv hreply => ?_⟩
    obtain ⟨hinv', hothers, hrest⟩ := h.2 s₁ l r s₂ hrely hinv hreply
    exact ⟨hinv', hothers, ih r hrest⟩

omit [DecidableEq T] in
/-- What the others do meanwhile does not matter. -/
theorem Safe.stable (hQ : ∀ a g s s', k.Rely t s s' → Q a g s → Q a g s') (h : k.Safe t Q p g s)
    (hrely : k.Rely t s s') : k.Safe t Q p g s' := by
  cases p with
  | done a => exact hQ a g s s' hrely h
  | request e next =>
    refine ⟨k.at_stable t e s s' hrely h.1, fun s₁ l r s₂ hrely' hinv hreply => ?_⟩
    exact h.2 s₁ l r s₂ (k.rely_trans t s s' s₁ hrely hrely') hinv hreply

omit [DecidableEq T] in
/-- A program is safe when what carries out its requests is. -/
theorem Safe.interpret {E' : Type} {R' : E' → Type} {p : Prog E' R' α}
    {f : (e : E') → Prog E R (R' e)} {I : G → S → Prop}
    (hf : ∀ e g s, I g s → k.Safe t (fun _ g s => I g s) (f e) g s) (h : I g s) :
    k.Safe t (fun _ g s => I g s) (p.interpret f) g s := by
  induction p generalizing g s with
  | done a => exact h
  | request e next ih => exact Safe.bind ((hf e g s h).mono fun r g s hi => ih r hi)

end safe

omit [DecidableEq T] in
theorem Holds.stable {s s' : S} {t : T} {th : Option (Thread E R C A G)} (h : k.Holds s t th)
    (hrely : k.Rely t s s') : k.Holds s' t th := by
  cases th with
  | none => exact k.ready_stable t s s' hrely h
  | some th => exact Safe.stable (k.ends_stable t th.call) h hrely

omit [DecidableEq T] in
theorem Holds.ready {s : S} {t : T} {th : Option (Thread E R C A G)} (h : k.Holds s t th)
    (hidle : Idle th = true) : k.Ready t s := by
  match th, h, hidle with
  | none, h, _ => exact h
  | some ⟨c, .done a, g⟩, h, _ => exact k.ends_ready t c a g s h

/-- A change by thread `t`, after which `t` itself is as it should be. -/
theorem Good.put {σ : Config E R S C A G T} (h : k.Good σ) {s : S} {t : T}
    {th : Thread E R C A G} (hinv : k.Inv s) (hothers : ∀ u, u ≠ t → k.Rely u σ.shared s)
    (ht : k.Safe t (k.Ends t th.call) th.rest th.notes s) : k.Good (System.put σ s t th) := by
  refine ⟨hinv, fun u => ?_⟩
  by_cases hu : u = t
  · subst hu
    simp only [System.put, Function.update_self]
    exact ht
  · simp only [System.put, Function.update_of_ne hu]
    exact (h.holds u).stable (hothers u hu)

theorem Good.next
    (hcode : ∀ t c s, k.Inv s → k.Ready t s → k.Safe t (k.Ends t c) (sys.code c) sys.fresh s)
    {σ τ : Config E R S C A G T} {a : Action L C T} (h : k.Good σ) (hn : sys.next σ a = some τ) :
    k.Good τ := by
  cases a with
  | start t c =>
    obtain ⟨hidle, rfl⟩ := System.next_start hn
    have hready := (h.holds t).ready hidle
    exact h.put h.inv (fun u _ => k.rely_refl u _) (hcode t c _ h.inv hready)
  | step t l =>
    obtain ⟨c, e, next, g, r, s', ht, hreply, rfl⟩ := System.next_step hn
    have hsafe := h.holds t
    rw [ht] at hsafe
    obtain ⟨hinv, hothers, hrest⟩ := hsafe.2 _ l r s' (k.rely_refl t _) h.inv hreply
    exact h.put hinv hothers hrest

/-- Calls that keep the contract alone keep it together, in every interleaving. -/
theorem good_run
    (hcode : ∀ t c s, k.Inv s → k.Ready t s → k.Safe t (k.Ends t c) (sys.code c) sys.fresh s)
    {σ τ : Config E R S C A G T} {as : List (Action L C T)} (h : k.Good σ)
    (hr : sys.run σ as = some τ) : k.Good τ :=
  StepMachine.run_invariant (fun _ _ _ hg hn => Good.next hcode hg hn) h hr

omit [DecidableEq T] in
/-- What a call that has returned leaves behind. -/
theorem Good.ends {σ : Config E R S C A G T} (h : k.Good σ) {t : T} {c : C} {a : A} {g : G}
    (ht : σ.threads t = some ⟨c, .done a, g⟩) : k.Ends t c a g σ.shared := by
  have hs := h.holds t
  rw [ht] at hs
  exact hs

omit [DecidableEq T] in
theorem Good.stands {σ : Config E R S C A G T} (h : k.Good σ) {t : T} {c : C} {e : E}
    {next : R e → Prog E R A} {g : G} (ht : σ.threads t = some ⟨c, .request e next, g⟩) :
    k.At t e σ.shared := by
  have hs := h.holds t
  rw [ht] at hs
  exact hs.1

end Contract
end PlaidRuntime.RelyGuarantee
