import Mathlib

/-!
# Programs with typed requests

A program either returns or issues a request and waits for a reply of the type that
request prescribes. The meaning of the requests is supplied from outside, so one program
text can be run alone, run against a faulty environment, or interleaved with others.
-/
namespace PlaidRuntime.EffectProgram

/-- `R e` is the type of the replies to the request `e`. -/
inductive Prog (E : Type) (R : E → Type) (α : Type)
  | done (a : α)
  | request (e : E) (next : R e → Prog E R α)

namespace Prog
variable {E : Type} {R : E → Type} {α β γ S : Type}

def bind : Prog E R α → (α → Prog E R β) → Prog E R β
  | .done a, f => f a
  | .request e next, f => .request e fun r => (next r).bind f

instance : Monad (Prog E R) where
  pure := .done
  bind := bind

/-- The program that issues one request and returns the reply. -/
def perform (e : E) : Prog E R (R e) := .request e .done

@[simp] theorem pure_eq_done (a : α) : (pure a : Prog E R α) = .done a := rfl

@[simp] theorem done_bind (a : α) (f : α → Prog E R β) : (Prog.done a >>= f) = f a := rfl

@[simp] theorem request_bind (e : E) (next : R e → Prog E R α) (f : α → Prog E R β) :
    (Prog.request e next >>= f) = .request e fun r => next r >>= f := rfl

@[simp] theorem perform_bind (e : E) (f : R e → Prog E R β) :
    (perform e >>= f) = .request e f := rfl

theorem bind_assoc (p : Prog E R α) (f : α → Prog E R β) (g : β → Prog E R γ) :
    (p >>= f >>= g) = (p >>= fun a => f a >>= g) := by
  induction p with
  | done a => rfl
  | request e next ih => simp only [request_bind, ih]

/-- Every request the program can issue satisfies `P`. -/
def Uses (P : E → Prop) : Prog E R α → Prop
  | .done _ => True
  | .request e next => P e ∧ ∀ r, Uses P (next r)

theorem Uses.mono {P P' : E → Prop} (hP : ∀ e, P e → P' e) {p : Prog E R α} (h : p.Uses P) :
    p.Uses P' := by
  induction p with
  | done a => trivial
  | request e next ih => exact ⟨hP e h.1, fun r => ih r (h.2 r)⟩

theorem Uses.bind {P : E → Prop} {p : Prog E R α} {f : α → Prog E R β} (h : p.Uses P)
    (hf : ∀ a, (f a).Uses P) : (p >>= f).Uses P := by
  induction p with
  | done a => exact hf a
  | request e next ih => exact ⟨h.1, fun r => ih r (h.2 r)⟩

theorem uses_perform {P : E → Prop} {e : E} (h : P e) : (perform e : Prog E R (R e)).Uses P :=
  ⟨h, fun _ => trivial⟩

section interpret
variable {E' : Type} {R' : E' → Type}

/-- Every request is carried out by a program over other requests. -/
def interpret (f : (e : E) → Prog E' R' (R e)) : Prog E R α → Prog E' R' α
  | .done a => .done a
  | .request e next => f e >>= fun r => (next r).interpret f

end interpret

/-- One reading of the requests: from a state, a request may be answered by `r` and leave
the state `s'`. Several answers are allowed, so failures need no separate treatment. -/
abbrev Handler (E : Type) (R : E → Type) (S : Type) := S → (e : E) → R e → S → Prop

/-- Complete executions of a program. -/
inductive Exec (handle : Handler E R S) : Prog E R α → S → α → S → Prop
  | done (a : α) (s : S) : Exec handle (.done a) s a s
  | request {e : E} {next : R e → Prog E R α} {r : R e} {a : α} {s t u : S}
      (reply : handle s e r t) (rest : Exec handle (next r) t a u) :
      Exec handle (.request e next) s a u

theorem exec_done_iff {handle : Handler E R S} {a b : α} {s t : S} :
    Exec handle (.done b) s a t ↔ a = b ∧ t = s := by
  constructor
  · intro h
    cases h
    exact ⟨rfl, rfl⟩
  · rintro ⟨rfl, rfl⟩
    exact .done a t

theorem exec_request_iff {handle : Handler E R S} {e : E} {next : R e → Prog E R α} {a : α}
    {s u : S} :
    Exec handle (.request e next) s a u ↔ ∃ r t, handle s e r t ∧ Exec handle (next r) t a u := by
  constructor
  · intro h
    cases h with
    | request reply rest => exact ⟨_, _, reply, rest⟩
  · rintro ⟨r, t, reply, rest⟩
    exact .request reply rest

/-- Every state passed while `p` runs satisfies `I`, and a normal end satisfies `Q`.
A process that is killed between two requests leaves a state of the first kind. -/
def Always (handle : Handler E R S) (I : S → Prop) (Q : α → S → Prop) : Prog E R α → S → Prop
  | .done a, s => I s ∧ Q a s
  | .request e next, s => I s ∧ ∀ r t, handle s e r t → Always handle I Q (next r) t

variable {handle : Handler E R S} {I : S → Prop} {Q Q' : α → S → Prop}

theorem Always.now {p : Prog E R α} {s : S} (h : p.Always handle I Q s) : I s := by
  cases p with
  | done a => exact h.1
  | request e next => exact h.1

theorem Always.mono {p : Prog E R α} {s : S} (h : p.Always handle I Q s)
    (hQ : ∀ a t, I t → Q a t → Q' a t) : p.Always handle I Q' s := by
  induction p generalizing s with
  | done a => exact ⟨h.1, hQ a s h.1 h.2⟩
  | request e next ih => exact ⟨h.1, fun r t ht => ih r (h.2 r t ht)⟩

theorem Always.bind {p : Prog E R α} {f : α → Prog E R β} {Q : β → S → Prop} {s : S}
    (h : p.Always handle I (fun a t => (f a).Always handle I Q t) s) :
    (p >>= f).Always handle I Q s := by
  induction p generalizing s with
  | done a => exact h.2
  | request e next ih => exact ⟨h.1, fun r t ht => ih r (h.2 r t ht)⟩

/-- An execution ends in a state where the promised postcondition holds. -/
theorem Exec.post {p : Prog E R α} {s t : S} {a : α} (hx : Exec handle p s a t)
    (h : p.Always handle I Q s) : I t ∧ Q a t := by
  induction hx with
  | done a s => exact h
  | request reply rest ih => exact ih (h.2 _ _ reply)

/-- Every request is issued in a state fit for it, and a normal end satisfies `Q`. -/
def Guards (handle : Handler E R S) (I : S → E → Prop) (Q : α → S → Prop) : Prog E R α → S → Prop
  | .done a, s => Q a s
  | .request e next, s => I s e ∧ ∀ r t, handle s e r t → Guards handle I Q (next r) t

theorem Guards.mono {I : S → E → Prop} {p : Prog E R α} {s : S} (h : p.Guards handle I Q s)
    (hQ : ∀ a t, Q a t → Q' a t) : p.Guards handle I Q' s := by
  induction p generalizing s with
  | done a => exact hQ a s h
  | request e next ih => exact ⟨h.1, fun r t ht => ih r (h.2 r t ht)⟩

theorem Guards.bind {I : S → E → Prop} {p : Prog E R α} {f : α → Prog E R β} {Q : β → S → Prop}
    {s : S} (h : p.Guards handle I (fun a t => (f a).Guards handle I Q t) s) :
    (p >>= f).Guards handle I Q s := by
  induction p generalizing s with
  | done a => exact h
  | request e next ih => exact ⟨h.1, fun r t ht => ih r (h.2 r t ht)⟩

theorem Guards.post {I : S → E → Prop} {p : Prog E R α} {s t : S} {a : α}
    (h : p.Guards handle I Q s) (hx : Exec handle p s a t) : Q a t := by
  induction hx with
  | done a s => exact h
  | request reply rest ih => exact ih (h.2 _ _ reply)

theorem Exec.bind_inv {p : Prog E R α} {f : α → Prog E R β} {s u : S} {b : β}
    (hx : Exec handle (p >>= f) s b u) :
    ∃ a t, Exec handle p s a t ∧ Exec handle (f a) t b u := by
  induction p generalizing s with
  | done a => exact ⟨a, s, .done a s, hx⟩
  | request e next ih =>
    cases hx with
    | request reply rest =>
      obtain ⟨a, t, hp, hf⟩ := ih _ rest
      exact ⟨a, t, .request reply hp, hf⟩

theorem Exec.bind {p : Prog E R α} {f : α → Prog E R β} {s t u : S} {a : α} {b : β}
    (hp : Exec handle p s a t) (hf : Exec handle (f a) t b u) : Exec handle (p >>= f) s b u := by
  induction hp with
  | done a s => exact hf
  | request reply rest ih => exact .request reply (ih hf)

section eval
variable (answer : S → (e : E) → Option (R e × S))

/-- The run of a program in a world that knows one answer to every request. -/
def eval : Prog E R α → S → Option (α × S)
  | .done a, s => some (a, s)
  | .request e next, s => (answer s e).bind fun r => (next r.1).eval r.2

@[simp] theorem eval_done (a : α) (s : S) : (Prog.done a : Prog E R α).eval answer s = some (a, s) :=
  rfl

theorem eval_request {answer : S → (e : E) → Option (R e × S)} {e : E} {next : R e → Prog E R α}
    {s t : S} {r : R e} (h : answer s e = some (r, t)) :
    (Prog.request e next).eval answer s = (next r).eval answer t := by
  rw [eval, h, Option.bind_some]

theorem eval_bind (p : Prog E R α) (f : α → Prog E R β) (s : S) :
    (p >>= f).eval answer s = (p.eval answer s).bind fun r => (f r.1).eval answer r.2 := by
  induction p generalizing s with
  | done a => rfl
  | request e next ih =>
    rw [request_bind, eval, eval, Option.bind_assoc]
    simp only [ih]

end eval

section interference
variable {L G : Type} (reply : S → (e : E) → L → Option (R e × S))
  (note : G → S → (e : E) → R e → S → G) (assumes : G → (e : E) → L → S → Prop)

/-- The program ends with `Q` although the state may change in any way between its requests;
`assumes` is what is granted when a request is answered, and notes are taken on the way. -/
def Yields (Q : α → G → Prop) : Prog E R α → G → Prop
  | .done a, g => Q a g
  | .request e next, g => ∀ s l r t, assumes g e l s → reply s e l = some (r, t) →
      (next r).Yields Q (note g s e r t)

variable {reply note assumes}

theorem Yields.mono {Q Q' : α → G → Prop} (hQ : ∀ a g, Q a g → Q' a g) {p : Prog E R α} {g : G}
    (h : p.Yields reply note assumes Q g) : p.Yields reply note assumes Q' g := by
  induction p generalizing g with
  | done a => exact hQ a g h
  | request e next ih => exact fun s l r t ha hr => ih r (h s l r t ha hr)

theorem Yields.bind {Q : β → G → Prop} {p : Prog E R α} {f : α → Prog E R β} {g : G}
    (h : p.Yields reply note assumes (fun a g => (f a).Yields reply note assumes Q g) g) :
    (p >>= f).Yields reply note assumes Q g := by
  induction p generalizing g with
  | done a => exact h
  | request e next ih => exact fun s l r t ha hr => ih r (h s l r t ha hr)

/-- Where every request can turn out in some way, a program that ends well comes to such an end, and
what its notes list by then begins with what they list now. -/
theorem Yields.completes {X : Type} {Q : α → G → Prop} (listed : G → List X)
    (hanswered : ∀ g e, ∃ s l r t, assumes g e l s ∧ reply s e l = some (r, t))
    (hnote : ∀ g s e r t, listed g <+: listed (note g s e r t)) {p : Prog E R α} {g : G}
    (h : p.Yields reply note assumes Q g) : ∃ a g', Q a g' ∧ listed g <+: listed g' := by
  induction p generalizing g with
  | done a => exact ⟨a, g, h, List.prefix_refl _⟩
  | request e next ih =>
    obtain ⟨s, l, r, t, ha, hr⟩ := hanswered g e
    obtain ⟨a, g', hQ, hlisted⟩ := ih r (h s l r t ha hr)
    exact ⟨a, g', hQ, (hnote g s e r t).trans hlisted⟩

/-- A program that takes nothing for granted may do anything. -/
theorem yields_true (p : Prog E R α) (g : G) : p.Yields reply note assumes (fun _ _ => True) g := by
  induction p generalizing g with
  | done a => trivial
  | request e next ih => exact fun s l r t _ _ => ih r _

end interference

section replay
variable {O : Type} (reply : S → (e : E) → O → Option (R e × S))

/-- The run of a program whose requests turn out as listed. -/
def replay : Prog E R α → S → List O → Option (α × S)
  | .done a, s, [] => some (a, s)
  | .request e next, s, o :: os => (reply s e o).bind fun r => (next r.1).replay r.2 os
  | _, _, _ => none

/-- The requests issued on the way. -/
def issued : Prog E R α → S → List O → List E
  | .request e next, s, o :: os =>
    match reply s e o with
    | some r => e :: (next r.1).issued r.2 os
    | none => []
  | _, _, _ => []

variable {reply} {P : E → Prop} {p : Prog E R α} {s : S} {os : List O}

theorem replay_request {e : E} {next : R e → Prog E R α} {a : α} {u : S}
    (h : (Prog.request e next).replay reply s os = some (a, u)) :
    ∃ o rest r t, os = o :: rest ∧ reply s e o = some (r, t) ∧
      (next r).replay reply t rest = some (a, u) := by
  cases os with
  | nil => cases h
  | cons o rest =>
    obtain ⟨⟨r, t⟩, hr, hrest⟩ := Option.bind_eq_some_iff.mp h
    exact ⟨o, rest, r, t, rfl, hr, hrest⟩

theorem replay_done {a b : α} {u : S} (h : (Prog.done b).replay reply s os = some (a, u)) :
    os = [] ∧ a = b ∧ u = s := by
  cases os with
  | nil =>
    cases h
    exact ⟨rfl, rfl, rfl⟩
  | cons o rest => cases h

/-- A run whose replies the handler allows is an execution. -/
theorem Exec.of_replay {handle : Handler E R S}
    (hreply : ∀ s e o r t, reply s e o = some (r, t) → handle s e r t) {a : α} {u : S}
    (h : p.replay reply s os = some (a, u)) : Exec handle p s a u := by
  induction p generalizing s os with
  | done b =>
    obtain ⟨-, rfl, rfl⟩ := replay_done h
    exact .done _ _
  | request e next ih =>
    obtain ⟨o, rest, r, t, rfl, hr, hrest⟩ := replay_request h
    exact .request (hreply s e o r t hr) (ih r hrest)

theorem replay_bind {f : α → Prog E R β} {b : β} {u : S}
    (h : (p >>= f).replay reply s os = some (b, u)) :
    ∃ before rest a t, os = before ++ rest ∧ p.replay reply s before = some (a, t) ∧
      (f a).replay reply t rest = some (b, u) := by
  induction p generalizing s os with
  | done a => exact ⟨[], os, a, s, rfl, rfl, h⟩
  | request e next ih =>
    obtain ⟨o, rest, r, t, rfl, hreply, hrest⟩ := replay_request h
    obtain ⟨before, rest', a, t', rfl, hp, hf⟩ := ih r hrest
    refine ⟨o :: before, rest', a, t', rfl, ?_, hf⟩
    rw [replay, hreply, Option.bind_some]
    exact hp

theorem replay_append {f : α → Prog E R β} {a : α} {b : β} {t u : S} {rest : List O}
    (hp : p.replay reply s os = some (a, t)) (hf : (f a).replay reply t rest = some (b, u)) :
    (p >>= f).replay reply s (os ++ rest) = some (b, u) := by
  induction p generalizing s os with
  | done a =>
    obtain ⟨rfl, rfl, rfl⟩ := replay_done hp
    exact hf
  | request e next ih =>
    obtain ⟨o, os, r, t', rfl, hreply, hrest⟩ := replay_request hp
    rw [request_bind, List.cons_append, replay, hreply, Option.bind_some]
    exact ih r hrest

/-- What every permitted request keeps, the whole run keeps. -/
theorem replay_invariant {J : S → Prop}
    (hstep : ∀ s e o r t, P e → J s → reply s e o = some (r, t) → J t) (hu : p.Uses P) (h : J s)
    {a : α} {u : S} (hr : p.replay reply s os = some (a, u)) : J u := by
  induction p generalizing s os with
  | done b =>
    obtain ⟨-, -, rfl⟩ := replay_done hr
    exact h
  | request e next ih =>
    obtain ⟨o, rest, r, t, rfl, hreply, hrest⟩ := replay_request hr
    exact ih r (hu.2 r) (hstep s e o r t hu.1 h hreply) hrest

/-- Two states that no permitted request tells apart give the same run. -/
theorem replay_related {Rel : S → S → Prop}
    (hstep : ∀ s s' e o r t, P e → Rel s s' → reply s e o = some (r, t) →
      ∃ t', reply s' e o = some (r, t') ∧ Rel t t')
    (hu : p.Uses P) {s' : S} (h : Rel s s') {a : α} {u : S}
    (hr : p.replay reply s os = some (a, u)) :
    ∃ u', p.replay reply s' os = some (a, u') ∧ Rel u u' := by
  induction p generalizing s s' os with
  | done b =>
    obtain ⟨rfl, rfl, rfl⟩ := replay_done hr
    exact ⟨s', rfl, h⟩
  | request e next ih =>
    obtain ⟨o, rest, r, t, rfl, hreply, hrest⟩ := replay_request hr
    obtain ⟨t', hreply', ht⟩ := hstep s s' e o r t hu.1 h hreply
    obtain ⟨u', hrest', hu'⟩ := ih r (hu.2 r) ht hrest
    refine ⟨u', ?_, hu'⟩
    rw [replay, hreply', Option.bind_some]
    exact hrest'

theorem issued_of_uses (hu : p.Uses P) {e : E} (he : e ∈ p.issued reply s os) : P e := by
  induction p generalizing s os with
  | done b => cases os <;> cases he
  | request e' next ih =>
    cases os with
    | nil => cases he
    | cons o rest =>
      rw [issued] at he
      split at he
      · rename_i r hr
        rcases List.mem_cons.mp he with rfl | he
        · exact hu.1
        · exact ih r.1 (hu.2 r.1) he
      · cases he

end replay

end Prog
end PlaidRuntime.EffectProgram
