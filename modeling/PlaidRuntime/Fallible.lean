import Mathlib

/-!
# Steps that can fail

When a chain of `Except` steps gives a value, stated step by step.
-/
namespace PlaidRuntime.Fallible

variable {ε ε' α β : Type}

theorem bind_ok {x : Except ε α} {f : α → Except ε β} {b : β} :
    x >>= f = .ok b ↔ ∃ a, x = .ok a ∧ f a = .ok b := by
  cases x with
  | error e => simp [bind, Except.bind]
  | ok a => simp [bind, Except.bind]

theorem mapError_ok {x : Except ε α} {f : ε → ε'} {a : α} :
    x.mapError f = .ok a ↔ x = .ok a := by
  cases x <;> simp [Except.mapError]

theorem bind_error {x : Except ε α} {f : α → Except ε β} {e : ε} :
    x >>= f = .error e ↔ x = .error e ∨ ∃ a, x = .ok a ∧ f a = .error e := by
  cases x with
  | error e' => simp [bind, Except.bind]
  | ok a => simp [bind, Except.bind]

theorem mapError_error {x : Except ε α} {f : ε → ε'} {e : ε'} :
    x.mapError f = .error e ↔ ∃ e', x = .error e' ∧ f e' = e := by
  cases x <;> simp [Except.mapError]

theorem mapError_bind {x : Except ε α} {g : α → Except ε β} {f : ε → ε'} :
    (x >>= g).mapError f = x.mapError f >>= fun a => (g a).mapError f := by
  cases x with
  | error e => rfl
  | ok a => rfl

/-- A loop that only words its errors in another way. -/
theorem foldlM_mapError {step : α → β → Except ε α} {step' : α → β → Except ε' α} {f : ε → ε'}
    {l : List β} (h : ∀ a, ∀ b ∈ l, step' a b = (step a b).mapError f) (a : α) :
    l.foldlM step' a = (l.foldlM step a).mapError f := by
  induction l generalizing a with
  | nil => rfl
  | cons b l ih =>
    rw [List.foldlM_cons, List.foldlM_cons, mapError_bind, h a b List.mem_cons_self]
    congr 1
    funext next
    exact ih (fun a b hb => h a b (List.mem_cons_of_mem _ hb)) next

/-- Every element passes on its own. -/
theorem mapM_ok {f : α → Except ε β} {P : α → Prop} {g : α → β}
    (hf : ∀ a b, f a = .ok b ↔ P a ∧ b = g a) {l : List α} {x : List β} :
    l.mapM f = .ok x ↔ (∀ a ∈ l, P a) ∧ x = l.map g := by
  induction l generalizing x with
  | nil => simp [pure, Except.pure, eq_comm]
  | cons a l ih =>
    simp only [List.mapM_cons, bind_ok, hf, ih, List.forall_mem_cons, List.map_cons]
    constructor
    · intro h
      obtain ⟨_, ⟨ha, rfl⟩, _, ⟨hl, rfl⟩, hx⟩ := h
      exact ⟨⟨ha, hl⟩, (Except.ok.inj hx).symm⟩
    · intro h
      obtain ⟨⟨ha, hl⟩, rfl⟩ := h
      exact ⟨g a, ⟨ha, rfl⟩, l.map g, ⟨hl, rfl⟩, rfl⟩

theorem forM_ok {f : α → Except ε Unit} {l : List α} :
    l.forM f = .ok () ↔ ∀ a ∈ l, f a = .ok () := by
  induction l with
  | nil => simp [pure, Except.pure]
  | cons a l ih =>
    have hcons : (a :: l).forM f = f a >>= fun _ => l.forM f := rfl
    rw [hcons, bind_ok, List.forall_mem_cons, ← ih]
    constructor
    · rintro ⟨⟨⟩, ha, hl⟩
      exact ⟨ha, hl⟩
    · rintro ⟨ha, hl⟩
      exact ⟨(), ha, hl⟩

theorem exists_mapM_ok {f : α → Except ε β} {l : List α} :
    (∃ x, l.mapM f = .ok x) ↔ ∀ a ∈ l, ∃ b, f a = .ok b := by
  induction l with
  | nil => simp [pure, Except.pure]
  | cons a l ih =>
    simp only [List.mapM_cons, bind_ok, List.forall_mem_cons, ← ih]
    constructor
    · rintro ⟨_, b, hb, x, hx, -⟩
      exact ⟨⟨b, hb⟩, x, hx⟩
    · rintro ⟨⟨b, hb⟩, x, hx⟩
      exact ⟨b :: x, b, hb, x, hx, rfl⟩

theorem length_of_mapM {f : α → Except ε β} {l : List α} {x : List β} (h : l.mapM f = .ok x) :
    x.length = l.length := by
  induction l generalizing x with
  | nil => cases h; rfl
  | cons a l ih =>
    simp only [List.mapM_cons, bind_ok] at h
    obtain ⟨b, -, y, hy, hx⟩ := h
    cases hx
    rw [List.length_cons, List.length_cons, ih hy]

theorem mem_of_mapM {f : α → Except ε β} {l : List α} {x : List β} (h : l.mapM f = .ok x) {b : β} :
    b ∈ x ↔ ∃ a ∈ l, f a = .ok b := by
  induction l generalizing x with
  | nil => cases h; simp
  | cons a l ih =>
    simp only [List.mapM_cons, bind_ok] at h
    obtain ⟨c, hc, y, hy, hx⟩ := h
    cases hx
    rw [List.mem_cons, ih hy, List.exists_mem_cons_iff, hc, Except.ok.injEq, eq_comm]

/-- A loop that may leave elements out keeps the others in order. -/
theorem sublist_of_mapM {γ : Type} {f : α → Except ε (Option β)} {key : β → γ} {key' : α → Option γ}
    (hf : ∀ a b, f a = .ok (some b) → key' a = some (key b)) {l : List α} {x : List (Option β)}
    (h : l.mapM f = .ok x) : (x.reduceOption.map key).Sublist (l.filterMap key') := by
  induction l generalizing x with
  | nil => cases h; simp
  | cons a l ih =>
    simp only [List.mapM_cons, bind_ok] at h
    obtain ⟨o, ho, y, hy, hx⟩ := h
    cases hx
    have hrest := ih hy
    cases o with
    | some b =>
      rw [List.reduceOption_cons_of_some, List.map_cons, List.filterMap_cons_some (hf a b ho)]
      exact hrest.cons_cons _
    | none =>
      rw [List.reduceOption_cons_of_none]
      cases hk : key' a with
      | none => rwa [List.filterMap_cons_none hk]
      | some k => rw [List.filterMap_cons_some hk]; exact hrest.cons _

theorem mapM_ok_of_mem {f : α → Except ε β} {g : α → β} {l : List α}
    (h : ∀ a ∈ l, f a = .ok (g a)) : l.mapM f = .ok (l.map g) := by
  induction l with
  | nil => rfl
  | cons a l ih =>
    obtain ⟨ha, hl⟩ := List.forall_mem_cons.mp h
    rw [List.mapM_cons, ha, ih hl]
    rfl

section options
variable {f : α → Option β} {l : List α}

theorem mapM_eq_some_iff {r : List β} : l.mapM f = some r ↔ l.map f = r.map some := by
  induction l generalizing r with
  | nil => cases r <;> simp
  | cons a l ih =>
    rw [List.mapM_cons]
    cases hb : f a with
    | none => cases r <;> simp [hb]
    | some b =>
      cases r with
      | nil => cases l.mapM f <;> simp
      | cons b' r =>
        rw [List.map_cons, List.map_cons, hb, List.cons.injEq, ← ih, Option.some.injEq]
        cases l.mapM f <;> simp

theorem mapM_some_of_mem {g : α → β} (h : ∀ a ∈ l, f a = some (g a)) :
    l.mapM f = some (l.map g) := by
  rw [mapM_eq_some_iff, List.map_map]
  exact List.map_congr_left h

end options

end PlaidRuntime.Fallible
