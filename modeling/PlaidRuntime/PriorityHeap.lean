import Mathlib

/-!
# Priority queues

A max-heap over a comparison, known by what it holds: `pop` gives a greatest element, and
which one among equals is left open.
-/
namespace PlaidRuntime.PriorityHeap

structure BinaryHeap (α : Type) (cmp : α → α → Ordering) where
  Heap : Type
  contents : Heap → Multiset α
  new : Heap
  push : Heap → α → Heap
  pop : Heap → Option (α × Heap)
  contents_new : contents new = 0
  contents_push : ∀ h a, contents (push h a) = a ::ₘ contents h
  pop_none : ∀ h, pop h = none → contents h = 0
  pop_some : ∀ h a h', pop h = some (a, h') →
    contents h = a ::ₘ contents h' ∧ ∀ b ∈ contents h, (cmp b a).isLE = true

/-- `Reverse` turns an order around. -/
def reverse {α : Type} (cmp : α → α → Ordering) : α → α → Ordering := fun a b => cmp b a

variable {α : Type} {cmp : α → α → Ordering}

namespace BinaryHeap
variable (q : BinaryHeap α cmp)

def peek (h : q.Heap) : Option α := (q.pop h).map Prod.fst

def len (h : q.Heap) : ℕ := (q.contents h).card

/-- The elements pushed one after the other. -/
def pushAll (h : q.Heap) (l : List α) : q.Heap := l.foldl q.push h

theorem contents_pushAll (h : q.Heap) (l : List α) :
    q.contents (q.pushAll h l) = ↑l + q.contents h := by
  induction l generalizing h with
  | nil => simp [pushAll]
  | cons a l ih =>
    have hrest : q.contents (q.pushAll (q.push h a) l) = ↑l + q.contents (q.push h a) := ih _
    rw [q.contents_push] at hrest
    simpa [pushAll, ← Multiset.cons_coe] using hrest

/-- Pop while the top is wanted, at most `n` times. -/
def popWhile (wanted : α → Bool) : ℕ → q.Heap → List α × q.Heap
  | 0, h => ([], h)
  | n + 1, h =>
    match q.pop h with
    | none => ([], h)
    | some (a, h') =>
      if wanted a then
        let rest := popWhile wanted n h'
        (a :: rest.1, rest.2)
      else ([], h)

variable {q} {wanted : α → Bool}

theorem popWhile_contents (n : ℕ) (h : q.Heap) :
    q.contents h = ↑(q.popWhile wanted n h).1 + q.contents (q.popWhile wanted n h).2 := by
  induction n generalizing h with
  | zero => simp [popWhile]
  | succ n ih =>
    rw [popWhile]
    cases hp : q.pop h with
    | none => simp
    | some r =>
      obtain ⟨a, h'⟩ := r
      simp only
      split_ifs with ha
      · rw [(q.pop_some h a h' hp).1, ← Multiset.cons_coe, Multiset.cons_add, ← ih]
      · simp

theorem popWhile_wanted (n : ℕ) (h : q.Heap) : ∀ a ∈ (q.popWhile wanted n h).1, wanted a = true := by
  induction n generalizing h with
  | zero => simp [popWhile]
  | succ n ih =>
    rw [popWhile]
    cases hp : q.pop h with
    | none => simp
    | some r =>
      obtain ⟨a, h'⟩ := r
      simp only
      split_ifs with ha
      · intro b hb
        rcases List.mem_cons.mp hb with rfl | hb
        · exact ha
        · exact ih h' b hb
      · simp

/-- What is popped comes in order, and before everything that stays. -/
theorem popWhile_order (n : ℕ) (h : q.Heap) :
    (q.popWhile wanted n h).1.Pairwise (fun a b => (cmp b a).isLE = true) ∧
    ∀ a ∈ (q.popWhile wanted n h).1, ∀ b ∈ q.contents (q.popWhile wanted n h).2,
      (cmp b a).isLE = true := by
  induction n generalizing h with
  | zero => simp [popWhile]
  | succ n ih =>
    rw [popWhile]
    cases hp : q.pop h with
    | none => simp
    | some r =>
      obtain ⟨a, h'⟩ := r
      obtain ⟨hc, htop⟩ := q.pop_some h a h' hp
      simp only
      split_ifs with ha
      · have hmem : ∀ b, b ∈ (q.popWhile wanted n h').1 ∨ b ∈ q.contents (q.popWhile wanted n h').2 →
            (cmp b a).isLE = true := by
          intro b hb
          apply htop
          rw [hc, Multiset.mem_cons, popWhile_contents n h', Multiset.mem_add, Multiset.mem_coe]
          exact Or.inr hb
        obtain ⟨hsorted, hbefore⟩ := ih h'
        refine ⟨List.pairwise_cons.mpr ⟨fun b hb => hmem b (Or.inl hb), hsorted⟩, ?_⟩
        intro b hb x hx
        rcases List.mem_cons.mp hb with rfl | hb
        · exact hmem x (Or.inr hx)
        · exact hbefore b hb x hx
      · simp

/-- When everything that comes before a wanted element is wanted, as many are popped as there
are and as many as are allowed. -/
theorem popWhile_length (hdown : ∀ a b, (cmp b a).isLE = true → wanted b = true → wanted a = true)
    (n : ℕ) (h : q.Heap) :
    (q.popWhile wanted n h).1.length = min n ((q.contents h).countP fun a => wanted a = true) := by
  induction n generalizing h with
  | zero => simp [popWhile]
  | succ n ih =>
    rw [popWhile]
    cases hp : q.pop h with
    | none => simp [q.pop_none h hp]
    | some r =>
      obtain ⟨a, h'⟩ := r
      obtain ⟨hc, htop⟩ := q.pop_some h a h' hp
      simp only
      split_ifs with ha
      · have hcount : (q.contents h).countP (fun b => wanted b = true) =
            (q.contents h').countP (fun b => wanted b = true) + 1 := by
          rw [hc]
          exact Multiset.countP_cons_of_pos _ ha
        rw [hcount, List.length_cons, ih h']
        omega
      · have hnone : (q.contents h).countP (fun a => wanted a = true) = 0 := by
          rw [Multiset.countP_eq_zero]
          intro b hb hw
          exact ha (hdown a b (htop b hb) hw)
        rw [hnone]
        simp

end BinaryHeap

section selection
variable (key : α → ℕ)

/-- The first element with the least key, and the others. -/
def extractLeast : List α → Option (α × List α)
  | [] => none
  | a :: l =>
    match extractLeast l with
    | none => some (a, l)
    | some (b, l') => if key a ≤ key b then some (a, l) else some (b, a :: l')

theorem extractLeast_none {l : List α} (h : extractLeast key l = none) : l = [] := by
  cases l with
  | nil => rfl
  | cons a l =>
    rw [extractLeast] at h
    split at h
    · cases h
    · split_ifs at h

theorem extractLeast_some {l l' : List α} {a : α} (h : extractLeast key l = some (a, l')) :
    l.Perm (a :: l') ∧ ∀ b ∈ l, key a ≤ key b := by
  induction l generalizing a l' with
  | nil => cases h
  | cons x l ih =>
    rw [extractLeast] at h
    split at h
    · rename_i hl
      cases h
      rw [extractLeast_none key hl]
      exact ⟨List.Perm.refl _, by simp⟩
    · rename_i b m hl
      obtain ⟨hperm, hleast⟩ := ih hl
      split_ifs at h with hx
      · cases h
        refine ⟨List.Perm.refl _, fun y hy => ?_⟩
        rcases List.mem_cons.mp hy with rfl | hy
        · exact le_refl _
        · exact hx.trans (hleast y hy)
      · cases h
        refine ⟨(hperm.cons x).trans (List.Perm.swap _ _ _), fun y hy => ?_⟩
        rcases List.mem_cons.mp hy with rfl | hy
        · omega
        · exact hleast y hy

/-- A heap kept as the list of what was pushed. -/
def ofKey : BinaryHeap α (reverse fun a b => compare (key a) (key b)) where
  Heap := List α
  contents l := ↑l
  new := []
  push l a := a :: l
  pop := extractLeast key
  contents_new := rfl
  contents_push _ _ := rfl
  pop_none l h := by rw [extractLeast_none key h]; rfl
  pop_some l a l' h := by
    obtain ⟨hperm, hleast⟩ := extractLeast_some key h
    refine ⟨Multiset.coe_eq_coe.mpr hperm, fun b hb => ?_⟩
    exact Nat.isLE_compare.mpr (hleast b hb)

end selection
end PlaidRuntime.PriorityHeap
