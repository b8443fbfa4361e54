import Mathlib.Computability.Language

/-!
# Regular expressions

Patterns over classes of symbols, the language of a pattern and a matcher that takes the derivative
of the pattern by one symbol after the other.
-/
namespace PlaidRuntime.RegexPattern
open scoped Computability

inductive Pattern (α : Type) where
  | fail
  | eps
  | cls (p : α → Bool)
  | seq (r s : Pattern α)
  | alt (r s : Pattern α)
  | star (r : Pattern α)

variable {α : Type}

namespace Pattern

def lang : Pattern α → Language α
  | fail => 0
  | eps => 1
  | cls p => {w | ∃ a, p a = true ∧ w = [a]}
  | seq r s => r.lang * s.lang
  | alt r s => r.lang + s.lang
  | star r => r.lang∗

def any : Pattern α := cls fun _ => true

def opt (r : Pattern α) : Pattern α := alt r eps

def plus (r : Pattern α) : Pattern α := seq r (star r)

/-- `r{n}`. -/
def times : ℕ → Pattern α → Pattern α
  | 0, _ => eps
  | n + 1, r => seq r (times n r)

/-- `r{0,n}`. -/
def upTo : ℕ → Pattern α → Pattern α
  | 0, _ => eps
  | n + 1, r => opt (seq r (upTo n r))

/-- The words of a list, one symbol after the other. -/
def word [DecidableEq α] : List α → Pattern α
  | [] => eps
  | a :: w => seq (cls fun b => decide (b = a)) (word w)

/-- The pattern has the empty word. -/
def nullable : Pattern α → Bool
  | fail => false
  | eps => true
  | cls _ => false
  | seq r s => r.nullable && s.nullable
  | alt r s => r.nullable || s.nullable
  | star _ => true

/-- What is left to match when the first symbol is taken off. -/
def deriv : Pattern α → α → Pattern α
  | fail, _ => fail
  | eps, _ => fail
  | cls p, a => if p a then eps else fail
  | seq r s, a =>
    if r.nullable then alt (seq (r.deriv a) s) (s.deriv a) else seq (r.deriv a) s
  | alt r s, a => alt (r.deriv a) (s.deriv a)
  | star r, a => seq (r.deriv a) (star r)

/-- The whole text matches: a search for `^r$`. -/
def fullMatch (r : Pattern α) (text : List α) : Bool := (text.foldl deriv r).nullable

/-- Some part of the text matches. -/
def search (r : Pattern α) (text : List α) : Bool :=
  fullMatch (seq (star any) (seq r (star any))) text

section matcher
variable {r s : Pattern α} {w : List α}

theorem nullable_iff : r.nullable = true ↔ [] ∈ r.lang := by
  induction r with
  | fail => simp [nullable, lang]
  | eps => simp [nullable, lang]
  | cls p =>
    simp only [nullable, lang, Bool.false_eq_true, false_iff]
    rintro ⟨a, -, h⟩
    cases h
  | seq r s ihr ihs =>
    rw [nullable, Bool.and_eq_true, ihr, ihs, lang, Language.mem_mul]
    constructor
    · rintro ⟨hr, hs⟩
      exact ⟨[], hr, [], hs, rfl⟩
    · rintro ⟨u, hu, v, hv, h⟩
      obtain ⟨rfl, rfl⟩ := List.append_eq_nil_iff.mp h
      exact ⟨hu, hv⟩
  | alt r s ihr ihs => rw [nullable, Bool.or_eq_true, ihr, ihs, lang, Language.mem_add]
  | star r => exact iff_of_true rfl (Language.nil_mem_kstar _)

/-- A first symbol of two words after each other. -/
theorem cons_mem_mul {l m : Language α} {a : α} :
    a :: w ∈ l * m ↔ (∃ u v, u ++ v = w ∧ a :: u ∈ l ∧ v ∈ m) ∨ [] ∈ l ∧ a :: w ∈ m := by
  rw [Language.mem_mul]
  constructor
  · rintro ⟨u, hu, v, hv, h⟩
    cases u with
    | nil => exact Or.inr ⟨hu, h ▸ hv⟩
    | cons b u =>
      obtain ⟨rfl, rfl⟩ := List.cons.inj h
      exact Or.inl ⟨u, v, rfl, hu, hv⟩
  · rintro (⟨u, v, rfl, hu, hv⟩ | ⟨hnil, h⟩)
    · exact ⟨a :: u, hu, v, hv, rfl⟩
    · exact ⟨[], hnil, a :: w, h, rfl⟩

/-- A first symbol of words of a language after each other. -/
theorem cons_mem_kstar {l : Language α} {a : α} :
    a :: w ∈ l∗ ↔ ∃ u v, u ++ v = w ∧ a :: u ∈ l ∧ v ∈ l∗ := by
  constructor
  · intro h
    obtain ⟨pieces, hw, hpieces⟩ := Language.mem_kstar_iff_exists_nonempty.mp h
    cases pieces with
    | nil => cases hw
    | cons p pieces =>
      obtain ⟨hp, hne⟩ := hpieces p List.mem_cons_self
      obtain ⟨b, u, rfl⟩ := List.exists_cons_of_ne_nil hne
      obtain ⟨rfl, rfl⟩ := List.cons.inj hw
      have hrest := Language.join_mem_kstar fun q hq => (hpieces q (List.mem_cons_of_mem _ hq)).1
      exact ⟨u, pieces.flatten, rfl, hp, hrest⟩
  · rintro ⟨u, v, rfl, hu, hv⟩
    rw [← Language.one_add_self_mul_kstar_eq_kstar l]
    exact Or.inr (Language.append_mem_mul hu hv)

theorem mem_deriv {a : α} : w ∈ (r.deriv a).lang ↔ a :: w ∈ r.lang := by
  induction r generalizing w with
  | fail => simp [deriv, lang]
  | eps => simp [deriv, lang]
  | cls p =>
    rw [deriv]
    split_ifs with h
    · constructor
      · intro hw
        exact ⟨a, h, by rw [show w = [] from hw]⟩
      · rintro ⟨b, -, hb⟩
        exact (List.cons.inj hb).2
    · refine iff_of_false (Language.notMem_zero w) ?_
      rintro ⟨b, hp, hb⟩
      obtain ⟨rfl, -⟩ := List.cons.inj hb
      exact h hp
  | seq r s ihr ihs =>
    have hfirst : w ∈ (r.deriv a).lang * s.lang ↔
        ∃ u v, u ++ v = w ∧ a :: u ∈ r.lang ∧ v ∈ s.lang := by
      simp only [Language.mem_mul, ihr]
      constructor
      · rintro ⟨u, hu, v, hv, h⟩
        exact ⟨u, v, h, hu, hv⟩
      · rintro ⟨u, v, h, hu, hv⟩
        exact ⟨u, hu, v, hv, h⟩
    rw [lang, cons_mem_mul, deriv]
    split_ifs with hnull
    · rw [lang, lang, Language.mem_add, hfirst, ihs]
      simp only [nullable_iff.mp hnull, true_and]
    · rw [lang, hfirst]
      simp only [mt nullable_iff.mpr hnull, false_and, or_false]
  | alt r s ihr ihs =>
    rw [deriv, lang, lang, Language.mem_add, Language.mem_add, ihr, ihs]
  | star r ih =>
    rw [deriv, lang, lang, cons_mem_kstar, Language.mem_mul]
    simp only [ih]
    constructor
    · rintro ⟨u, hu, v, hv, h⟩
      exact ⟨u, v, h, hu, hv⟩
    · rintro ⟨u, v, h, hu, hv⟩
      exact ⟨u, hu, v, hv, h⟩

/-- The matcher decides the language. -/
theorem fullMatch_iff : r.fullMatch w = true ↔ w ∈ r.lang := by
  induction w generalizing r with
  | nil => exact nullable_iff
  | cons a w ih => exact (ih (r := r.deriv a)).trans mem_deriv

end matcher

section languages
variable {r s : Pattern α} {w : List α} {p : α → Bool} {n : ℕ}

theorem mem_cls : w ∈ (cls p).lang ↔ ∃ a, p a = true ∧ w = [a] := Iff.rfl

theorem mem_seq : w ∈ (seq r s).lang ↔ ∃ u ∈ r.lang, ∃ v ∈ s.lang, u ++ v = w := Language.mem_mul

theorem mem_alt : w ∈ (alt r s).lang ↔ w ∈ r.lang ∨ w ∈ s.lang := Language.mem_add _ _ _

theorem mem_eps : w ∈ (eps : Pattern α).lang ↔ w = [] := Language.mem_one w

theorem cons_mem_seq_cls {a : α} : a :: w ∈ (seq (cls p) s).lang ↔ p a = true ∧ w ∈ s.lang := by
  rw [mem_seq]
  constructor
  · rintro ⟨_, ⟨b, hb, rfl⟩, v, hv, h⟩
    obtain ⟨rfl, rfl⟩ := List.cons.inj h
    exact ⟨hb, hv⟩
  · rintro ⟨ha, hw⟩
    exact ⟨[a], ⟨a, ha, rfl⟩, w, hw, rfl⟩

theorem nil_notMem_seq_cls : [] ∉ (seq (cls p) s).lang := by
  rw [mem_seq]
  rintro ⟨_, ⟨b, -, rfl⟩, v, -, h⟩
  cases h

theorem mem_star_cls : w ∈ (star (cls p)).lang ↔ ∀ a ∈ w, p a = true := by
  induction w with
  | nil => exact iff_of_true (Language.nil_mem_kstar _) (by simp)
  | cons a w ih =>
    rw [lang, cons_mem_kstar, List.forall_mem_cons, ← ih]
    constructor
    · rintro ⟨u, v, rfl, ⟨b, hb, h⟩, hv⟩
      obtain ⟨rfl, rfl⟩ := List.cons.inj h
      exact ⟨hb, hv⟩
    · rintro ⟨ha, hw⟩
      exact ⟨[], w, rfl, ⟨a, ha, rfl⟩, hw⟩

theorem mem_plus_cls : w ∈ (plus (cls p)).lang ↔ w ≠ [] ∧ ∀ a ∈ w, p a = true := by
  cases w with
  | nil => simp [plus, nil_notMem_seq_cls]
  | cons a w => rw [plus, cons_mem_seq_cls, mem_star_cls, List.forall_mem_cons]; simp

theorem mem_times_cls : w ∈ (times n (cls p)).lang ↔ w.length = n ∧ ∀ a ∈ w, p a = true := by
  induction n generalizing w with
  | zero =>
    rw [times, mem_eps, List.length_eq_zero_iff]
    exact ⟨fun h => ⟨h, by simp [h]⟩, And.left⟩
  | succ n ih =>
    cases w with
    | nil => simp [times, nil_notMem_seq_cls]
    | cons a w =>
      rw [times, cons_mem_seq_cls, ih, List.forall_mem_cons, List.length_cons, Nat.add_right_cancel_iff]
      exact and_left_comm

theorem mem_upTo_cls : w ∈ (upTo n (cls p)).lang ↔ w.length ≤ n ∧ ∀ a ∈ w, p a = true := by
  induction n generalizing w with
  | zero =>
    rw [upTo, mem_eps, Nat.le_zero, List.length_eq_zero_iff]
    exact ⟨fun h => ⟨h, by simp [h]⟩, And.left⟩
  | succ n ih =>
    rw [upTo, opt, mem_alt, mem_eps]
    cases w with
    | nil => simp
    | cons a w =>
      rw [cons_mem_seq_cls, ih, List.forall_mem_cons, List.length_cons, Nat.add_le_add_iff_right]
      simp only [reduceCtorEq, or_false]
      exact and_left_comm

theorem mem_word [DecidableEq α] {u : List α} : w ∈ (word u).lang ↔ w = u := by
  induction u generalizing w with
  | nil => exact mem_eps
  | cons a u ih =>
    cases w with
    | nil => simp [word, nil_notMem_seq_cls]
    | cons b w => simp [word, cons_mem_seq_cls, ih]

/-- A search finds a word of the pattern within the text. -/
theorem search_iff : r.search w = true ↔ ∃ u ∈ r.lang, u <:+: w := by
  rw [search, fullMatch_iff, mem_seq]
  simp only [mem_seq, any, mem_star_cls, implies_true, true_and]
  constructor
  · rintro ⟨x, v, ⟨u, hu, y, rfl⟩, rfl⟩
    exact ⟨u, hu, x, y, by simp⟩
  · rintro ⟨u, hu, x, y, rfl⟩
    exact ⟨x, u ++ y, ⟨u, hu, y, rfl⟩, by simp⟩

theorem search_word [DecidableEq α] {u : List α} : (word u).search w = true ↔ u <:+: w := by
  simp only [search_iff, mem_word, exists_eq_left]

end languages
end Pattern
end PlaidRuntime.RegexPattern
