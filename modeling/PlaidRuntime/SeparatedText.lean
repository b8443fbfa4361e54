import Mathlib.Data.List.Infix

/-!
# Texts cut at a separator

The first and the last separator of a text, the pieces between the separators, and the words that
lie within one piece.
-/
namespace PlaidRuntime.SeparatedText
variable {α : Type} {c : α} {a a' b b' t w : List α}

/-- The last separator of a text. -/
theorem exists_last (h : c ∈ t) : ∃ a b, t = a ++ c :: b ∧ c ∉ b := by
  obtain ⟨a, b, hab, ha⟩ := List.eq_append_cons_of_mem (List.mem_reverse.mpr h)
  refine ⟨b.reverse, a.reverse, ?_, by simpa using ha⟩
  rw [← List.reverse_reverse t, hab]
  simp

theorem eq_of_first (ha : c ∉ a) (ha' : c ∉ a') (h : a ++ c :: b = a' ++ c :: b') :
    a = a' ∧ b = b' := by
  obtain ⟨d, hd, htail⟩ | ⟨d, hd, htail⟩ := List.append_eq_append_iff.mp h
  all_goals cases d with
    | nil => simp_all
    | cons x d => simp_all

theorem eq_of_last (hb : c ∉ b) (hb' : c ∉ b') (h : a ++ c :: b = a' ++ c :: b') :
    a = a' ∧ b = b' := by
  obtain ⟨d, hd, htail⟩ | ⟨d, hd, htail⟩ := List.append_eq_append_iff.mp h
  all_goals cases d with
    | nil => simp_all
    | cons x d => simp_all

/-- A word that has no separator lies on one side of it. -/
theorem infix_append_cons (hc : c ∉ w) (h : w <:+: a ++ c :: b) : w <:+: a ∨ w <:+: b := by
  obtain ⟨s, t, h⟩ := h
  rw [List.append_assoc, List.append_eq_append_iff] at h
  rcases h with ⟨m, rfl, h⟩ | ⟨m, rfl, h⟩
  · rw [List.append_eq_append_iff] at h
    rcases h with ⟨n, rfl, -⟩ | ⟨n, rfl, h⟩
    · exact Or.inl ⟨s, n, by simp⟩
    · cases n with
      | nil => exact Or.inl ⟨s, [], by simp⟩
      | cons d n =>
        obtain ⟨rfl, -⟩ := List.cons.inj h
        exact absurd (by simp) hc
  · cases m with
    | nil =>
      cases w with
      | nil => exact Or.inl List.nil_infix
      | cons d w =>
        obtain ⟨rfl, -⟩ := List.cons.inj h
        exact absurd List.mem_cons_self hc
    | cons d m =>
      obtain ⟨-, rfl⟩ := List.cons.inj h
      exact Or.inr ⟨m, t, by simp⟩

section pieces
variable [DecidableEq α] {d : α}

theorem splitOn_concat (hb : c ∉ b) : (a ++ c :: b).splitOn c = a.splitOn c ++ [b] := by
  rw [List.splitOn_append_cons_self, List.splitOn_eq_singleton hb]

theorem notMem_of_mem_splitOn {p : List α} (h : p ∈ t.splitOn c) : c ∉ p := by
  induction t generalizing p with
  | nil =>
    rw [List.splitOn_nil, List.mem_singleton] at h
    simp [h]
  | cons a t ih =>
    rw [List.splitOn_cons_eq_if_modifyHead] at h
    obtain ⟨q, l, hsplit⟩ := List.exists_cons_of_ne_nil (List.splitOn_ne_nil c t)
    rw [hsplit] at h ih
    split_ifs at h with hac
    · rcases List.mem_cons.mp h with rfl | h
      · simp
      · exact ih h
    · rw [List.modifyHead_cons] at h
      rcases List.mem_cons.mp h with rfl | h
      · have hq := ih List.mem_cons_self
        simp only [beq_iff_eq] at hac
        simp [hq, Ne.symm hac]
      · exact ih (List.mem_cons_of_mem q h)

/-- The first piece starts as the text does. -/
theorem head_of_splitOn {p : List α} {l : List (List α)} (hd : d ≠ c) (h : t.splitOn c = p :: l) :
    p.head? = some d ↔ t.head? = some d := by
  cases t with
  | nil =>
    rw [List.splitOn_nil] at h
    simp [← (List.cons.inj h).1]
  | cons a t =>
    rw [List.splitOn_cons_eq_if_modifyHead] at h
    obtain ⟨q, m, hsplit⟩ := List.exists_cons_of_ne_nil (List.splitOn_ne_nil c t)
    split_ifs at h with hac
    · have hcd : a ≠ d := fun had => hd (had.symm.trans (beq_iff_eq.mp hac))
      simp [← (List.cons.inj h).1, hcd]
    · rw [hsplit, List.modifyHead_cons] at h
      simp [← (List.cons.inj h).1]

/-- A separator and a symbol after it: a piece that is not the first starts with the symbol. -/
theorem pair_infix_iff (hd : d ≠ c) :
    [c, d] <:+: t ↔ ∃ p ∈ (t.splitOn c).tail, p.head? = some d := by
  induction t with
  | nil => simp
  | cons a t ih =>
    obtain ⟨q, l, hsplit⟩ := List.exists_cons_of_ne_nil (List.splitOn_ne_nil c t)
    rw [hsplit, List.tail_cons] at ih
    have hfirst : [c, d] <+: a :: t ↔ c = a ∧ t.head? = some d := by
      rw [List.cons_prefix_cons]
      cases t with
      | nil => simp
      | cons b t => simp [List.cons_prefix_cons, eq_comm]
    rw [List.infix_cons_iff, hfirst, List.splitOn_cons_eq_if_modifyHead, hsplit, ih]
    split_ifs with hac
    · simp [head_of_splitOn hd hsplit, (beq_iff_eq.mp hac).symm]
    · simp [Ne.symm (mt beq_iff_eq.mpr hac)]

end pieces
end PlaidRuntime.SeparatedText
