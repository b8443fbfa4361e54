import Mathlib

/-!
# Maps as sorted entries

A finite map written as the list of its entries in key order. Equal maps are equal lists,
whatever the order in which their entries were inserted.
-/
namespace PlaidRuntime.SortedEntries

variable {K V : Type} [LinearOrder K]

def insertEntry (k : K) (v : V) : List (K × V) → List (K × V)
  | [] => [(k, v)]
  | e :: es =>
    if k < e.1 then (k, v) :: e :: es
    else if k = e.1 then (k, v) :: es
    else e :: insertEntry k v es

def ofEntries (es : List (K × V)) : List (K × V) :=
  es.foldl (fun acc e => insertEntry e.1 e.2 acc) []

def Sorted (es : List (K × V)) : Prop := es.Pairwise fun a b => a.1 < b.1

theorem insertEntry_perm {k : K} {v : V} {es : List (K × V)} (hk : k ∉ es.map Prod.fst) :
    (insertEntry k v es).Perm ((k, v) :: es) := by
  induction es with
  | nil => rfl
  | cons e es ih =>
    rw [List.map_cons, List.mem_cons, not_or] at hk
    unfold insertEntry
    split
    · rfl
    · rw [if_neg hk.1]
      exact ((ih hk.2).cons e).trans (List.Perm.swap _ _ _)

theorem sorted_cons_cons {a b : K × V} {es : List (K × V)} :
    Sorted (a :: b :: es) ↔ a.1 < b.1 ∧ Sorted (b :: es) := by
  constructor
  · intro h
    obtain ⟨hhead, htail⟩ := List.pairwise_cons.mp h
    exact ⟨hhead b List.mem_cons_self, htail⟩
  · intro h
    refine List.pairwise_cons.mpr ⟨fun e he => ?_, h.2⟩
    rcases List.mem_cons.mp he with rfl | he
    · exact h.1
    · exact h.1.trans ((List.pairwise_cons.mp h.2).1 e he)

theorem mem_insertEntry {k : K} {v : V} {es : List (K × V)} {e : K × V}
    (h : e ∈ insertEntry k v es) : e = (k, v) ∨ e ∈ es := by
  induction es with
  | nil => exact Or.inl (List.mem_singleton.mp h)
  | cons a es ih =>
    unfold insertEntry at h
    split at h
    · exact List.mem_cons.mp h
    · split at h
      · rcases List.mem_cons.mp h with h | h
        · exact Or.inl h
        · exact Or.inr (List.mem_cons_of_mem a h)
      · rcases List.mem_cons.mp h with rfl | h
        · exact Or.inr List.mem_cons_self
        · rcases ih h with h | h
          · exact Or.inl h
          · exact Or.inr (List.mem_cons_of_mem a h)

theorem mem_insertEntry_self (k : K) (v : V) (es : List (K × V)) : (k, v) ∈ insertEntry k v es := by
  induction es with
  | nil => exact List.mem_cons_self
  | cons e es ih =>
    unfold insertEntry
    split
    · exact List.mem_cons_self
    · split
      · exact List.mem_cons_self
      · exact List.mem_cons_of_mem e ih

theorem mem_insertEntry_of_ne {k : K} {v : V} {es : List (K × V)} {e : K × V} (h : e ∈ es)
    (hne : e.1 ≠ k) : e ∈ insertEntry k v es := by
  induction es with
  | nil => cases h
  | cons a es ih =>
    unfold insertEntry
    split
    · exact List.mem_cons_of_mem _ h
    · split
      · rename_i heq
        rcases List.mem_cons.mp h with rfl | h
        · exact absurd heq.symm hne
        · exact List.mem_cons_of_mem _ h
      · rcases List.mem_cons.mp h with rfl | h
        · exact List.mem_cons_self
        · exact List.mem_cons_of_mem a (ih h)

theorem insertEntry_sorted {k : K} {v : V} {es : List (K × V)} (hs : Sorted es) :
    Sorted (insertEntry k v es) := by
  induction es with
  | nil => exact List.pairwise_singleton _ _
  | cons e es ih =>
    obtain ⟨hhead, htail⟩ := List.pairwise_cons.mp hs
    unfold insertEntry
    split
    · rename_i hlt
      refine List.pairwise_cons.mpr ⟨fun x hx => ?_, hs⟩
      rcases List.mem_cons.mp hx with rfl | hx
      · exact hlt
      · exact hlt.trans (hhead x hx)
    · rename_i hlt
      split
      · rename_i heq
        exact List.pairwise_cons.mpr ⟨fun x hx => heq ▸ hhead x hx, htail⟩
      · rename_i hne
        have hgt : e.1 < k := lt_of_le_of_ne (not_lt.mp hlt) (Ne.symm hne)
        refine List.pairwise_cons.mpr ⟨fun x hx => ?_, ih htail⟩
        rcases mem_insertEntry hx with rfl | hx
        · exact hgt
        · exact hhead x hx

theorem foldl_insertEntry {es acc : List (K × V)} (hacc : Sorted acc)
    (hkeys : ((acc ++ es).map Prod.fst).Nodup) :
    Sorted (es.foldl (fun acc e => insertEntry e.1 e.2 acc) acc) ∧
      (es.foldl (fun acc e => insertEntry e.1 e.2 acc) acc).Perm (acc ++ es) := by
  induction es generalizing acc with
  | nil => simpa using hacc
  | cons e es ih =>
    have hmid : (acc ++ e :: es).Perm (e :: (acc ++ es)) := List.perm_middle
    have hnodup : (e :: (acc ++ es)).map Prod.fst |>.Nodup := (hmid.map Prod.fst).nodup_iff.mp hkeys
    have hfresh : e.1 ∉ acc.map Prod.fst := by
      rw [List.map_cons, List.nodup_cons, List.map_append, List.mem_append, not_or] at hnodup
      exact hnodup.1.1
    have hperm : (insertEntry e.1 e.2 acc ++ es).Perm (e :: (acc ++ es)) :=
      (insertEntry_perm hfresh).append_right es
    have hih := ih (insertEntry_sorted hacc) ((hperm.map Prod.fst).nodup_iff.mpr hnodup)
    exact ⟨hih.1, hih.2.trans (hperm.trans hmid.symm)⟩

theorem Sorted.nodup_keys {es : List (K × V)} (h : Sorted es) : (es.map Prod.fst).Nodup := by
  rw [List.Nodup, List.pairwise_map]
  exact h.imp fun hab => ne_of_lt hab

/-- The entries of a sorted map, inserted in any order, give the map back. -/
theorem ofEntries_of_perm {es l : List (K × V)} (hs : Sorted es) (hp : l.Perm es) :
    ofEntries l = es := by
  have hkeys : (([] ++ l).map Prod.fst).Nodup := (hp.map Prod.fst).nodup_iff.mpr hs.nodup_keys
  obtain ⟨hsorted, hperm⟩ := foldl_insertEntry List.Pairwise.nil hkeys
  apply (hperm.trans hp).eq_of_pairwise _ hsorted hs
  intro a b _ _ hab hba
  exact absurd hba (lt_asymm hab)

theorem ofEntries_of_sorted {es : List (K × V)} (hs : Sorted es) : ofEntries es = es :=
  ofEntries_of_perm hs (List.Perm.refl es)

theorem ofEntries_sorted (es : List (K × V)) : Sorted (ofEntries es) := by
  have hfold : ∀ acc : List (K × V), Sorted acc →
      Sorted (es.foldl (fun acc e => insertEntry e.1 e.2 acc) acc) := by
    induction es with
    | nil => exact fun acc hacc => hacc
    | cons e es ih => exact fun acc hacc => ih _ (insertEntry_sorted hacc)
  exact hfold [] List.Pairwise.nil

theorem mem_of_mem_ofEntries {es : List (K × V)} {e : K × V} (h : e ∈ ofEntries es) :
    e ∈ es := by
  have hfold : ∀ acc : List (K × V),
      e ∈ es.foldl (fun acc e => insertEntry e.1 e.2 acc) acc → e ∈ acc ∨ e ∈ es := by
    clear h
    induction es with
    | nil => exact fun acc h => Or.inl h
    | cons a es ih =>
      intro acc h
      rcases ih _ h with h | h
      · rcases mem_insertEntry h with rfl | h
        · exact Or.inr List.mem_cons_self
        · exact Or.inl h
      · exact Or.inr (List.mem_cons_of_mem a h)
  rcases hfold [] h with h | h
  · cases h
  · exact h

theorem ofEntries_append_singleton (es : List (K × V)) (e : K × V) :
    ofEntries (es ++ [e]) = insertEntry e.1 e.2 (ofEntries es) := by
  simp [ofEntries]

/-- In a sorted map the entry found under a key is the only one. -/
theorem Sorted.lookup_eq_some [BEq K] [LawfulBEq K] {es : List (K × V)} (hs : Sorted es) {k : K} {v : V} :
    es.lookup k = some v ↔ (k, v) ∈ es := by
  induction es with
  | nil => simp
  | cons e es ih =>
    obtain ⟨l, w⟩ := e
    obtain ⟨hhead, htail⟩ := List.pairwise_cons.mp hs
    by_cases hk : k = l
    · subst hk
      have hnot : (k, v) ∉ es := by
        intro h
        have hlt := hhead (k, v) h
        exact lt_irrefl k hlt
      simp [hnot, eq_comm]
    · have hbeq : (k == l) = false := beq_false_of_ne hk
      rw [List.lookup_cons, hbeq, ih htail]
      simp [hk]

theorem insertEntry_filter {k : K} {v : V} {es : List (K × V)} {p : K × V → Bool}
    (hp : ∀ e, p e = true ↔ e.1 ≠ k) (hk : k ∉ es.map Prod.fst) :
    (insertEntry k v es).filter p = es := by
  have hout : ∀ w, ¬ p (k, w) = true := fun w h => (hp (k, w)).mp h rfl
  have hall : ∀ l : List (K × V), k ∉ l.map Prod.fst → l.filter p = l := by
    intro l hl
    refine List.filter_eq_self.mpr fun e he => (hp e).mpr fun h => hl ?_
    exact h ▸ List.mem_map_of_mem he
  induction es with
  | nil => simp [insertEntry, hout]
  | cons e es ih =>
    rw [List.map_cons, List.mem_cons, not_or] at hk
    unfold insertEntry
    split
    · rw [List.filter_cons_of_neg (hout v), hall _ (by simpa using hk)]
    · rw [if_neg hk.1, List.filter_cons_of_pos ((hp e).mpr (Ne.symm hk.1)), ih hk.2]

section weighing
variable {f : K × V → ℕ} (hf : ∀ e, 0 < f e)
include hf

theorem insertEntry_perm_or_lt (k : K) (v : V) (es : List (K × V)) :
    (insertEntry k v es).Perm ((k, v) :: es) ∨
      ((insertEntry k v es).map f).sum < f (k, v) + (es.map f).sum := by
  induction es with
  | nil => exact Or.inl (List.Perm.refl _)
  | cons e es ih =>
    unfold insertEntry
    split
    · exact Or.inl (List.Perm.refl _)
    · split
      · refine Or.inr ?_
        have := hf e
        simp only [List.map_cons, List.sum_cons]
        omega
      · rcases ih with h | h
        · exact Or.inl ((h.cons e).trans (List.Perm.swap _ _ _))
        · refine Or.inr ?_
          simp only [List.map_cons, List.sum_cons]
          omega

/-- Inserting drops nothing, or the map weighs less than what was inserted. -/
theorem ofEntries_perm_or_lt (es : List (K × V)) :
    (ofEntries es).Perm es ∨ ((ofEntries es).map f).sum < (es.map f).sum := by
  have hfold : ∀ acc : List (K × V),
      (es.foldl (fun acc e => insertEntry e.1 e.2 acc) acc).Perm (acc ++ es) ∨
        ((es.foldl (fun acc e => insertEntry e.1 e.2 acc) acc).map f).sum <
          (acc.map f).sum + (es.map f).sum := by
    induction es with
    | nil => exact fun acc => Or.inl (by simp)
    | cons e es ih =>
      intro acc
      have hsum : (((e :: acc) ++ es).map f).sum = (acc.map f).sum + ((e :: es).map f).sum := by
        simp only [List.map_append, List.map_cons, List.sum_append, List.sum_cons]
        omega
      rcases insertEntry_perm_or_lt hf e.1 e.2 acc with hi | hi
      · rcases ih (insertEntry e.1 e.2 acc) with h | h
        · exact Or.inl ((h.trans (hi.append_right es)).trans List.perm_middle.symm)
        · rw [(hi.map f).sum_eq] at h
          refine Or.inr (lt_of_lt_of_eq h ?_)
          rw [← hsum, List.map_append, List.sum_append]
      · refine Or.inr ?_
        have hle : ((es.foldl (fun acc e => insertEntry e.1 e.2 acc)
            (insertEntry e.1 e.2 acc)).map f).sum ≤
            ((insertEntry e.1 e.2 acc).map f).sum + (es.map f).sum := by
          rcases ih (insertEntry e.1 e.2 acc) with h | h
          · rw [(h.map f).sum_eq, List.map_append, List.sum_append]
          · exact h.le
        have heta : f (e.1, e.2) = f e := rfl
        simp only [List.map_cons, List.sum_cons, List.foldl_cons]
        omega
  have h := hfold []
  rwa [List.nil_append, List.map_nil, List.sum_nil, Nat.zero_add] at h

end weighing

end PlaidRuntime.SortedEntries
