import Mathlib

/-! Finite keyed content with a weight on its entries, and how the total weight moves when
one key is written or removed. -/
namespace PlaidRuntime.KeyedContent

variable {K V : Type} [DecidableEq K]

/-- Total weight of the entries. -/
def weight (w : K → V → ℕ) (c : AList fun _ : K => V) : ℕ :=
  (c.entries.map fun e => w e.1 e.2).sum

/-- Weight of the entry under one key, zero when the key is absent. -/
def weightAt (w : K → V → ℕ) (c : AList fun _ : K => V) (k : K) : ℕ :=
  ((c.lookup k).map (w k)).getD 0

variable (w : K → V → ℕ) (c : AList fun _ : K => V) (k : K)

theorem weight_erase : weight w (c.erase k) + weightAt w c k = weight w c := by
  rcases c with ⟨l, hl⟩
  simp only [weight, weightAt, AList.erase, AList.lookup]
  induction l with
  | nil => simp
  | cons e l ih =>
    rcases e with ⟨a, v⟩
    have hl' : List.NodupKeys l := (List.nodupKeys_cons.mp hl).2
    by_cases h : k = a
    · subst h
      simp [List.kerase_cons_eq, List.dlookup_cons_eq, Nat.add_comm]
    · have hi := ih hl'
      rw [List.kerase_cons_ne (by simpa using h), List.dlookup_cons_ne _ _ (by simpa using h)]
      simp only [List.map_cons, List.sum_cons]
      omega

theorem weight_insert (v : V) :
    weight w (c.insert k v) + weightAt w c k = weight w c + w k v := by
  have he := weight_erase w c k
  have hi : weight w (c.insert k v) = w k v + weight w (c.erase k) := by
    simp [weight, AList.entries_insert, AList.erase]
  omega

theorem weightAt_le : weightAt w c k ≤ weight w c := by
  have := weight_erase w c k
  omega

theorem weightAt_some {v : V} (h : c.lookup k = some v) : weightAt w c k = w k v := by
  simp [weightAt, h]

theorem weightAt_none (h : c.lookup k = none) : weightAt w c k = 0 := by simp [weightAt, h]

theorem erase_of_lookup_none (h : c.lookup k = none) : c.erase k = c := by
  apply AList.ext
  rw [AList.erase]
  exact List.kerase_of_notMem_keys (AList.lookup_eq_none.mp h)

theorem lookup_insert_if (v : V) (x : K) :
    (c.insert k v).lookup x = if x = k then some v else c.lookup x := by
  split_ifs with h
  · rw [h, AList.lookup_insert]
  · exact AList.lookup_insert_ne h

section writing
variable {c}

/-- Write the listed entries one after the other. -/
def putAll (c : AList fun _ : K => V) (l : List (K × V)) : AList fun _ : K => V :=
  l.foldl (fun c e => c.insert e.1 e.2) c

theorem putAll_append (l l' : List (K × V)) : putAll c (l ++ l') = putAll (putAll c l) l' :=
  List.foldl_append

/-- What is found was written, or was there and has not been written. -/
theorem lookup_putAll {l : List (K × V)} {k : K} {v : V} (h : (putAll c l).lookup k = some v) :
    (k, v) ∈ l ∨ c.lookup k = some v ∧ k ∉ l.map Prod.fst := by
  induction l generalizing c with
  | nil => exact Or.inr ⟨h, by simp⟩
  | cons e l ih =>
    rcases ih h with hl | ⟨hc, hnot⟩
    · exact Or.inl (List.mem_cons_of_mem e hl)
    · by_cases hk : k = e.1
      · subst hk
        rw [AList.lookup_insert] at hc
        exact Or.inl (by rw [← Option.some.inj hc]; exact List.mem_cons_self)
      · rw [AList.lookup_insert_ne hk] at hc
        exact Or.inr ⟨hc, by simpa [hk] using hnot⟩

theorem mem_putAll {l : List (K × V)} {k : K} (h : k ∈ l.map Prod.fst) : k ∈ putAll c l := by
  have hstay : ∀ (l : List (K × V)) (c : AList fun _ : K => V), k ∈ c → k ∈ putAll c l := by
    intro l
    induction l with
    | nil => exact fun c hc => hc
    | cons e l ih => exact fun c hc => ih _ (AList.mem_insert c |>.mpr (Or.inr hc))
  induction l generalizing c with
  | nil => cases h
  | cons e l ih =>
    rw [List.map_cons, List.mem_cons] at h
    rcases h with rfl | h
    · exact hstay l _ (AList.mem_insert c |>.mpr (Or.inl rfl))
    · exact ih h

/-- Entries that agree wherever they have the same key are all found again, and nothing else. -/
theorem lookup_putAll_iff {l : List (K × V)}
    (hl : ∀ k v v', (k, v) ∈ l → (k, v') ∈ l → v = v') (k : K) (v : V) :
    (putAll (∅ : AList fun _ : K => V) l).lookup k = some v ↔ (k, v) ∈ l := by
  constructor
  · intro h
    rcases lookup_putAll h with h | ⟨h, -⟩
    · exact h
    · cases h
  · intro h
    have hmem : k ∈ putAll (∅ : AList fun _ : K => V) l := mem_putAll (List.mem_map_of_mem h)
    obtain ⟨v', hv'⟩ := Option.isSome_iff_exists.mp (AList.lookup_isSome.mpr hmem)
    rcases lookup_putAll hv' with h' | ⟨h', -⟩
    · rw [hv', hl k v v' h h']
    · cases h'

theorem lookup_putAll_of_notMem {l : List (K × V)} {k : K} (h : k ∉ l.map Prod.fst) :
    (putAll c l).lookup k = c.lookup k := by
  induction l generalizing c with
  | nil => rfl
  | cons e l ih =>
    rw [List.map_cons, List.mem_cons, not_or] at h
    exact (ih h.2).trans (AList.lookup_insert_ne h.1)

/-- Among entries with distinct keys each one is found again. -/
theorem lookup_putAll_of_mem {l : List (K × V)} (hl : (l.map Prod.fst).Nodup) {k : K} {v : V}
    (h : (k, v) ∈ l) : (putAll c l).lookup k = some v := by
  induction l generalizing c with
  | nil => cases h
  | cons e l ih =>
    obtain ⟨hnot, hl⟩ := List.nodup_cons.mp hl
    rcases List.mem_cons.mp h with rfl | h
    · exact (lookup_putAll_of_notMem hnot).trans (AList.lookup_insert c)
    · exact ih hl h

/-- A loop that writes every entry or stops with an error. -/
theorem foldlM_putAll {ε : Type} {step : (AList fun _ : K => V) → K × V →
      Except ε (AList fun _ : K => V)} {d : AList fun _ : K => V} {l : List (K × V)}
    (hstep : ∀ c e d, e ∈ l → step c e = .ok d → d = c.insert e.1 e.2)
    (h : l.foldlM step c = .ok d) : d = putAll c l := by
  induction l generalizing c with
  | nil => cases h; rfl
  | cons e l ih =>
    rw [List.foldlM_cons] at h
    cases hs : step c e with
    | error err => rw [hs] at h; cases h
    | ok c' =>
      rw [hs] at h
      have hrest := ih (fun c e d he => hstep c e d (List.mem_cons_of_mem _ he)) h
      rw [hrest, hstep c e c' List.mem_cons_self hs]
      rfl

/-- The entries as pairs. -/
def pairs (c : AList fun _ : K => V) : List (K × V) := c.entries.map fun e => (e.1, e.2)

omit [DecidableEq K] in
theorem pairs_keys (c : AList fun _ : K => V) : (pairs c).map Prod.fst = c.keys := by
  simp [pairs, AList.keys, List.keys]

omit [DecidableEq K] in
theorem pairs_keys_nodup (c : AList fun _ : K => V) : ((pairs c).map Prod.fst).Nodup := by
  rw [pairs_keys]
  exact c.keys_nodup

theorem mem_pairs {k : K} {v : V} : (k, v) ∈ pairs c ↔ c.lookup k = some v := by
  rw [← Option.mem_def, AList.mem_lookup_iff]
  simp [pairs]

theorem notMem_pairs_keys {k : K} (h : c.lookup k = none) : k ∉ (pairs c).map Prod.fst := by
  rw [pairs_keys]
  exact AList.lookup_eq_none.mp h

/-- Content written over other content. -/
theorem lookup_putAll_pairs (d : AList fun _ : K => V) (k : K) :
    (putAll c (pairs d)).lookup k = (d.lookup k).or (c.lookup k) := by
  cases h : d.lookup k with
  | none => exact lookup_putAll_of_notMem (notMem_pairs_keys h)
  | some v => exact lookup_putAll_of_mem (pairs_keys_nodup d) (mem_pairs.mpr h)

/-- The same keys with other values. -/
def mapValues {W : Type} (f : V → W) (c : AList fun _ : K => V) : AList fun _ : K => W :=
  putAll ∅ ((pairs c).map fun e => (e.1, f e.2))

theorem lookup_mapValues {W : Type} (f : V → W) (c : AList fun _ : K => V) (k : K) :
    (mapValues f c).lookup k = (c.lookup k).map f := by
  have hkeys : ((pairs c).map fun e => (e.1, f e.2)).map Prod.fst = (pairs c).map Prod.fst := by
    simp
  unfold mapValues
  cases h : c.lookup k with
  | none => exact (lookup_putAll_of_notMem (hkeys ▸ notMem_pairs_keys h)).trans rfl
  | some v =>
    exact lookup_putAll_of_mem (hkeys ▸ pairs_keys_nodup c)
      (List.mem_map.mpr ⟨(k, v), mem_pairs.mpr h, rfl⟩)

end writing

section grouping
variable {c : AList fun _ : K => List V}

/-- Append a value to the list under a key. -/
def push (c : AList fun _ : K => List V) (k : K) (v : V) : AList fun _ : K => List V :=
  match c.lookup k with
  | some l => c.insert k (l ++ [v])
  | none => c.insert k [v]

def group (key : V → K) (l : List V) : AList fun _ : K => List V :=
  l.foldl (fun c v => push c (key v) v) ∅

theorem lookup_push (k : K) (v : V) (x : K) :
    (push c k v).lookup x = if x = k then some ((c.lookup k).getD [] ++ [v]) else c.lookup x := by
  unfold push
  by_cases hx : x = k
  · subst hx
    cases h : c.lookup x <;> simp
  · cases h : c.lookup k <;> simp [hx]

/-- The values of one key, in the order they came. -/
theorem lookup_group (key : V → K) (l : List V) (x : K) :
    (group key l).lookup x =
      if x ∈ l.map key then some (l.filter fun v => decide (key v = x)) else none := by
  induction l using List.reverseRecOn with
  | nil => rfl
  | append_singleton l v ih =>
    have hlast : group key (l ++ [v]) = push (group key l) (key v) v := List.foldl_append
    rw [hlast, lookup_push]
    split_ifs with hx hmem hmem
    · subst hx
      rw [ih]
      split_ifs with hold
      · simp
      · have hnone : l.filter (fun w => decide (key w = key v)) = [] := by
          rw [List.filter_eq_nil_iff]
          intro w hw
          simp only [decide_eq_true_eq]
          exact fun he => hold (he ▸ List.mem_map_of_mem hw)
        simp [hnone]
    · simp [hx] at hmem
    · rw [ih, if_pos (by simpa [hx] using hmem)]
      simp [Ne.symm hx]
    · rw [ih, if_neg]
      intro h
      exact hmem (by simp [h])

end grouping

section replacement
variable {c : AList fun _ : K => V} {f : K → V → K × V}

/-- Take one entry out and put its image in. -/
def replace (f : K → V → K × V) (c : AList fun _ : K => V) (e : K × V) : AList fun _ : K => V :=
  (c.erase e.1).insert (f e.1 e.2).1 (f e.1 e.2).2

/-- Replace the listed entries one after the other, in place. -/
def replaceAll (f : K → V → K × V) (c : AList fun _ : K => V) (l : List (K × V)) :
    AList fun _ : K => V :=
  l.foldl (replace f) c

/-- No entry moves onto the key of an entry that is listed after it. -/
def NoClash (f : K → V → K × V) (l : List (K × V)) : Prop :=
  l.Pairwise fun a b => (f a.1 a.2).1 ≠ b.1

instance (f : K → V → K × V) (l : List (K × V)) : Decidable (NoClash f l) :=
  inferInstanceAs (Decidable (List.Pairwise _ _))

theorem lookup_replace (e : K × V) (x : K) :
    (replace f c e).lookup x =
      if x = (f e.1 e.2).1 then some (f e.1 e.2).2 else if x = e.1 then none else c.lookup x := by
  unfold replace
  split_ifs with hnew hold
  · rw [hnew, AList.lookup_insert]
  · rw [AList.lookup_insert_ne hnew, hold, AList.lookup_erase]
  · rw [AList.lookup_insert_ne hnew, AList.lookup_erase_ne hold]

/-- An absent key stays absent when nothing moves onto it. -/
theorem lookup_replaceAll_none {l : List (K × V)} {x : K} (h : c.lookup x = none)
    (hx : ∀ e ∈ l, (f e.1 e.2).1 ≠ x) : (replaceAll f c l).lookup x = none := by
  induction l generalizing c with
  | nil => exact h
  | cons e l ih =>
    apply ih
    · have hne : x ≠ (f e.1 e.2).1 := Ne.symm (hx e List.mem_cons_self)
      rw [lookup_replace, if_neg hne, h, ite_self]
    · exact fun e' he' => hx e' (List.mem_cons_of_mem e he')

/-- The content is the images of the entries done and the entries left. -/
def Between (f : K → V → K × V) (c : AList fun _ : K => V) (done left : List (K × V)) : Prop :=
  ∀ x v, c.lookup x = some v ↔ (∃ e ∈ done, f e.1 e.2 = (x, v)) ∨ (x, v) ∈ left

theorem Between.replace {done left : List (K × V)} {e : K × V} (h : Between f c done (e :: left))
    (hkey : e.1 ∉ left.map Prod.fst) (hafter : ∀ b ∈ left, (f e.1 e.2).1 ≠ b.1)
    (hbefore : ∀ a ∈ done, (f a.1 a.2).1 ≠ e.1)
    (hnew : ∀ a ∈ done, (f a.1 a.2).1 ≠ (f e.1 e.2).1) :
    Between f (replace f c e) (done ++ [e]) left := by
  intro x v
  rw [lookup_replace]
  split_ifs with hx hold
  · subst hx
    constructor
    · intro hv
      exact Or.inl ⟨e, by simp, Prod.ext rfl (Option.some.inj hv)⟩
    · rintro (⟨a, ha, hfa⟩ | hl)
      · rcases List.mem_append.mp ha with ha | ha
        · exact absurd (congrArg Prod.fst hfa) (hnew a ha)
        · rw [List.mem_singleton.mp ha] at hfa
          rw [hfa]
      · exact (hafter _ hl rfl).elim
  · subst hold
    refine ⟨fun hv => (by cases hv), ?_⟩
    rintro (⟨a, ha, hfa⟩ | hl)
    · rcases List.mem_append.mp ha with ha | ha
      · exact absurd (congrArg Prod.fst hfa) (hbefore a ha)
      · rw [List.mem_singleton.mp ha] at hfa
        exact absurd (congrArg Prod.fst hfa).symm hx
    · exact absurd (List.mem_map.mpr ⟨_, hl, rfl⟩) hkey
  · rw [h x v]
    constructor
    · rintro (⟨a, ha, hfa⟩ | hl)
      · exact Or.inl ⟨a, List.mem_append_left _ ha, hfa⟩
      · rcases List.mem_cons.mp hl with rfl | hl
        · exact absurd rfl hold
        · exact Or.inr hl
    · rintro (⟨a, ha, hfa⟩ | hl)
      · rcases List.mem_append.mp ha with ha | ha
        · exact Or.inl ⟨a, ha, hfa⟩
        · rw [List.mem_singleton.mp ha] at hfa
          exact absurd (congrArg Prod.fst hfa).symm hx
      · exact Or.inr (List.mem_cons_of_mem _ hl)

theorem Between.replaceAll {done left rest : List (K × V)} (h : Between f c done (left ++ rest))
    (hkeys : ((left ++ rest).map Prod.fst).Nodup) (hnew : (done ++ left).Pairwise fun a b =>
      (f a.1 a.2).1 ≠ (f b.1 b.2).1) (hclash : NoClash f (done ++ (left ++ rest))) :
    Between f (replaceAll f c left) (done ++ left) rest := by
  induction left generalizing c done with
  | nil => simpa [KeyedContent.replaceAll] using h
  | cons e left ih =>
    have hsplit : done ++ e :: left = (done ++ [e]) ++ left := by simp
    have hsplit' : done ++ (e :: left ++ rest) = (done ++ [e]) ++ (left ++ rest) := by simp
    obtain ⟨hkey, hkeys'⟩ := List.nodup_cons.mp hkeys
    obtain ⟨-, hclash', hbefore⟩ := List.pairwise_append.mp hclash
    obtain ⟨-, -, hnew'⟩ := List.pairwise_append.mp hnew
    rw [hsplit] at hnew ⊢
    rw [hsplit'] at hclash
    apply ih _ hkeys' hnew hclash
    exact h.replace hkey (List.pairwise_cons.mp hclash').1
      (fun a ha => hbefore a ha e List.mem_cons_self) (fun a ha => hnew' a ha e List.mem_cons_self)

/-- The image of an entry that moved onto a later key is lost when that key is taken out. -/
theorem lookup_replaceAll_of_clash {l : List (K × V)}
    (hnew : l.Pairwise fun a b => (f a.1 a.2).1 ≠ (f b.1 b.2).1) (hclash : ¬ NoClash f l) :
    ∃ e ∈ l, (replaceAll f c l).lookup (f e.1 e.2).1 = none := by
  induction l generalizing c with
  | nil => exact absurd List.Pairwise.nil hclash
  | cons e l ih =>
    obtain ⟨hne, hnew'⟩ := List.pairwise_cons.mp hnew
    by_cases hl : NoClash f l
    · obtain ⟨b, hb, heq⟩ : ∃ b ∈ l, (f e.1 e.2).1 = b.1 := by
        by_contra hno
        push Not at hno
        exact hclash (List.pairwise_cons.mpr ⟨hno, hl⟩)
      obtain ⟨p, q, rfl⟩ := List.append_of_mem hb
      refine ⟨e, List.mem_cons_self, ?_⟩
      have hsplit : replaceAll f c (e :: (p ++ b :: q)) =
          replaceAll f (replace f (replaceAll f (replace f c e) p) b) q := by
        simp [replaceAll]
      rw [hsplit]
      apply lookup_replaceAll_none
      · rw [lookup_replace, if_neg (hne b hb), if_pos heq]
      · exact fun a ha => Ne.symm (hne a (by simp [ha]))
    · obtain ⟨b, hb, hnone⟩ := ih (c := replace f c e) hnew' hl
      exact ⟨b, List.mem_cons_of_mem e hb, hnone⟩

/-- With distinct new keys, replacing in place computes the image of the listed content
exactly when no entry moves onto a key listed after it. -/
theorem replaceAll_eq_image_iff {l : List (K × V)} (hl : ∀ x v, c.lookup x = some v ↔ (x, v) ∈ l)
    (hkeys : (l.map Prod.fst).Nodup)
    (hnew : l.Pairwise fun a b => (f a.1 a.2).1 ≠ (f b.1 b.2).1) :
    (∀ x v, (replaceAll f c l).lookup x = some v ↔ ∃ e ∈ l, f e.1 e.2 = (x, v)) ↔
      NoClash f l := by
  constructor
  · intro himage
    by_contra hclash
    obtain ⟨e, he, hnone⟩ := lookup_replaceAll_of_clash (c := c) hnew hclash
    have hsome := (himage (f e.1 e.2).1 (f e.1 e.2).2).mpr ⟨e, he, rfl⟩
    rw [hnone] at hsome
    cases hsome
  · intro hclash x v
    have hstart : Between f c [] (l ++ []) := by simpa [Between] using hl
    have h := hstart.replaceAll (by simpa using hkeys) hnew (by simpa using hclash) x v
    simpa using h

end replacement
end PlaidRuntime.KeyedContent
