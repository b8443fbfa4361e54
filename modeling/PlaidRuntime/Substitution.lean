import PlaidRuntime.KeyedContent

/-!
# Replacing patterns in a text, one after the other

`replace` is the replacement of every occurrence of one pattern, leftmost first and
without overlaps. `replaceEach` does it for several names in a given order, each time in the
whole text. The text with all its patterns filled at once is `render`; the two agree in every
order exactly when no step cuts the text anywhere else than at the text's own patterns.
-/
namespace PlaidRuntime.Substitution

variable {α N : Type} [DecidableEq α]

/-- Pieces between the occurrences of `p`, while `skip` symbols of the last one are left. -/
def cutFrom (p : List α) : ℕ → List α → List (List α)
  | _, [] => [[]]
  | skip + 1, _ :: t => cutFrom p skip t
  | 0, c :: t =>
    if p.isPrefixOf (c :: t) then [] :: cutFrom p (p.length - 1) t
    else (cutFrom p 0 t).modifyHead (c :: ·)

/-- The pieces of a text between the occurrences of a pattern. -/
def cut (p t : List α) : List (List α) := cutFrom p 0 t

/-- Every occurrence of the pattern replaced by `v`. -/
def replace (p v t : List α) : List α := v.intercalate (cut p t)

section Intercalate

omit [DecidableEq α]

theorem intercalate_modifyHead {v u : List α} {l : List (List α)} (h : l ≠ []) :
    v.intercalate (l.modifyHead (u ++ ·)) = u ++ v.intercalate l := by
  obtain ⟨a, l, rfl⟩ := List.exists_cons_of_ne_nil h
  by_cases hl : l = []
  · subst hl
    simp [List.intercalate]
  · simp [List.intercalate_cons_of_ne_nil hl]

theorem modifyHead_ne_nil {f : List α → List α} {l : List (List α)} (h : l ≠ []) :
    l.modifyHead f ≠ [] := by
  obtain ⟨a, l, rfl⟩ := List.exists_cons_of_ne_nil h
  simp

end Intercalate

section Cutting

variable {p : List α}

theorem cutFrom_skip (p : List α) (skip : ℕ) (t : List α) :
    cutFrom p skip t = cut p (t.drop skip) := by
  induction t generalizing skip with
  | nil => cases skip <;> simp [cutFrom, cut]
  | cons c t ih =>
    cases skip with
    | zero => rfl
    | succ skip => simpa [cutFrom] using ih skip

@[simp] theorem cut_nil : cut p [] = [[]] := rfl

theorem cut_append (hp : p ≠ []) (t : List α) : cut p (p ++ t) = [] :: cut p t := by
  obtain ⟨c, q, rfl⟩ := List.exists_cons_of_ne_nil hp
  have hpre : (c :: q).isPrefixOf (c :: (q ++ t)) = true := by
    simp [List.isPrefixOf_iff_prefix]
  have hdrop : (q ++ t).drop ((c :: q).length - 1) = t := by simp
  simp only [cut, List.cons_append, cutFrom, hpre, if_true]
  rw [cutFrom_skip, hdrop, cut]

theorem cut_cons {c : α} {t : List α} (h : ¬ p <+: c :: t) :
    cut p (c :: t) = (cut p t).modifyHead (c :: ·) := by
  have hpre : p.isPrefixOf (c :: t) = false := by
    simpa [← Bool.not_eq_true, List.isPrefixOf_iff_prefix] using h
  simp [cut, cutFrom, hpre]

/-- A text is read occurrence by occurrence and, where there is none, symbol by symbol. -/
theorem cut_induction (hp : p ≠ []) {motive : List α → Prop} (nil : motive [])
    (occurrence : ∀ t, motive t → motive (p ++ t))
    (symbol : ∀ c t, ¬ p <+: c :: t → motive t → motive (c :: t)) (t : List α) : motive t := by
  induction hn : t.length using Nat.strong_induction_on generalizing t with
  | h n ih =>
    subst hn
    cases t with
    | nil => exact nil
    | cons c t =>
      by_cases h : p <+: c :: t
      · obtain ⟨s, hs⟩ := h
        have hlen := congrArg List.length hs
        have hpos := List.length_pos_iff.mpr hp
        simp only [List.length_append, List.length_cons] at hlen
        rw [← hs]
        exact occurrence s (ih s.length (by simp only [List.length_cons]; omega) s rfl)
      · exact symbol c t h (ih t.length (by simp) t rfl)

theorem cut_ne_nil (hp : p ≠ []) (t : List α) : cut p t ≠ [] := by
  induction t using cut_induction hp with
  | nil => simp
  | occurrence t _ => simp [cut_append hp]
  | symbol c t h ih =>
    rw [cut_cons h]
    exact modifyHead_ne_nil ih

theorem intercalate_cut (hp : p ≠ []) (t : List α) : p.intercalate (cut p t) = t := by
  induction t using cut_induction hp with
  | nil => simp [List.intercalate]
  | occurrence t ih => rw [cut_append hp, List.intercalate_cons_of_ne_nil (cut_ne_nil hp t), ih]; simp
  | symbol c t h ih =>
    have := intercalate_modifyHead (v := p) (u := [c]) (cut_ne_nil hp t)
    rw [cut_cons h]
    simpa [ih] using this

theorem cut_starts (hp : p ≠ []) {t g : List α} {l : List (List α)}
    (h : cut p t = g :: l) : g <+: t := by
  have ht := intercalate_cut hp t
  rw [h] at ht
  by_cases hl : l = []
  · subst hl
    exact ⟨[], by simpa [List.intercalate] using ht⟩
  · exact ⟨p ++ p.intercalate l, by simpa [List.intercalate_cons_of_ne_nil hl] using ht⟩

/-- No piece holds the pattern. -/
theorem not_infix_of_mem_cut (hp : p ≠ []) {t g : List α} (h : g ∈ cut p t) : ¬ p <:+: g := by
  induction t using cut_induction hp generalizing g with
  | nil => simp_all
  | occurrence t ih =>
    rw [cut_append hp, List.mem_cons] at h
    obtain rfl | h := h
    · simpa using hp
    · exact ih h
  | symbol c t hc ih =>
    obtain ⟨a, l, ha⟩ := List.exists_cons_of_ne_nil (cut_ne_nil hp t)
    rw [cut_cons hc, ha, List.modifyHead_cons, List.mem_cons] at h
    obtain rfl | h := h
    · intro hinf
      obtain hpre | hinf := List.infix_cons_iff.mp hinf
      · exact hc (hpre.trans (List.prefix_cons_inj c |>.mpr (cut_starts hp ha)))
      · exact ih (by simp [ha]) hinf
    · exact ih (by simp [ha, h])

theorem cut_of_not_infix {t : List α} (h : ¬ p <:+: t) : cut p t = [t] := by
  induction t with
  | nil => rfl
  | cons c t ih =>
    have hpre : ¬ p <+: c :: t := fun hp => h hp.isInfix
    have hinf : ¬ p <:+: t := fun hp => h (List.infix_cons hp)
    simp [cut_cons hpre, ih hinf]

/-- No proper part of the pattern is both its start and its end. -/
def Unbordered (p : List α) : Prop := ∀ u, u ≠ [] → u ≠ p → u <+: p → ¬ u <:+ p

omit [DecidableEq α] in
theorem unbordered_of_head {c : α} {q : List α} (h : c ∉ q) : Unbordered (c :: q) := by
  intro u hne hu hpre hsuf
  obtain ⟨b, u, rfl⟩ := List.exists_cons_of_ne_nil hne
  obtain ⟨rfl, -⟩ := List.cons_prefix_cons.mp hpre
  obtain heq | hsuf := List.suffix_cons_iff.mp hsuf
  · exact hu heq
  · exact h (hsuf.subset (by simp))

/-- A piece without the pattern is cut off whole: no occurrence can straddle its end. -/
theorem cut_piece (hp : p ≠ []) (hu : Unbordered p) {g : List α} (h : ¬ p <:+: g)
    (t : List α) : cut p (g ++ p ++ t) = g :: cut p t := by
  induction g with
  | nil => simpa using cut_append hp t
  | cons c g ih =>
    have hinf : ¬ p <:+: g := fun hp => h (List.infix_cons hp)
    have hpre : ¬ p <+: c :: (g ++ p ++ t) := by
      intro hpre
      have hpre' : p <+: (c :: g) ++ (p ++ t) := by simpa using hpre
      obtain hle | ⟨u, hpu⟩ := List.prefix_or_prefix_of_prefix hpre' (List.prefix_append _ _)
      · exact h hle.isInfix
      -- the occurrence would end inside the next one, with `u` as a border
      have hlen := congrArg List.length hpu
      simp only [List.length_append, List.length_cons] at hlen
      have hut : u <+: p ++ t := by
        obtain ⟨s, hs⟩ := hpre'
        have hcancel : (c :: g) ++ (u ++ s) = (c :: g) ++ (p ++ t) := by
          rw [← hs, ← List.append_assoc, hpu]
        exact ⟨s, List.append_cancel_left hcancel⟩
      have hup : u <+: p :=
        List.prefix_of_prefix_length_le hut (List.prefix_append _ _) (by omega)
      refine hu u ?_ ?_ hup ⟨c :: g, hpu⟩
      · intro hnil
        subst hnil
        exact h (by simp [← hpu])
      · intro heq
        subst heq
        omega
    rw [List.cons_append, List.cons_append, cut_cons hpre, ih hinf]
    simp

theorem cut_intercalate_iff (hp : p ≠ []) (hu : Unbordered p) {l : List (List α)}
    (hl : l ≠ []) : cut p (p.intercalate l) = l ↔ ∀ g ∈ l, ¬ p <:+: g := by
  constructor
  · intro h g hg
    rw [← h] at hg
    exact not_infix_of_mem_cut hp hg
  · intro h
    induction l with
    | nil => exact absurd rfl hl
    | cons g l ih =>
      have hg : ¬ p <:+: g := h g (by simp)
      by_cases hl : l = []
      · subst hl
        simpa [List.intercalate] using cut_of_not_infix hg
      · rw [List.intercalate_cons_of_ne_nil hl, cut_piece hp hu hg, ih hl fun g hg => h g (by simp [hg])]

end Cutting

/-- A part of a template: a symbol of its own or the pattern of a name. -/
inductive Token (α N : Type) where
  | lit (c : α)
  | slot (n : N)
  deriving DecidableEq, Repr

section Templates

variable [DecidableEq N] (pat : N → List α)

/-- The parts of a text, while `skip` symbols of the last pattern are left. -/
def tokensFrom (names : List N) : ℕ → List α → List (Token α N)
  | _, [] => []
  | skip + 1, _ :: t => tokensFrom names skip t
  | 0, c :: t =>
    match names.find? fun n => (pat n).isPrefixOf (c :: t) with
    | some n => .slot n :: tokensFrom names ((pat n).length - 1) t
    | none => .lit c :: tokensFrom names 0 t

/-- A text read as a template for the given names. -/
def tokens (names : List N) (t : List α) : List (Token α N) := tokensFrom pat names 0 t

/-- One part with some names filled in and the patterns of the others left as they are. -/
def part (fill : N → Option (List α)) : Token α N → List α
  | .lit c => [c]
  | .slot n => (fill n).getD (pat n)

/-- A template with some names filled in, all at once. -/
def render (fill : N → Option (List α)) (r : List (Token α N)) : List α :=
  r.flatMap (part pat fill)

/-- The pieces of a partly filled template between its own patterns of `n`. -/
def gaps (fill : N → Option (List α)) (n : N) : List (Token α N) → List (List α)
  | [] => [[]]
  | .lit c :: r => (gaps fill n r).modifyHead ([c] ++ ·)
  | .slot m :: r =>
    if m = n then [] :: gaps fill n r
    else (gaps fill n r).modifyHead (part pat fill (.slot m) ++ ·)

omit [DecidableEq α] in
theorem gaps_ne_nil (fill : N → Option (List α)) (n : N) (r : List (Token α N)) :
    gaps pat fill n r ≠ [] := by
  induction r with
  | nil => simp [gaps]
  | cons a r ih =>
    cases a with
    | lit c => exact modifyHead_ne_nil ih
    | slot m =>
      by_cases h : m = n
      · simp [gaps, h]
      · simpa only [gaps, if_neg h] using modifyHead_ne_nil ih

omit [DecidableEq α] in
/-- Putting a text between the pieces fills in the name. -/
theorem intercalate_gaps (fill : N → Option (List α)) (n : N) (v : List α)
    (r : List (Token α N)) :
    v.intercalate (gaps pat fill n r) = render pat (Function.update fill n (some v)) r := by
  induction r with
  | nil => simp [gaps, render, List.intercalate]
  | cons a r ih =>
    have hne := gaps_ne_nil pat fill n r
    cases a with
    | lit c =>
      rw [gaps, intercalate_modifyHead hne, ih]
      simp [render, part]
    | slot m =>
      by_cases h : m = n
      · subst h
        simp [gaps, List.intercalate_cons_of_ne_nil hne, ih, render, part]
      · simp [gaps, h, intercalate_modifyHead hne, ih, render, part]

omit [DecidableEq α] in
theorem render_update_self {fill : N → Option (List α)} {n : N} (h : fill n = none)
    (r : List (Token α N)) :
    render pat (Function.update fill n (some (pat n))) r = render pat fill r := by
  have hpart : part pat (Function.update fill n (some (pat n))) = part pat fill := by
    funext a
    cases a with
    | lit c => rfl
    | slot m =>
      by_cases hm : m = n
      · subst hm
        simp [part, h]
      · simp [part, hm]
  rw [render, render, hpart]

omit [DecidableEq N] in
theorem tokensFrom_skip (names : List N) (skip : ℕ) (t : List α) :
    tokensFrom pat names skip t = tokens pat names (t.drop skip) := by
  induction t generalizing skip with
  | nil => cases skip <;> simp [tokensFrom, tokens]
  | cons c t ih =>
    cases skip with
    | zero => rfl
    | succ skip => simpa [tokensFrom] using ih skip

omit [DecidableEq N] in
theorem tokens_lit {names : List N} {c : α} {t : List α}
    (h : names.find? (fun n => (pat n).isPrefixOf (c :: t)) = none) :
    tokens pat names (c :: t) = .lit c :: tokens pat names t := by
  simp only [tokens, tokensFrom, h]

omit [DecidableEq N] in
theorem tokens_slot {names : List N} {n : N} {t : List α} (hn : pat n ≠ [])
    (h : names.find? (fun m => (pat m).isPrefixOf (pat n ++ t)) = some n) :
    tokens pat names (pat n ++ t) = .slot n :: tokens pat names t := by
  obtain ⟨c, q, hq⟩ := List.exists_cons_of_ne_nil hn
  rw [hq, List.cons_append] at h
  have hdrop : (q ++ t).drop ((pat n).length - 1) = t := by simp [hq]
  rw [tokens, hq, List.cons_append, tokensFrom, h]
  simp only [tokensFrom_skip, hdrop]

omit [DecidableEq N] in
/-- A text is the template read from it with nothing filled in. -/
theorem render_tokens {names : List N} (hp : ∀ n ∈ names, pat n ≠ []) (t : List α) :
    render pat (fun _ => none) (tokens pat names t) = t := by
  induction hn : t.length using Nat.strong_induction_on generalizing t with
  | h n ih =>
    subst hn
    cases t with
    | nil => rfl
    | cons c t =>
      cases hf : names.find? fun n => (pat n).isPrefixOf (c :: t) with
      | none =>
        have := ih t.length (by simp) t rfl
        rw [tokens_lit pat hf]
        simpa [render, part] using this
      | some n =>
        have hne := hp n (List.mem_of_find?_eq_some hf)
        have hpre := List.find?_some hf
        rw [List.isPrefixOf_iff_prefix] at hpre
        obtain ⟨s, hs⟩ := hpre
        have hlen := congrArg List.length hs
        have hpos := List.length_pos_iff.mpr hne
        simp only [List.length_append, List.length_cons] at hlen
        have := ih s.length (by simp only [List.length_cons]; omega) s rfl
        rw [← hs] at hf ⊢
        rw [tokens_slot pat hne hf]
        simpa [render, part] using this

end Templates

section Runs

variable [DecidableEq N] (pat val : N → List α)

/-- The values of some of the names. -/
def fillOf (done : Finset N) : N → Option (List α) :=
  fun n => if n ∈ done then some (val n) else none

/-- The names replaced one after the other, each in the whole text. -/
def replaceEach (order : List N) (t : List α) : List α :=
  order.foldl (fun t n => replace (pat n) (val n) t) t

/-- The replacement of `n` finds the patterns of the template itself and no others. -/
def CutsOwn (names : List N) (t : List α) (done : Finset N) (n : N) : Prop :=
  cut (pat n) (render pat (fillOf val done) (tokens pat names t)) =
    gaps pat (fillOf val done) n (tokens pat names t)

/-- A run replaces the patterns of the template and never text that a value brought in. -/
structure Simultaneous (names : List N) (t : List α) (order : List N) : Prop where
  result : replaceEach pat val order t =
    render pat (fillOf val order.toFinset) (tokens pat names t)
  own : ∀ done n rest, order = done ++ n :: rest →
    cut (pat n) (replaceEach pat val done t) =
      gaps pat (fillOf val done.toFinset) n (tokens pat names t)

omit [DecidableEq α] in
theorem fillOf_insert (done : Finset N) (n : N) :
    Function.update (fillOf val done) n (some (val n)) = fillOf val (insert n done) := by
  funext m
  by_cases h : m = n
  · subst h
    simp [fillOf]
  · simp [fillOf, h]

omit [DecidableEq N] in
theorem replaceEach_append (first rest : List N) (t : List α) :
    replaceEach pat val (first ++ rest) t = replaceEach pat val rest (replaceEach pat val first t) :=
  List.foldl_append

/-- One clean replacement fills in one name more. -/
theorem replace_render {names : List N} {t : List α} {done : Finset N} {n : N}
    (h : CutsOwn pat val names t done n) :
    replace (pat n) (val n) (render pat (fillOf val done) (tokens pat names t)) =
      render pat (fillOf val (insert n done)) (tokens pat names t) := by
  rw [replace, h, intercalate_gaps, fillOf_insert]

/-- Names replaced by clean steps are all filled in at once. -/
theorem replaceEach_render {names : List N} (hp : ∀ n ∈ names, pat n ≠ []) {t : List α}
    {order : List N} (hclean : ∀ done n rest, order = done ++ n :: rest →
      replaceEach pat val done t = render pat (fillOf val done.toFinset) (tokens pat names t) →
      CutsOwn pat val names t done.toFinset n) :
    replaceEach pat val order t =
      render pat (fillOf val order.toFinset) (tokens pat names t) := by
  induction order using List.reverseRecOn with
  | nil =>
    have hnone : fillOf val ∅ = fun _ : N => none := by
      funext n
      simp [fillOf]
    simpa [replaceEach, hnone] using (render_tokens pat hp t).symm
  | append_singleton order n ih =>
    have hi := ih fun done m rest h => hclean done m (rest ++ [n]) (by simp [h])
    have hfin : (order ++ [n]).toFinset = insert n order.toFinset := by
      ext m
      simp
    rw [replaceEach_append, hi, hfin]
    exact replace_render pat val (hclean order n [] rfl hi)

/-- A run visits the names of a set first, then one more, then the rest. -/
theorem exists_order {names : List N} (hnd : names.Nodup) {done : Finset N}
    (hdone : done ⊆ names.toFinset) {n : N} (hn : n ∈ names) (hnot : n ∉ done) :
    ∃ rest, (done.toList ++ n :: rest).Perm names := by
  refine ⟨names.filter fun m => m ≠ n ∧ m ∉ done, ?_⟩
  rw [List.perm_ext_iff_of_nodup _ hnd]
  · intro m
    have hm : m ∈ done → m ∈ names := fun h => List.mem_toFinset.mp (hdone h)
    by_cases heq : m = n
    · simp [heq, hn]
    · by_cases hmd : m ∈ done
      · simp [hmd, hm hmd]
      · simp [hmd, heq]
  · simp only [List.nodup_append, Finset.nodup_toList, List.nodup_cons]
    refine ⟨trivial, ⟨by simp, hnd.filter _⟩, ?_⟩
    intro a ha b hb heq
    subst heq
    simp only [Finset.mem_toList] at ha
    obtain rfl | hb := List.mem_cons.mp hb
    · exact hnot ha
    · simp [ha] at hb

/-- Whatever the order, the names are filled in all at once, exactly when no set of the others
leaves a step patterns to find that the template does not have. -/
theorem simultaneous_iff {names : List N} (hp : ∀ n ∈ names, pat n ≠ []) (hnd : names.Nodup)
    (t : List α) : (∀ order, order.Perm names → Simultaneous pat val names t order) ↔
      ∀ n ∈ names, ∀ done ⊆ names.toFinset, n ∉ done → CutsOwn pat val names t done n := by
  constructor
  · intro h n hn done hdone hnot
    obtain ⟨rest, hperm⟩ := exists_order hnd hdone hn hnot
    have hown := (h _ hperm).own
    have hrun : replaceEach pat val done.toList t =
        render pat (fillOf val done) (tokens pat names t) := by
      have : replaceEach pat val done.toList t =
          render pat (fillOf val done.toList.toFinset) (tokens pat names t) :=
        replaceEach_render pat val hp fun first m others heq hfirst => by
          rw [CutsOwn, ← hfirst]
          exact hown first m (others ++ n :: rest) (by simp [heq])
      simpa using this
    have := hown done.toList n rest rfl
    rwa [hrun, Finset.toList_toFinset] at this
  · intro h order hperm
    have hndo : order.Nodup := hperm.nodup_iff.mpr hnd
    have hclean : ∀ done n rest, order = done ++ n :: rest →
        CutsOwn pat val names t done.toFinset n := by
      intro done n rest horder
      subst horder
      refine h n (hperm.subset (by simp)) done.toFinset ?_ ?_
      · intro m hm
        have : m ∈ done := List.mem_toFinset.mp hm
        exact List.mem_toFinset.mpr (hperm.subset (by simp [this]))
      · rw [List.nodup_append] at hndo
        simpa using fun hn => hndo.2.2 n hn n (by simp) rfl
    refine ⟨replaceEach_render pat val hp fun done n rest horder _ => hclean done n rest horder, ?_⟩
    intro done n rest horder
    rw [replaceEach_render pat val hp fun first m others heq _ =>
      hclean first m (others ++ n :: rest) (by simp [horder, heq])]
    exact hclean done n rest horder

/-- For a pattern that cannot overlap itself the step is clean when no piece holds it. -/
theorem cutsOwn_iff {names : List N} {t : List α} {done : Finset N} {n : N} (hn : n ∉ done)
    (hp : pat n ≠ []) (hu : Unbordered (pat n)) : CutsOwn pat val names t done n ↔
      ∀ g ∈ gaps pat (fillOf val done) n (tokens pat names t), ¬ pat n <:+: g := by
  have hnone : fillOf val done n = none := by simp [fillOf, hn]
  have hwhole := intercalate_gaps pat (fillOf val done) n (pat n) (tokens pat names t)
  rw [render_update_self pat hnone] at hwhole
  rw [CutsOwn, ← hwhole]
  exact cut_intercalate_iff hp hu (gaps_ne_nil pat _ n _)

end Runs

section Strings
open KeyedContent

/-- `str::replace`, for a pattern that is not empty. -/
def replaceText (text pat value : String) : String :=
  String.ofList (replace pat.toList value.toList text.toList)

/-- The order in which a map with string keys iterates. -/
structure Iteration (V : Type) where
  entries : (AList fun _ : String => V) → List (String × V)
  perm : ∀ m, (entries m).Perm (pairs m)

/-- A map can iterate in any order of its entries. -/
theorem Iteration.forall_iff {V : Type} {m : AList fun _ : String => V}
    {P : List (String × V) → Prop} : (∀ order : Iteration V, P (order.entries m)) ↔
      ∀ entries, entries.Perm (pairs m) → P entries := by
  classical
  constructor
  · intro h entries hperm
    have := h ⟨fun c => if c = m then entries else pairs c, fun c => by
      by_cases hc : c = m
      · simpa [hc] using hperm
      · simp [hc]⟩
    simpa using this
  · intro h order
    exact h _ (order.perm m)

variable (pat : String → String) (m : AList fun _ : String => String) (text : String)

/-- The entries replaced one after the other in the growing text. -/
def interpolate (entries : List (String × String)) (text : String) : String :=
  entries.foldl (fun text e => replaceText text (pat e.1) e.2) text

def patternOf (n : String) : List Char := (pat n).toList

def valueOf (n : String) : List Char := ((m.lookup n).getD "").toList

/-- The text as a template for the names of the map. -/
def templateOf : List (Token Char String) := tokens (patternOf pat) m.keys text.toList

/-- Every pattern of the text filled in, all at once. -/
def filled : String :=
  String.ofList (render (patternOf pat) (fillOf (valueOf m) m.keys.toFinset) (templateOf pat m text))

/-- What stands between the text's own patterns of `n` once `others` are filled in. -/
def between (others : Finset String) (n : String) : List (List Char) :=
  gaps (patternOf pat) (fillOf (valueOf m) others) n (templateOf pat m text)

/-- The entries are filled in as if all at once, and no step replaces anything but the patterns
the text itself has. -/
structure AtOnce (entries : List (String × String)) : Prop where
  result : interpolate pat entries text = filled pat m text
  own : ∀ done e rest, entries = done ++ e :: rest →
    cut (patternOf pat e.1) (interpolate pat done text).toList =
      between pat m text (done.map Prod.fst).toFinset e.1

variable {pat m text}

theorem pairs_eq : pairs m = m.keys.map fun n => (n, (m.lookup n).getD "") := by
  rw [← pairs_keys, List.map_map]
  symm
  refine (List.map_congr_left ?_).trans (List.map_id _)
  intro e he
  simp [mem_pairs.mp (show (e.1, e.2) ∈ pairs m from he)]

theorem interpolate_toList {entries : List (String × String)}
    (h : ∀ e ∈ entries, m.lookup e.1 = some e.2) :
    (interpolate pat entries text).toList =
      replaceEach (patternOf pat) (valueOf m) (entries.map Prod.fst) text.toList := by
  induction entries generalizing text with
  | nil => rfl
  | cons e entries ih =>
    have hrest : (interpolate pat entries (replaceText text (pat e.1) e.2)).toList = _ :=
      ih fun x hx => h x (by simp [hx])
    have hv : valueOf m e.1 = e.2.toList := by simp [valueOf, h e (by simp)]
    rw [interpolate, List.foldl_cons, ← interpolate, hrest]
    simp [replaceEach, replaceText, patternOf, hv]

theorem atOnce_iff_simultaneous {entries : List (String × String)}
    (h : entries.Perm (pairs m)) : AtOnce pat m text entries ↔
      Simultaneous (patternOf pat) (valueOf m) m.keys text.toList (entries.map Prod.fst) := by
  have hval : ∀ e ∈ entries, m.lookup e.1 = some e.2 := fun e he => mem_pairs.mp (h.mem_iff.mp he)
  have hall : (entries.map Prod.fst).toFinset = m.keys.toFinset := by
    rw [← pairs_keys]
    exact List.toFinset_eq_of_perm _ _ (h.map _)
  constructor
  · intro ha
    refine ⟨?_, ?_⟩
    · rw [← interpolate_toList hval, ha.result, filled, hall, String.toList_ofList, templateOf]
    · intro done n rest horder
      obtain ⟨first, others, rfl, rfl, hothers⟩ := List.map_eq_append_iff.mp horder
      obtain ⟨e, last, rfl, rfl, rfl⟩ := List.map_eq_cons_iff.mp hothers
      rw [← interpolate_toList fun x hx => hval x (by simp [hx])]
      exact ha.own first e last rfl
  · intro hs
    refine ⟨?_, ?_⟩
    · rw [← String.toList_inj, interpolate_toList hval, hs.result, filled, hall,
        String.toList_ofList, templateOf]
    · intro done e rest horder
      subst horder
      rw [interpolate_toList fun x hx => hval x (by simp [hx])]
      exact hs.own (done.map Prod.fst) e.1 (rest.map Prod.fst) (by simp)

/-- The result is that of filling in everything at once, in every order, exactly when no set of
the other names leaves a step anything to find beyond the text's own patterns. -/
theorem atOnce_iff (hp : ∀ n, pat n ≠ "") :
    (∀ entries, entries.Perm (pairs m) → AtOnce pat m text entries) ↔
      ∀ n ∈ m, ∀ others ⊆ m.keys.toFinset, n ∉ others →
        CutsOwn (patternOf pat) (valueOf m) m.keys text.toList others n := by
  have hpat : ∀ n ∈ m.keys, patternOf pat n ≠ [] := fun n _ => by simpa [patternOf] using hp n
  have hiff := simultaneous_iff (patternOf pat) (valueOf m) hpat m.keys_nodup text.toList
  rw [show (∀ n ∈ m, _) ↔ _ from hiff.symm]
  constructor
  · intro h names hnames
    have hperm : (names.map fun n => (n, (m.lookup n).getD "")).Perm (pairs m) := by
      rw [pairs_eq]
      exact hnames.map _
    simpa [Function.comp_def] using (atOnce_iff_simultaneous hperm).mp (h _ hperm)
  · intro h entries hperm
    refine (atOnce_iff_simultaneous hperm).mpr (h _ ?_)
    rw [← pairs_keys]
    exact hperm.map _

end Strings

end PlaidRuntime.Substitution
