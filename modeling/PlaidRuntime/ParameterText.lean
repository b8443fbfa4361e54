import PlaidRuntime.SeparatedText
import PlaidRuntime.SortedEntries

/-!
# Parameters as text

`key=value` pieces joined by `&`, and a receiver that splits such a text, decodes the pieces and
keeps the last value of each key. The text of what was read, in the order of the keys, is the text
that came in only if nothing was decoded, dropped or moved.
-/
namespace PlaidRuntime.ParameterText
open SeparatedText SortedEntries

abbrev Text : Type := List Char

abbrev Entry : Type := Text × Text

def render (e : Entry) : Text := e.1 ++ '=' :: e.2

def joined (es : List Entry) : Text := ['&'].intercalate (es.map render)

/-- What further entries add to a text. -/
def appended (es : List Entry) : Text := es.flatMap fun e => '&' :: render e

/-- What stands before the first `=` of a piece and after it. -/
def splitPiece (p : Text) : Entry := (p.takeWhile (· ≠ '='), (p.dropWhile (· ≠ '=')).tail)

/-- An entry whose piece can be told from its neighbours. -/
def Plain (e : Entry) : Prop := '=' ∉ e.1 ∧ '&' ∉ e.1 ∧ '&' ∉ e.2

section pieces
variable {e : Entry} {es es' : List Entry} {t : Text}

theorem splitPiece_render (h : '=' ∉ e.1) : splitPiece (render e) = e := by
  have hall : ∀ c ∈ e.1, decide (c ≠ '=') = true := by
    intro c hc
    exact decide_eq_true fun heq => h (heq ▸ hc)
  unfold splitPiece render
  rw [List.takeWhile_append_of_pos hall, List.dropWhile_append_of_pos hall]
  simp

theorem render_inj {e' : Entry} (h : '=' ∉ e.1) (h' : '=' ∉ e'.1) (heq : render e = render e') :
    e = e' := by
  rw [← splitPiece_render h, heq, splitPiece_render h']

theorem notMem_splitPiece (p : Text) : '=' ∉ (splitPiece p).1 := by
  intro h
  simpa using List.mem_takeWhile_imp h

theorem render_splitPiece {p : Text} (h : '=' ∈ p) : render (splitPiece p) = p := by
  induction p with
  | nil => cases h
  | cons c p ih =>
    by_cases hc : c = '='
    · subst hc
      simp [render, splitPiece]
    · have hp := ih ((List.mem_cons.mp h).resolve_left fun heq => hc heq.symm)
      simpa [render, splitPiece, hc] using hp

theorem Plain.notMem_render (h : Plain e) : '&' ∉ render e := by
  simp [render, h.2.1, h.2.2]

theorem joined_singleton : joined [e] = render e := List.intercalate_singleton

theorem joined_cons (h : es ≠ []) : joined (e :: es) = render e ++ '&' :: joined es := by
  simp [joined, List.intercalate_cons_of_ne_nil, h]

theorem intercalate_append {l l' : List Text} (hl : l ≠ []) (hl' : l' ≠ []) :
    ['&'].intercalate (l ++ l') = ['&'].intercalate l ++ '&' :: ['&'].intercalate l' := by
  induction l with
  | nil => exact absurd rfl hl
  | cons p l ih =>
    by_cases hnil : l = []
    · subst hnil
      simp [List.intercalate_cons_of_ne_nil hl']
    · rw [List.cons_append, List.intercalate_cons_of_ne_nil (by simp [hnil]), ih hnil,
        List.intercalate_cons_of_ne_nil hnil]
      simp

theorem intercalate_cons_map (p : Text) (es : List Entry) :
    ['&'].intercalate (p :: es.map render) = p ++ appended es := by
  induction es generalizing p with
  | nil => simp [appended]
  | cons e es ih =>
    rw [List.map_cons, List.intercalate_cons_of_ne_nil (by simp), ih]
    simp [appended]

theorem joined_append (h : es ≠ []) : joined (es ++ es') = joined es ++ appended es' := by
  by_cases hes' : es' = []
  · subst hes'
    simp [appended]
  · obtain ⟨e, rest, rfl⟩ := List.exists_cons_of_ne_nil hes'
    unfold joined
    rw [List.map_append, intercalate_append (by simpa using h) (by simp), List.map_cons,
      intercalate_cons_map]
    simp [appended]

/-- A longer last value. -/
theorem joined_concat (es : List Entry) (k v w : Text) :
    joined (es ++ [(k, v ++ w)]) = joined (es ++ [(k, v)]) ++ w := by
  cases es with
  | nil => simp [joined, render]
  | cons e es =>
    rw [joined_append (by simp), joined_append (by simp)]
    simp [appended, render]

theorem splitOn_joined (hp : ∀ e ∈ es, Plain e) (hne : es ≠ []) :
    (joined es).splitOn '&' = es.map render := by
  refine List.splitOn_intercalate '&' (fun p hp' => ?_) (by simpa using hne)
  obtain ⟨e, he, rfl⟩ := List.mem_map.mp hp'
  exact (hp e he).notMem_render

/-- A plain entry stays a piece, whatever its neighbours are. -/
theorem render_mem_splitOn (he : e ∈ es) (hp : Plain e) :
    render e ∈ (joined es).splitOn '&' := by
  induction es with
  | nil => cases he
  | cons a es ih =>
    by_cases hes : es = []
    · subst hes
      rw [List.mem_singleton.mp he, joined_singleton,
        List.splitOn_eq_singleton (List.mem_singleton.mp he ▸ hp.notMem_render)]
      exact List.mem_singleton.mpr rfl
    · rw [joined_cons hes, List.splitOn_append_cons_self, List.mem_append]
      rcases List.mem_cons.mp he with rfl | he
      · rw [List.splitOn_eq_singleton hp.notMem_render]
        exact Or.inl (List.mem_singleton.mpr rfl)
      · exact Or.inr (ih he)

theorem render_infix_joined (he : e ∈ es) : render e <:+: joined es := by
  obtain ⟨l, l', rfl⟩ := List.append_of_mem he
  cases l with
  | nil =>
    rw [List.nil_append, show e :: l' = [e] ++ l' from rfl, joined_append (by simp),
      joined_singleton]
    exact (List.prefix_append _ _).isInfix
  | cons a l =>
    rw [joined_append (by simp)]
    exact ⟨joined (a :: l) ++ ['&'], appended l', by simp [appended]⟩

/-- The pieces around a plain entry. -/
theorem splitOn_joined_append (es es' : List Entry) (hp : Plain e) :
    ∃ l l', (joined (es ++ e :: es')).splitOn '&' = l ++ render e :: l' ∧
      ['&'].intercalate (render e :: l') = render e ++ appended es' := by
  have hlast : ∃ l', (render e ++ appended es').splitOn '&' = render e :: l' := by
    cases es' with
    | nil => exact ⟨[], by simp [appended, List.splitOn_eq_singleton hp.notMem_render]⟩
    | cons a es' =>
      refine ⟨(render a ++ appended es').splitOn '&', ?_⟩
      rw [← List.splitOn_append_cons_self_of_not_mem hp.notMem_render]
      simp [appended]
  obtain ⟨l', hl'⟩ := hlast
  have hjoin : ['&'].intercalate (render e :: l') = render e ++ appended es' := by
    rw [← hl', List.intercalate_splitOn]
  by_cases hes : es = []
  · subst hes
    refine ⟨[], l', ?_, hjoin⟩
    rw [List.nil_append, List.nil_append, ← hl', joined, List.map_cons, intercalate_cons_map]
  · refine ⟨(joined es).splitOn '&', l', ?_, hjoin⟩
    rw [joined_append hes, ← hl', ← List.splitOn_append_cons_self]
    simp [appended]

theorem parts_infix_joined (he : e ∈ es) : e.1 <:+: joined es ∧ e.2 <:+: joined es := by
  have hkey : e.1 <:+: render e := (List.prefix_append _ _).isInfix
  have hvalue : e.2 <:+: render e := by
    have hcons : e.2 <:+ '=' :: e.2 := List.suffix_cons '=' e.2
    exact (hcons.trans (List.suffix_append _ _)).isInfix
  exact ⟨hkey.trans (render_infix_joined he), hvalue.trans (render_infix_joined he)⟩

/-- A word without separators lies within one key or one value. -/
theorem infix_joined {w : Text} (heq : '=' ∉ w) (hamp : '&' ∉ w) (hw : w ≠ [])
    (h : w <:+: joined es) : ∃ e ∈ es, w <:+: e.1 ∨ w <:+: e.2 := by
  have hfirst : ∀ e : Entry, w <:+: render e → w <:+: e.1 ∨ w <:+: e.2 :=
    fun e => infix_append_cons heq
  induction es with
  | nil => exact absurd (List.infix_nil.mp h) hw
  | cons a es ih =>
    by_cases hes : es = []
    · subst hes
      rw [joined_singleton] at h
      exact ⟨a, List.mem_singleton.mpr rfl, hfirst a h⟩
    · rw [joined_cons hes] at h
      rcases infix_append_cons hamp h with h | h
      · exact ⟨a, List.mem_cons_self, hfirst a h⟩
      · obtain ⟨e, he, h⟩ := ih h
        exact ⟨e, List.mem_cons_of_mem a he, h⟩

end pieces

/-! How much a text says: everything but the `=`, which a piece without one is given. -/
section size

def size (t : Text) : ℕ := t.countP (· ≠ '=')

def weight (e : Entry) : ℕ := size e.1 + size e.2 + 1

theorem weight_pos (e : Entry) : 0 < weight e := Nat.succ_pos _

theorem size_append (s t : Text) : size (s ++ t) = size s + size t := List.countP_append

theorem size_render (e : Entry) : size (render e) + 1 = weight e := by
  simp [render, weight, size]

theorem size_intercalate {l : List Text} (hl : l ≠ []) :
    size (['&'].intercalate l) + 1 = (l.map fun p => size p + 1).sum := by
  induction l with
  | nil => exact absurd rfl hl
  | cons p l ih =>
    by_cases hnil : l = []
    · subst hnil
      simp
    · have ih := ih hnil
      rw [List.intercalate_cons_of_ne_nil hnil, List.map_cons, List.sum_cons, ← ih]
      simp only [size, List.countP_append, List.countP_singleton]
      simp
      omega

theorem size_joined {es : List Entry} (h : es ≠ []) :
    size (joined es) + 1 = (es.map weight).sum := by
  rw [joined, size_intercalate (by simpa using h), List.map_map]
  congr 2
  funext e
  exact size_render e

theorem weight_splitPiece (p : Text) : weight (splitPiece p) = size p + 1 := by
  induction p with
  | nil => rfl
  | cons c p ih =>
    by_cases hc : c = '='
    · subst hc
      simp [splitPiece, weight, size]
    · simp only [splitPiece, weight, size] at ih ⊢
      simp [hc] at ih ⊢
      omega

end size

/-! Reading. A `+` may be read as a blank; any other decoding makes the text smaller. -/
section reading

def plus (c : Char) : Char := if c = '+' then ' ' else c

variable (decode : Text → Text) (ignored : Text)

/-- The entry of one piece; an empty piece has none, the ignored key is left out. -/
def readPiece (p : Text) : Option Entry :=
  let e := splitPiece p
  if p = [] ∨ e.1 = ignored then none else some (decode e.1, decode e.2)

/-- The last value of each key, in the order of the keys. -/
def read (t : Text) : List Entry := ofEntries ((t.splitOn '&').filterMap (readPiece decode ignored))

variable {decode ignored} {t : Text} {es : List Entry}

/-- Entries that decoding leaves as they are. -/
def Verbatim (decode : Text → Text) (e : Entry) : Prop :=
  Plain e ∧ decode e.1 = e.1 ∧ decode e.2 = e.2

theorem readPiece_render {e : Entry} (h : Verbatim decode e) (hne : e.1 ≠ ignored) :
    readPiece decode ignored (render e) = some e := by
  have hrender : render e ≠ [] := by simp [render]
  simp [readPiece, splitPiece_render h.1.1, hrender, hne, h.2.1, h.2.2]

/-- What was sent as it stands, in the order of the keys, is read back. -/
theorem read_joined (hs : Sorted es) (hne : es ≠ []) (hv : ∀ e ∈ es, Verbatim decode e)
    (hi : ∀ e ∈ es, e.1 ≠ ignored) : read decode ignored (joined es) = es := by
  have hread : (es.map render).filterMap (readPiece decode ignored) = es := by
    clear hs hne
    induction es with
    | nil => rfl
    | cons e es ih =>
      rw [List.forall_mem_cons] at hv hi
      rw [List.map_cons, List.filterMap_cons, readPiece_render hv.1 hi.1]
      exact congrArg (e :: ·) (ih hv.2 hi.2)
  rw [read, splitOn_joined (fun e he => (hv e he).1) hne, hread, ofEntries_of_sorted hs]

theorem read_append_ignored {v : Text} (heq : '=' ∉ ignored) (hamp : '&' ∉ ignored)
    (hv : '&' ∉ v) :
    read decode ignored (t ++ '&' :: render (ignored, v)) = read decode ignored t := by
  have hpiece : readPiece decode ignored (render (ignored, v)) = none := by
    have hkey : splitPiece (render (ignored, v)) = (ignored, v) := splitPiece_render heq
    simp [readPiece, hkey]
  have hlast : (render (ignored, v)).splitOn '&' = [render (ignored, v)] :=
    List.splitOn_eq_singleton (by simp [render, hamp, hv])
  rw [read, List.splitOn_append_cons_self, hlast, List.filterMap_append,
    List.filterMap_cons_none hpiece, List.filterMap_nil, List.append_nil, ← read]

section keeping
variable {α β : Type} {g : α → Option β} {u : α → ℕ} {w : β → ℕ}

theorem filterMap_le (hle : ∀ a b, g a = some b → w b ≤ u a) (l : List α) :
    ((l.filterMap g).map w).sum ≤ (l.map u).sum := by
  induction l with
  | nil => simp
  | cons a l ih =>
    cases hg : g a with
    | none =>
      rw [List.filterMap_cons_none hg, List.map_cons, List.sum_cons]
      omega
    | some b =>
      have hb := hle a b hg
      rw [List.filterMap_cons_some hg]
      simp only [List.map_cons, List.sum_cons]
      omega

/-- Nothing is lost only if every piece gives an entry of its own weight. -/
theorem filterMap_eq (hle : ∀ a b, g a = some b → w b ≤ u a) (hpos : ∀ a, 0 < u a) {l : List α}
    (h : ((l.filterMap g).map w).sum = (l.map u).sum) :
    ∀ a ∈ l, ∃ b, g a = some b ∧ w b = u a := by
  induction l with
  | nil => simp
  | cons a l ih =>
    have hrest := filterMap_le hle l
    have ha := hpos a
    rw [List.forall_mem_cons]
    cases hg : g a with
    | none =>
      rw [List.filterMap_cons_none hg, List.map_cons, List.sum_cons] at h
      omega
    | some b =>
      have hb := hle a b hg
      rw [List.filterMap_cons_some hg] at h
      simp only [List.map_cons, List.sum_cons] at h
      exact ⟨⟨b, rfl, by omega⟩, ih (by omega)⟩

end keeping

/-- A decoding that shortens what it changes, blanks for `+` apart. -/
def Shortens (decode : Text → Text) : Prop :=
  ∀ s, decode s = s.map plus ∨ size (decode s) < size s

theorem size_map_plus (s : Text) : size (s.map plus) = size s := by
  have hplus : ∀ c, decide (plus c ≠ '=') = decide (c ≠ '=') := by
    intro c
    by_cases hc : c = '+'
    · subst hc
      rfl
    · simp [plus, hc]
  rw [size, List.countP_map, size]
  exact List.countP_congr fun c _ => by simp only [Function.comp_apply, hplus]

theorem map_plus_of_notMem {s : Text} (h : '+' ∉ s) : s.map plus = s := by
  refine (List.map_congr_left fun c hc => ?_).trans (List.map_id s)
  have hne : c ≠ '+' := by
    rintro rfl
    exact h hc
  exact if_neg hne

theorem plus_notMem_map_plus (s : Text) : '+' ∉ s.map plus := by
  intro h
  obtain ⟨c, -, hc⟩ := List.mem_map.mp h
  unfold plus at hc
  split_ifs at hc with heq
  · exact absurd hc (by decide)
  · exact heq hc

theorem notMem_map_plus {s : Text} {c : Char} (h : c ∉ s) (hblank : c ≠ ' ') :
    c ∉ s.map plus := by
  intro hmem
  obtain ⟨d, hd, heq⟩ := List.mem_map.mp hmem
  unfold plus at heq
  split_ifs at heq
  · exact hblank heq.symm
  · exact h (heq ▸ hd)

variable (hdecode : Shortens decode)
include hdecode

theorem size_decode_le (s : Text) : size (decode s) ≤ size s := by
  rcases hdecode s with h | h
  · rw [h, size_map_plus]
  · exact h.le

theorem decode_eq_of_size {s : Text} (h : size s ≤ size (decode s)) : decode s = s.map plus := by
  rcases hdecode s with hs | hs
  · exact hs
  · omega

theorem readPiece_le (p : Text) (e : Entry) (h : readPiece decode ignored p = some e) :
    weight e ≤ size p + 1 := by
  simp only [readPiece, Option.ite_none_left_eq_some, Option.some.injEq] at h
  obtain ⟨-, rfl⟩ := h
  have hkey := size_decode_le hdecode (splitPiece p).1
  have hvalue := size_decode_le hdecode (splitPiece p).2
  rw [← weight_splitPiece]
  simp only [weight]
  omega

theorem size_read_le (h : read decode ignored t ≠ []) :
    size (joined (read decode ignored t)) ≤ size t := by
  have hpieces := size_intercalate (List.splitOn_ne_nil '&' t)
  rw [List.intercalate_splitOn] at hpieces
  have hsome := filterMap_le (@readPiece_le decode ignored hdecode) (t.splitOn '&')
  have hkept := size_joined h
  rw [read] at hkept ⊢
  rcases ofEntries_perm_or_lt weight_pos
    ((t.splitOn '&').filterMap (readPiece decode ignored)) with hp | hlt
  · have hsum := (hp.map weight).sum_eq
    omega
  · omega

/-- A text that is the text of what was read of it lost no piece, and none was decoded but for
its `+`. -/
theorem pieces_of_read (ht : t ≠ []) (h : joined (read decode ignored t) = t) :
    (read decode ignored t).Perm ((t.splitOn '&').filterMap (readPiece decode ignored)) ∧
      ∀ p ∈ t.splitOn '&', (splitPiece p).1 ≠ ignored ∧
        decode (splitPiece p).1 = (splitPiece p).1.map plus ∧
        decode (splitPiece p).2 = (splitPiece p).2.map plus := by
  have hne : read decode ignored t ≠ [] := by
    intro hnil
    rw [hnil] at h
    exact ht h.symm
  have hpieces := size_intercalate (List.splitOn_ne_nil '&' t)
  rw [List.intercalate_splitOn] at hpieces
  have hsome := filterMap_le (@readPiece_le decode ignored hdecode) (t.splitOn '&')
  have hkept := size_joined hne
  rw [h] at hkept
  rcases ofEntries_perm_or_lt weight_pos
    ((t.splitOn '&').filterMap (readPiece decode ignored)) with hp | hlt
  · rw [← read] at hp
    refine ⟨hp, fun p hmem => ?_⟩
    have hsum := (hp.map weight).sum_eq
    obtain ⟨e, he, hw⟩ := filterMap_eq (@readPiece_le decode ignored hdecode)
      (fun p => Nat.succ_pos _) (hsum.symm.trans (hkept.symm.trans hpieces)) p hmem
    simp only [readPiece, Option.ite_none_left_eq_some, Option.some.injEq, not_or] at he
    obtain ⟨⟨-, hkey⟩, rfl⟩ := he
    rw [← weight_splitPiece] at hw
    have h1 := size_decode_le hdecode (splitPiece p).1
    have h2 := size_decode_le hdecode (splitPiece p).2
    simp only [weight] at hw
    exact ⟨hkey, decode_eq_of_size hdecode (by omega), decode_eq_of_size hdecode (by omega)⟩
  · rw [read] at hkept
    omega

/-- The text of what was read of it is the text itself: nothing was decoded, dropped or moved. -/
theorem verbatim_of_read (ht : t ≠ []) (h : joined (read decode ignored t) = t) :
    t.splitOn '&' = (read decode ignored t).map render ∧
      ∀ e ∈ read decode ignored t, Verbatim decode e ∧ e.1 ≠ ignored := by
  obtain ⟨hperm, hpiece⟩ := pieces_of_read hdecode ht h
  have hplain : ∀ e ∈ read decode ignored t, Plain e ∧ '+' ∉ e.1 ∧ '+' ∉ e.2 := by
    intro e he
    obtain ⟨p, hp, hread⟩ := List.mem_filterMap.mp (hperm.mem_iff.mp he)
    obtain ⟨-, hkey, hvalue⟩ := hpiece p hp
    simp only [readPiece, Option.ite_none_left_eq_some, Option.some.injEq] at hread
    obtain ⟨-, rfl⟩ := hread
    have hamp := notMem_of_mem_splitOn hp
    have hfst : ∀ c ∈ (splitPiece p).1, c ∈ p := fun c hc => (List.takeWhile_prefix _).subset hc
    have hsnd : ∀ c ∈ (splitPiece p).2, c ∈ p := fun c hc =>
      (List.dropWhile_suffix _).subset (List.mem_of_mem_tail hc)
    simp only [hkey, hvalue]
    exact ⟨⟨notMem_map_plus (notMem_splitPiece p) (by decide),
      notMem_map_plus (fun hc => hamp (hfst _ hc)) (by decide),
      notMem_map_plus (fun hc => hamp (hsnd _ hc)) (by decide)⟩,
      plus_notMem_map_plus _, plus_notMem_map_plus _⟩
  have hne : read decode ignored t ≠ [] := by
    intro hnil
    rw [hnil] at h
    exact ht h.symm
  have hsplit := splitOn_joined (fun e he => (hplain e he).1) hne
  rw [h] at hsplit
  refine ⟨hsplit, fun e he => ?_⟩
  obtain ⟨hp, hkey, hvalue⟩ := hplain e he
  have hread := hpiece (render e) (hsplit ▸ List.mem_map_of_mem he)
  rw [splitPiece_render hp.1, map_plus_of_notMem hkey, map_plus_of_notMem hvalue] at hread
  exact ⟨⟨hp, hread.2⟩, hread.1⟩

end reading

end PlaidRuntime.ParameterText
