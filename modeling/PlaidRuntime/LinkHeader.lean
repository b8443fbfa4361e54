import PlaidRuntime.GuestMemory
import PlaidRuntime.SeparatedText

/-!
# The link to the next page

`get_next_from_link_header` of `data/mod.rs`, which the GitHub and Okta generators ask whether
there is another page. The header is cut at every comma and, in the first part that ends like the
next link, whatever stands between the first `<` and the first `>` is taken.
-/
namespace PlaidRuntime.LinkHeader
open GuestMemory SeparatedText

/-- How the function ends: slicing a text backwards panics. -/
inductive Outcome where
  | panicked
  | returned (next : Option String)
  deriving DecidableEq, Repr

def isVisibleAscii (b : UInt8) : Bool := 32 ≤ b && b < 127 || b = 9

/-- `HeaderValue::to_str`. -/
def toStr (hv : Bytes) : Option (List Char) :=
  if hv.all isVisibleAscii then some (hv.map fun b => Char.ofNat b.toNat) else none

/-- The white space `to_str` can leave in a text. -/
def isBlank (c : Char) : Bool := c = ' ' || c = '\t'

def trim (t : List Char) : List Char := (t.dropWhile isBlank).rdropWhile isBlank

/-- `part[first..last]`. -/
def slice (part : List Char) (first last : ℕ) : Option (List Char) :=
  if first ≤ last ∧ last ≤ part.length then some ((part.take last).drop first) else none

def relEquals : List Char := ['r', 'e', 'l', '=']

def nextRel : List Char := ['n', 'e', 'x', 't']

/-- What the part of the next page ends with: `rel="next"`. -/
def relNext : List Char := relEquals ++ '"' :: nextRel ++ ['"']

def getNext : List (List Char) → Outcome
  | [] => .returned none
  | part :: parts =>
    let part := trim part
    if relNext.isSuffixOf part then
      match part.idxOf? '<', part.idxOf? '>' with
      | some first, some last =>
        match slice part (first + 1) last with
        | some next => .returned (some (String.ofList next))
        | none => .panicked
      | _, _ => getNext parts
    else getNext parts

def getNextFromLinkHeader (hv : Bytes) : Outcome :=
  match toStr hv with
  | none => .returned none
  | some header => getNext (header.splitOn ',')

/-- The parts between the commas, without the white space around them. -/
def partsOf (text : List Char) : List (List Char) := (text.splitOn ',').map trim

/-- A part that ends like the next link and has both brackets. -/
def isNextLink (part : List Char) : Bool :=
  relNext.isSuffixOf part && part.contains '<' && part.contains '>'

/-- The first `<` stands before the first `>`. -/
def OpensFirst (part : List Char) : Prop := ∃ a b, part = a ++ '<' :: b ∧ '>' ∉ a

/-- What stands between the first `<` and the first `>`. -/
def bracketed (part : List Char) : List Char :=
  ((part.take (part.idxOf '>')).drop (part.idxOf '<' + 1))

section searching
variable {part : List Char} {parts : List (List Char)}

theorem idxOf?_of_mem {c : Char} (h : c ∈ part) : part.idxOf? c = some (part.idxOf c) := by
  cases hi : part.idxOf? c with
  | none => exact absurd h (List.idxOf?_eq_none_iff.mp hi)
  | some i => simp [List.idxOf_eq_getD_idxOf?, hi]

/-- The first occurrence of a symbol. -/
theorem idxOf_append_cons {a b : List Char} {c : Char} (h : c ∉ a) :
    (a ++ c :: b).idxOf c = a.length := by
  simp [List.idxOf_append_of_notMem h]

theorem opensFirst_iff (hopen : '<' ∈ part) :
    OpensFirst part ↔ part.idxOf '<' < part.idxOf '>' := by
  obtain ⟨a, b, rfl, ha⟩ := List.eq_append_cons_of_mem hopen
  rw [idxOf_append_cons ha]
  constructor
  · intro h
    obtain ⟨a', b', heq, ha'⟩ := h
    have hlen : a.length ≤ a'.length := by
      rw [← idxOf_append_cons (b := b) ha, heq]
      by_cases hin : '<' ∈ a'
      · rw [List.idxOf_append_of_mem hin]
        exact List.idxOf_le_length
      · rw [idxOf_append_cons hin]
    rw [heq, List.idxOf_append_of_notMem ha', List.idxOf_cons_ne _ (by decide)]
    omega
  · intro h
    refine ⟨a, b, rfl, fun hclose => ?_⟩
    rw [List.idxOf_append_of_mem hclose] at h
    have := List.idxOf_lt_length_of_mem hclose
    omega

open Classical in
/-- The first part that is a next link decides. -/
theorem getNext_eq : getNext parts = match (parts.map trim).find? isNextLink with
    | none => .returned none
    | some part => if OpensFirst part then .returned (some (String.ofList (bracketed part)))
      else .panicked := by
  induction parts with
  | nil => rfl
  | cons part parts ih =>
    by_cases hnext : isNextLink (trim part)
    · simp only [isNextLink, Bool.and_eq_true, List.contains_iff_mem] at hnext
      obtain ⟨⟨hsuffix, hopen⟩, hclose⟩ := hnext
      have hfind : ((part :: parts).map trim).find? isNextLink = some (trim part) := by
        simp [isNextLink, hsuffix, hopen, hclose]
      have hlen := List.idxOf_lt_length_of_mem hclose
      simp only [getNext, hsuffix, if_true, idxOf?_of_mem hopen, idxOf?_of_mem hclose, hfind,
        opensFirst_iff hopen, slice, bracketed]
      by_cases hlt : (trim part).idxOf '<' < (trim part).idxOf '>'
      · simp [hlt, Nat.succ_le_of_lt hlt, hlen.le]
      · simp [hlt]
    · have hfind : ((part :: parts).map trim).find? isNextLink =
          (parts.map trim).find? isNextLink := by simp [hnext]
      rw [hfind, ← ih]
      simp only [isNextLink, Bool.and_eq_true, List.contains_iff_mem, not_and] at hnext
      by_cases hsuffix : relNext.isSuffixOf (trim part)
      · by_cases hopen : '<' ∈ trim part
        · have hclose := List.idxOf?_eq_none_iff.mpr (hnext ⟨hsuffix, hopen⟩)
          simp [getNext, hsuffix, hclose]
        · have hopen := List.idxOf?_eq_none_iff.mpr hopen
          simp [getNext, hsuffix, hopen]
      · simp [getNext, hsuffix]

end searching

section cutting
variable {t u : List Char} {q : List Char}

theorem infix_of_trim (t : List Char) : trim t <:+: t :=
  (List.rdropWhile_prefix isBlank _).isInfix.trans (List.dropWhile_suffix _).isInfix

/-- White space in front of a part does not show. -/
theorem trim_cons_blank (t : List Char) : trim (' ' :: t) = trim t := by
  simp [trim, isBlank]

/-- A text without white space at its ends stays as it is. -/
theorem trim_eq_self {a b : Char} (ha : isBlank a = false) (hb : isBlank b = false)
    (t : List Char) : trim (a :: t ++ [b]) = a :: t ++ [b] := by
  simp [trim, ha, hb]

theorem partsOf_append (t u : List Char) : partsOf (t ++ ',' :: u) = partsOf t ++ partsOf u := by
  simp [partsOf, List.splitOn_append_cons_self]

theorem partsOf_of_notMem (h : ',' ∉ t) : partsOf t = [trim t] := by
  simp [partsOf, List.splitOn_eq_singleton h]

theorem partsOf_cons_blank (t : List Char) : partsOf (' ' :: t) = partsOf t := by
  obtain ⟨q, l, h⟩ := List.exists_cons_of_ne_nil (List.splitOn_ne_nil ',' t)
  simp [partsOf, List.splitOn_cons_eq_if_modifyHead, h, trim_cons_blank]

/-- A part is a piece of the text. -/
theorem infix_of_mem_partsOf (h : q ∈ partsOf t) : q <:+: t := by
  induction hn : t.length using Nat.strong_induction_on generalizing t with
  | h n ih =>
    subst hn
    by_cases hc : ',' ∈ t
    · obtain ⟨a, b, rfl, ha⟩ := List.eq_append_cons_of_mem hc
      rw [partsOf_append, List.mem_append] at h
      obtain h | h := h
      · have := ih a.length (by simp) h rfl
        exact this.trans (List.prefix_append _ _).isInfix
      · have := ih b.length (by simp only [List.length_append, List.length_cons]; omega) h rfl
        exact this.trans ⟨a ++ [','], [], by simp⟩
    · rw [partsOf_of_notMem hc, List.mem_singleton] at h
      exact h ▸ infix_of_trim t

/-- What a trimmed part ends with stands in the text before white space. -/
theorem suffix_of_trim {r : List Char} (h : r <:+ trim t) :
    ∃ w, (∀ c ∈ w, isBlank c) ∧ r ++ w <:+ t := by
  obtain ⟨z, hz⟩ := h
  refine ⟨(t.dropWhile isBlank).rtakeWhile isBlank, fun c hc => List.mem_rtakeWhile_imp hc, ?_⟩
  have hsplit : trim t ++ (t.dropWhile isBlank).rtakeWhile isBlank = t.dropWhile isBlank :=
    List.rdropWhile_append_rtakeWhile
  rw [← hz, List.append_assoc] at hsplit
  exact List.IsSuffix.trans ⟨z, hsplit⟩ (List.dropWhile_suffix _)

end cutting

/-- What the address part and the relation of a link are separated by. -/
def middle : List Char := ['>', ';', ' '] ++ relEquals ++ ['"']

/-- A link as a server lists it, in visible ASCII: the address has no brackets and no white space,
and the relation, which may have spaces, no quotes. -/
structure Link where
  url : List Char
  rel : List Char
  url_visible : ∀ c ∈ url, 32 < c.toNat ∧ c.toNat < 127
  url_unbracketed : '<' ∉ url ∧ '>' ∉ url
  rel_visible : ∀ c ∈ rel, 32 ≤ c.toNat ∧ c.toNat < 127
  rel_unquoted : '"' ∉ rel

/-- `<url>; rel="rel"`. -/
def Link.render (l : Link) : List Char := '<' :: l.url ++ middle ++ l.rel ++ ['"']

/-- The links joined by a comma and a space. -/
def joined (links : List Link) : List Char := [',', ' '].intercalate (links.map Link.render)

/-- The header that lists the links. -/
def linkHeader (links : List Link) : Bytes := (joined links).map fun c => UInt8.ofNat c.toNat

namespace Link
variable {l : Link} {q s x : List Char}

theorem blank_unquoted {w : List Char} (h : ∀ c ∈ w, isBlank c) : '"' ∉ w :=
  fun hq => absurd (h _ hq) (by decide)

/-- Without a closing quote nothing ends like the next link. -/
theorem not_relNext_of_unquoted (hs : '"' ∉ s) : ¬ relNext <:+ trim (x ++ middle ++ s) := by
  intro h
  obtain ⟨w, hw, z, hz⟩ := suffix_of_trim h
  have hquote : (z ++ relEquals ++ '"' :: nextRel) ++ '"' :: w =
      (x ++ ['>', ';', ' '] ++ relEquals) ++ '"' :: s := by
    simpa [relNext, middle] using hz
  have hlast := congrArg List.getLast? (eq_of_last (blank_unquoted hw) hs hquote).1
  simp [relEquals, nextRel] at hlast

/-- What ends like the next link has that relation. -/
theorem rel_of_relNext (h : relNext <:+ trim (x ++ middle ++ l.rel ++ ['"'])) :
    l.rel = nextRel := by
  obtain ⟨w, hw, z, hz⟩ := suffix_of_trim h
  have hclosing : (z ++ relEquals ++ '"' :: nextRel) ++ '"' :: w =
      (x ++ middle ++ l.rel) ++ '"' :: [] := by
    simpa [relNext] using hz
  have hopening : (z ++ relEquals) ++ '"' :: nextRel =
      (x ++ ['>', ';', ' '] ++ relEquals) ++ '"' :: l.rel := by
    simpa [middle] using (eq_of_last (blank_unquoted hw) (by simp) hclosing).1
  exact (eq_of_last (by decide) l.rel_unquoted hopening).2.symm

/-- The part with the closing bracket is the whole or starts after a comma of the address. -/
theorem part_of_render (hs : ',' ∉ s) (hq : q ∈ partsOf ('<' :: l.url ++ middle ++ s))
    (hclose : '>' ∈ q) : ',' ∉ l.url ∧ q = trim ('<' :: l.url ++ middle ++ s) ∨
      ∃ u, '<' ∉ u ∧ q = trim (u ++ middle ++ s) := by
  have hmiddle : ',' ∉ middle := by decide
  by_cases hcomma : ',' ∈ l.url
  · obtain ⟨a, b, hab, hb⟩ := exists_last hcomma
    have hsplit : '<' :: l.url ++ middle ++ s = ('<' :: a) ++ ',' :: (b ++ middle ++ s) := by
      simp [hab]
    have hlast : partsOf (b ++ middle ++ s) = [trim (b ++ middle ++ s)] :=
      partsOf_of_notMem (by simp [hb, hmiddle, hs])
    rw [hsplit, partsOf_append, List.mem_append, hlast] at hq
    obtain hq | hq := hq
    · have hin := (infix_of_mem_partsOf hq).subset hclose
      have hurl := l.url_unbracketed.2
      simp_all
    · refine Or.inr ⟨b, ?_, by simpa using hq⟩
      have hurl := l.url_unbracketed.1
      simp_all
  · rw [partsOf_of_notMem (by simp [hcomma, hmiddle, hs])] at hq
    exact Or.inl ⟨hcomma, by simpa using hq⟩

theorem trim_render : trim l.render = l.render := by
  have := trim_eq_self (a := '<') (b := '"') rfl rfl (l.url ++ middle ++ l.rel)
  simpa [render] using this

/-- Only a whole link is read as the next one: its address has no comma. -/
theorem isNextLink_iff (hq : q ∈ partsOf l.render) :
    isNextLink q ↔ l.rel = nextRel ∧ ',' ∉ l.url ∧ q = l.render := by
  simp only [isNextLink, Bool.and_eq_true, List.contains_iff_mem, List.isSuffixOf_iff_suffix]
  constructor
  · intro h
    obtain ⟨⟨hsuffix, hopen⟩, hclose⟩ := h
    by_cases hcomma : ',' ∈ l.rel
    · obtain ⟨a, b, hab, ha⟩ := List.eq_append_cons_of_mem hcomma
      have hunquoted := l.rel_unquoted
      have hsplit : l.render = ('<' :: l.url ++ middle ++ a) ++ ',' :: (b ++ ['"']) := by
        simp [render, hab]
      rw [hsplit, partsOf_append, List.mem_append] at hq
      obtain hq | hq := hq
      · have ha : '"' ∉ a := by simp_all
        obtain ⟨-, rfl⟩ | ⟨u, -, rfl⟩ := part_of_render ‹_› hq hclose
        · exact absurd hsuffix (not_relNext_of_unquoted ha)
        · exact absurd hsuffix (not_relNext_of_unquoted ha)
      · -- a part of what follows the comma has one quote only
        have hcount := (hsuffix.isInfix.trans (infix_of_mem_partsOf hq)).sublist.count_le '"'
        have hb : '"' ∉ b := by simp_all
        simp [relNext, relEquals, nextRel, List.count_eq_zero.mpr hb] at hcount
    · have hs : ',' ∉ l.rel ++ ['"'] := by simpa using hcomma
      have hq' : q ∈ partsOf ('<' :: l.url ++ middle ++ (l.rel ++ ['"'])) := by
        simpa [render] using hq
      obtain ⟨hurl, rfl⟩ | ⟨u, hu, rfl⟩ := part_of_render hs hq' hclose
      · rw [← List.append_assoc] at hsuffix ⊢
        exact ⟨rel_of_relNext hsuffix, hurl, trim_render⟩
      · rw [← List.append_assoc] at hsuffix
        have hrel := rel_of_relNext hsuffix
        have hin := (infix_of_trim _).subset hopen
        rw [hrel] at hin
        simp [hu, middle, relEquals, nextRel] at hin
  · intro h
    obtain ⟨hrel, -, rfl⟩ := h
    refine ⟨⟨⟨'<' :: l.url ++ ['>', ';', ' '], ?_⟩, ?_⟩, ?_⟩
    · simp [render, hrel, relNext, middle]
    · simp [render]
    · simp [render, middle]

theorem find_render : (partsOf l.render).find? isNextLink =
    if l.rel = nextRel ∧ ',' ∉ l.url then some l.render else none := by
  by_cases h : l.rel = nextRel ∧ ',' ∉ l.url
  · have hcomma : ',' ∉ l.render := by
      simp [render, h.1, h.2, middle, relEquals, nextRel]
    have hmem : l.render ∈ partsOf l.render := by
      rw [partsOf_of_notMem hcomma, trim_render, List.mem_singleton]
    have hnext := (isNextLink_iff hmem).mpr ⟨h.1, h.2, rfl⟩
    rw [if_pos h, partsOf_of_notMem hcomma, trim_render]
    simp [hnext]
  · rw [if_neg h, List.find?_eq_none]
    intro q hq hnext
    exact h ⟨((isNextLink_iff hq).mp hnext).1, ((isNextLink_iff hq).mp hnext).2.1⟩

theorem render_visible (l : Link) {c : Char} (h : c ∈ l.render) : 32 ≤ c.toNat ∧ c.toNat < 127 := by
  have hmiddle : ∀ c ∈ middle, 32 ≤ c.toNat ∧ c.toNat < 127 := by
    simp [middle, relEquals]
  simp only [render, List.cons_append, List.mem_cons, List.mem_append, List.not_mem_nil,
    or_false] at h
  obtain rfl | ((h | h) | h) | rfl := h
  · decide
  · have := l.url_visible c h
    omega
  · exact hmiddle c h
  · exact l.rel_visible c h
  · decide

theorem opensFirst_render (l : Link) : OpensFirst l.render :=
  ⟨[], l.url ++ middle ++ l.rel ++ ['"'], by simp [render], by simp⟩

theorem bracketed_render (l : Link) : bracketed l.render = l.url := by
  have hopen : l.render.idxOf '<' = 0 := by simp [render]
  have hclose : l.render.idxOf '>' = ('<' :: l.url).length := by
    have hsplit : l.render = ('<' :: l.url) ++ '>' :: ([';', ' '] ++ relEquals ++ ['"'] ++ l.rel ++
        ['"']) := by simp [render, middle]
    rw [hsplit, idxOf_append_cons (by simpa using l.url_unbracketed.2)]
  rw [bracketed, hopen, hclose, render]
  simp

end Link

section answers
variable {links : List Link}

theorem toStr_visible {text : List Char} (h : ∀ c ∈ text, 32 ≤ c.toNat ∧ c.toNat < 127) :
    toStr (text.map fun c => UInt8.ofNat c.toNat) = some text := by
  have hbyte : ∀ c ∈ text, (UInt8.ofNat c.toNat).toNat = c.toNat := by
    intro c hc
    have := h c hc
    simp only [UInt8.toNat_ofNat']
    omega
  have hall : (text.map fun c => UInt8.ofNat c.toNat).all isVisibleAscii = true := by
    simp only [List.all_map, List.all_eq_true, Function.comp_apply]
    intro c hc
    have hc' := h c hc
    simp only [isVisibleAscii, Bool.or_eq_true, Bool.and_eq_true, decide_eq_true_eq,
      UInt8.le_iff_toNat_le, UInt8.lt_iff_toNat_lt, hbyte c hc]
    exact Or.inl hc'
  rw [toStr, if_pos hall, List.map_map]
  congr 1
  refine (List.map_congr_left fun c hc => ?_).trans (List.map_id _)
  simp [hbyte c hc]

theorem joined_cons (l : Link) (h : links ≠ []) :
    joined (l :: links) = l.render ++ ',' :: ' ' :: joined links := by
  simp [joined, List.intercalate_cons_of_ne_nil, h]

theorem joined_singleton (l : Link) : joined [l] = l.render := by simp [joined]

theorem joined_visible {c : Char} (h : c ∈ joined links) : 32 ≤ c.toNat ∧ c.toNat < 127 := by
  induction links with
  | nil => simp [joined] at h
  | cons l links ih =>
    by_cases hl : links = []
    · rw [hl, joined_singleton] at h
      exact l.render_visible h
    · rw [joined_cons l hl, List.mem_append, List.mem_cons, List.mem_cons] at h
      obtain h | rfl | rfl | h := h
      · exact l.render_visible h
      · simp
      · simp
      · exact ih h

/-- The first link without a comma in its address is the one that is read. -/
theorem find_joined : (partsOf (joined links)).find? isNextLink =
    (links.find? fun l => l.rel = nextRel ∧ ',' ∉ l.url).map Link.render := by
  induction links with
  | nil => rfl
  | cons l links ih =>
    have hparts : partsOf (joined (l :: links)) = partsOf l.render ++
        if links = [] then [] else partsOf (joined links) := by
      by_cases hl : links = []
      · simp [hl, joined_singleton]
      · rw [joined_cons l hl, partsOf_append, partsOf_cons_blank, if_neg hl]
    have hrest : (if links = [] then [] else partsOf (joined links)).find? isNextLink =
        (links.find? fun l => l.rel = nextRel ∧ ',' ∉ l.url).map Link.render := by
      by_cases hl : links = []
      · simp [hl]
      · rw [if_neg hl, ih]
    rw [hparts, List.find?_append, Link.find_render, hrest]
    by_cases h : l.rel = nextRel ∧ ',' ∉ l.url
    · simp [h]
    · simp [h]

theorem getNext_links : getNextFromLinkHeader (linkHeader links) =
    .returned ((links.find? fun l => l.rel = nextRel ∧ ',' ∉ l.url).map
      fun l => String.ofList l.url) := by
  rw [getNextFromLinkHeader, linkHeader, toStr_visible fun c hc => joined_visible hc]
  have hfind : ((joined links).splitOn ',' |>.map trim).find? isNextLink = _ := find_joined
  simp only [getNext_eq, hfind]
  cases links.find? fun l => l.rel = nextRel ∧ ',' ∉ l.url with
  | none => rfl
  | some l => simp [l.opensFirst_render, l.bracketed_render]

/-- Leaving out the links with a comma does not matter when the next one has none. -/
theorem find_next_iff : ((links.find? fun l => l.rel = nextRel ∧ ',' ∉ l.url).map Link.url =
    (links.find? fun l => l.rel = nextRel).map Link.url) ↔
      ∀ l, links.find? (fun l => l.rel = nextRel) = some l → ',' ∉ l.url := by
  induction links with
  | nil => simp
  | cons l links ih =>
    by_cases hrel : l.rel = nextRel
    · by_cases hcomma : ',' ∈ l.url
      · have hother : (links.find? fun l => l.rel = nextRel ∧ ',' ∉ l.url).map Link.url ≠
            some l.url := by
          intro h
          obtain ⟨found, hfound, hurl⟩ := Option.map_eq_some_iff.mp h
          have := List.find?_some hfound
          simp [hurl, hcomma] at this
        simpa [hrel, hcomma] using hother
      · simp [hrel, hcomma]
    · simpa [hrel] using ih

/-- The address of the next page is found exactly when it has no comma, and the header is read
without a panic exactly when the part that is taken for the next link opens its bracket first. -/
theorem next_link_iff (links : List Link) (hv : Bytes) :
    (getNextFromLinkHeader (linkHeader links) =
      .returned ((links.find? fun l => l.rel = nextRel).map fun l => String.ofList l.url) ↔
        ∀ l, links.find? (fun l => l.rel = nextRel) = some l → ',' ∉ l.url) ∧
    (getNextFromLinkHeader hv ≠ .panicked ↔
      ∀ header part, toStr hv = some header →
        (partsOf header).find? isNextLink = some part → OpensFirst part) := by
  constructor
  · rw [getNext_links, ← find_next_iff]
    have hinj : Function.Injective (Option.map String.ofList) :=
      Option.map_injective fun _ _ h => String.ofList_injective h
    have hmap : ∀ o : Option Link, (o.map fun l => String.ofList l.url) =
        (o.map Link.url).map String.ofList := by simp [Function.comp_def]
    simp only [hmap, Outcome.returned.injEq, hinj.eq_iff]
  · cases htext : toStr hv with
    | none => simp [getNextFromLinkHeader, htext]
    | some header =>
      have hread : getNextFromLinkHeader hv = getNext (header.splitOn ',') := by
        simp [getNextFromLinkHeader, htext]
      rw [hread, getNext_eq]
      constructor
      · intro h header' part heq hfind
        obtain rfl := Option.some.inj heq
        by_contra hnot
        rw [partsOf] at hfind
        rw [hfind] at h
        simp [hnot] at h
      · intro h
        cases hfind : ((header.splitOn ',').map trim).find? isNextLink with
        | none => simp
        | some part => simp [h header part rfl hfind]

/-- The next page of a listing, with a comma in its address. -/
def commaLink : Link where
  url := ['/', '?', 'a', '=', '1', ',', '2']
  rel := nextRel
  url_visible := by simp
  url_unbracketed := by simp
  rel_visible := by simp [nextRel]
  rel_unquoted := by simp [nextRel]

/-- The link is overlooked, and brackets the wrong way round panic. -/
theorem comma_link_overlooked :
    getNextFromLinkHeader (linkHeader [commaLink]) = .returned none ∧
    [commaLink].find? (fun l => l.rel = nextRel) = some commaLink ∧
    getNextFromLinkHeader ((['>', 'a', '<', ';', ' '] ++ relNext).map fun c => UInt8.ofNat c.toNat) =
      .panicked := by
  refine ⟨by decide, rfl, by decide⟩

end answers

end PlaidRuntime.LinkHeader
