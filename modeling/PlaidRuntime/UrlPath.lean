import Mathlib.Data.List.DropRight
import Mathlib.Data.List.Infix

/-!
# The path of an address

What a URL parser makes of the part of an `https` address after its host: the segments of the path
once the dot segments are removed, the query and the fragment.
-/
namespace PlaidRuntime.UrlPath

structure Url where
  path : List (List Char)
  query : Option (List Char)
  fragment : Option (List Char)
  deriving DecidableEq, Repr

section encoding

def percentEncodeByte (b : UInt8) : List Char :=
  ['%', (Nat.digitChar (b.toNat / 16)).toUpper, (Nat.digitChar (b.toNat % 16)).toUpper]

/-- The characters that are encoded, for each part of an address. -/
abbrev PercentEncodeSet : Type := Char → Bool

def c0Control : PercentEncodeSet := fun c => c.toNat < 0x20 || 0x7e < c.toNat

def fragmentSet : PercentEncodeSet := fun c =>
  c0Control c || c = ' ' || c = '"' || c = '<' || c = '>' || c = '\x60'

def querySet : PercentEncodeSet := fun c =>
  c0Control c || c = ' ' || c = '"' || c = '#' || c = '<' || c = '>'

def specialQuerySet : PercentEncodeSet := fun c => querySet c || c = '\''

def pathSet : PercentEncodeSet := fun c =>
  querySet c || c = '?' || c = '^' || c = '\x60' || c = '\x7b' || c = '\x7d'

def percentEncodeChar (set : PercentEncodeSet) (c : Char) : List Char :=
  if set c then (String.utf8EncodeChar c).flatMap percentEncodeByte else [c]

def percentEncode (set : PercentEncodeSet) (text : List Char) : List Char :=
  text.flatMap (percentEncodeChar set)

end encoding

section parser

/-- Backslashes separate, too, as the scheme is a special one. -/
def isSeparator (c : Char) : Bool := c = '/' || c = '\\'

def isTabOrNewline (c : Char) : Bool := c = '\t' || c = '\n' || c = '\r'

def isC0ControlOrSpace (c : Char) : Bool := decide (c.toNat ≤ 0x20)

def isSingleDot (segment : List Char) : Bool :=
  decide (segment.map Char.toLower ∈ [['.'], ['%', '2', 'e']])

def isDoubleDot (segment : List Char) : Bool :=
  decide (segment.map Char.toLower ∈
    [['.', '.'], ['.', '%', '2', 'e'], ['%', '2', 'e', '.'], ['%', '2', 'e', '%', '2', 'e']])

/-- The end of a segment, at a separator or at the end of the path. -/
def endSegment (path : List (List Char)) (buffer : List Char) (separator : Bool) :
    List (List Char) :=
  if isDoubleDot buffer then
    if separator then path.dropLast else path.dropLast ++ [[]]
  else if isSingleDot buffer then
    if separator then path else path ++ [[]]
  else path ++ [percentEncode pathSet buffer]

def fragmentState (path : List (List Char)) (query : Option (List Char)) (cs : List Char) : Url :=
  ⟨path, query, some (percentEncode fragmentSet cs)⟩

def queryState (path : List (List Char)) (buffer : List Char) : List Char → Url
  | [] => ⟨path, some (percentEncode specialQuerySet buffer), none⟩
  | c :: cs =>
    if c = '#' then fragmentState path (some (percentEncode specialQuerySet buffer)) cs
    else queryState path (buffer ++ [c]) cs

def pathState (path : List (List Char)) (buffer : List Char) : List Char → Url
  | [] => ⟨endSegment path buffer false, none, none⟩
  | c :: cs =>
    if isSeparator c then pathState (endSegment path buffer true) [] cs
    else if c = '?' then queryState (endSegment path buffer false) [] cs
    else if c = '#' then fragmentState (endSegment path buffer false) none cs
    else pathState path (buffer ++ [c]) cs

def trimEnd (input : List Char) : List Char := input.rdropWhile isC0ControlOrSpace

def removeTabs (input : List Char) : List Char := input.filter fun c => !isTabOrNewline c

/-- The text starts with a slash. -/
def parse (input : List Char) : Url :=
  pathState [] [] (removeTabs (trimEnd (input.dropWhile isC0ControlOrSpace))).tail

end parser

section encoded
variable {set : PercentEncodeSet} {c d : Char} {text : List Char}

theorem percentEncodeByte_chars (b : UInt8) :
    '%' ∈ percentEncodeByte b ∧ ∀ c ∈ percentEncodeByte b, isSeparator c = false := by
  have hdigit : ∀ n < 16, isSeparator (Nat.digitChar n).toUpper = false := by decide
  have hb : b.toNat < 256 := b.toNat_lt
  refine ⟨List.mem_cons_self, fun c hc => ?_⟩
  simp only [percentEncodeByte, List.mem_cons, List.not_mem_nil, or_false] at hc
  rcases hc with rfl | rfl | rfl
  · decide
  · exact hdigit _ (by omega)
  · exact hdigit _ (Nat.mod_lt _ (by decide))

theorem percentEncodeChar_separator (h : isSeparator c = false) (hd : d ∈ percentEncodeChar set c) :
    isSeparator d = false := by
  unfold percentEncodeChar at hd
  split_ifs at hd
  · obtain ⟨b, -, hb⟩ := List.mem_flatMap.mp hd
    exact (percentEncodeByte_chars b).2 d hb
  · exact List.mem_singleton.mp hd ▸ h

theorem percentEncodeChar_length (set : PercentEncodeSet) (c : Char) :
    0 < (percentEncodeChar set c).length := by
  unfold percentEncodeChar
  split_ifs
  · obtain ⟨b, bs, hb⟩ := List.exists_cons_of_ne_nil (@String.utf8EncodeChar_ne_nil c)
    simp [hb, percentEncodeByte]
  · simp

/-- What is encoded has a percent sign. -/
theorem percentEncode_eq_self (h : '%' ∉ percentEncode set text) :
    percentEncode set text = text := by
  induction text with
  | nil => rfl
  | cons c text ih =>
    rw [percentEncode, List.flatMap_cons, List.mem_append, not_or] at h
    have hc : percentEncodeChar set c = [c] := by
      unfold percentEncodeChar at h ⊢
      split_ifs at h ⊢
      · obtain ⟨b, bs, hb⟩ := List.exists_cons_of_ne_nil (@String.utf8EncodeChar_ne_nil c)
        refine absurd ?_ h.1
        rw [hb, List.flatMap_cons]
        exact List.mem_append_left _ (percentEncodeByte_chars b).1
      · rfl
    rw [percentEncode, List.flatMap_cons, hc, ← percentEncode, ih h.2, List.singleton_append]

theorem percentEncode_of_plain (h : ∀ c ∈ text, set c = false) : percentEncode set text = text := by
  induction text with
  | nil => rfl
  | cons c text ih =>
    rw [List.forall_mem_cons] at h
    rw [percentEncode, List.flatMap_cons, ← percentEncode, ih h.2, percentEncodeChar, h.1]
    rfl

theorem length_le_percentEncode (set : PercentEncodeSet) (text : List Char) :
    text.length ≤ (percentEncode set text).length := by
  induction text with
  | nil => exact Nat.le_refl _
  | cons c text ih =>
    have hc := percentEncodeChar_length set c
    rw [percentEncode, List.flatMap_cons, ← percentEncode, List.length_append, List.length_cons]
    omega

end encoded

section states
variable {path : List (List Char)} {buffer a cs : List Char} {query : Option (List Char)}

def pieces (text : List Char) : List (List Char) := text.splitOnP isSeparator

/-- The segments of a path one after the other, each ended by a separator but the last. -/
def walk (path : List (List Char)) : List (List Char) → List (List Char)
  | [] => path
  | [segment] => endSegment path segment false
  | segment :: next :: segments => walk (endSegment path segment true) (next :: segments)

theorem walk_cons {segment : List Char} {segments : List (List Char)} (h : segments ≠ []) :
    walk path (segment :: segments) = walk (endSegment path segment true) segments := by
  obtain ⟨next, rest, rfl⟩ := List.exists_cons_of_ne_nil h
  rfl

theorem pieces_ne_nil (text : List Char) : pieces text ≠ [] := List.splitOnP_ne_nil _ _

theorem pieces_append {c : Char} (hbuffer : ∀ d ∈ buffer, isSeparator d = false)
    (hc : isSeparator c = true) : pieces (buffer ++ c :: cs) = buffer :: pieces cs :=
  List.splitOnP_append_cons_of_forall_mem hbuffer c hc cs

/-- A text without a query and a fragment is a path of its pieces. -/
theorem pathState_plain (hquery : '?' ∉ cs) (hfragment : '#' ∉ cs)
    (hbuffer : ∀ c ∈ buffer, isSeparator c = false) :
    pathState path buffer cs = ⟨walk path (pieces (buffer ++ cs)), none, none⟩ := by
  induction cs generalizing path buffer with
  | nil =>
    rw [pathState, List.append_nil, pieces, List.splitOnP_eq_singleton hbuffer]
    rfl
  | cons c cs ih =>
    simp only [List.mem_cons, not_or] at hquery hfragment
    rw [pathState]
    split_ifs with hsep hc hc
    · rw [ih hquery.2 hfragment.2 (by simp), pieces_append hbuffer hsep,
        walk_cons (pieces_ne_nil cs), List.nil_append]
    · exact absurd hc.symm hquery.1
    · exact absurd hc.symm hfragment.1
    · have hbuffer' : ∀ d ∈ buffer ++ [c], isSeparator d = false := by
        intro d hd
        rcases List.mem_append.mp hd with hd | hd
        · exact hbuffer d hd
        · exact List.mem_singleton.mp hd ▸ Bool.eq_false_iff.mpr hsep
      rw [ih hquery.2 hfragment.2 hbuffer', List.append_assoc, List.singleton_append]

theorem queryState_fragment (h : '#' ∈ cs) : (queryState path buffer cs).fragment ≠ none := by
  induction cs generalizing buffer with
  | nil => cases h
  | cons c cs ih =>
    rw [queryState]
    split_ifs with hc
    · simp [fragmentState]
    · exact ih ((List.mem_cons.mp h).resolve_left (Ne.symm hc))

/-- A number sign is the start of a fragment, wherever it stands. -/
theorem pathState_fragment (h : '#' ∈ cs) : (pathState path buffer cs).fragment ≠ none := by
  induction cs generalizing path buffer with
  | nil => cases h
  | cons c cs ih =>
    rw [pathState]
    split_ifs with hsep hquery hc
    · exact ih ((List.mem_cons.mp h).resolve_left fun hc => absurd hsep (by simp [← hc, isSeparator]))
    · exact queryState_fragment ((List.mem_cons.mp h).resolve_left fun hc => by simp [← hc] at hquery)
    · simp [fragmentState]
    · exact ih ((List.mem_cons.mp h).resolve_left (Ne.symm hc))

theorem queryState_plain (h : '#' ∉ cs) : queryState path buffer cs =
    ⟨path, some (percentEncode specialQuerySet (buffer ++ cs)), none⟩ := by
  induction cs generalizing buffer with
  | nil => simp [queryState]
  | cons c cs ih =>
    rw [List.mem_cons, not_or] at h
    rw [queryState, if_neg (Ne.symm h.1), ih h.2, List.append_assoc, List.singleton_append]

/-- The first question mark starts the query. -/
theorem pathState_query (ha : '?' ∉ a) (ha' : '#' ∉ a) (hcs : '#' ∉ cs) :
    pathState path buffer (a ++ '?' :: cs) =
      ⟨(pathState path buffer a).path, some (percentEncode specialQuerySet cs), none⟩ := by
  induction a generalizing path buffer with
  | nil =>
    rw [List.nil_append, pathState, pathState, if_neg (by decide), if_pos rfl, queryState_plain hcs,
      List.nil_append]
  | cons c a ih =>
    simp only [List.mem_cons, not_or] at ha ha'
    rw [List.cons_append, pathState, pathState, if_neg (Ne.symm ha.1), if_neg (Ne.symm ha'.1),
      if_neg (Ne.symm ha.1), if_neg (Ne.symm ha'.1)]
    split_ifs
    · exact ih ha.2 ha'.2
    · exact ih ha.2 ha'.2

end states

section segments
variable {path : List (List Char)} {buffer cs : List Char} {separator : Bool}

/-- No dot segment is left in a path, and no separator in a segment. -/
structure Normal (segment : List Char) : Prop where
  separator : ∀ c ∈ segment, isSeparator c = false
  notDot : segment ≠ ['.']
  notDots : segment ≠ ['.', '.']

theorem normal_nil : Normal [] := ⟨by simp, by simp, by simp⟩

theorem endSegment_normal (hpath : ∀ s ∈ path, Normal s)
    (hbuffer : ∀ c ∈ buffer, isSeparator c = false) :
    ∀ s ∈ endSegment path buffer separator, Normal s := by
  have hdrop : ∀ s ∈ path.dropLast, Normal s := fun s hs => hpath s (List.mem_of_mem_dropLast hs)
  have hnil : ∀ (l : List (List Char)), (∀ s ∈ l, Normal s) → ∀ s ∈ l ++ [[]], Normal s := by
    intro l hl s hs
    rcases List.mem_append.mp hs with hs | hs
    · exact hl s hs
    · exact List.mem_singleton.mp hs ▸ normal_nil
  unfold endSegment
  split_ifs with hdouble _ hsingle
  · exact hdrop
  · exact hnil _ hdrop
  · exact hpath
  · exact hnil _ hpath
  · intro s hs
    rcases List.mem_append.mp hs with hs | hs
    · exact hpath s hs
    · obtain rfl := List.mem_singleton.mp hs
      refine ⟨fun c hc => ?_, fun h => ?_, fun h => ?_⟩
      · obtain ⟨d, hd, hc⟩ := List.mem_flatMap.mp hc
        exact percentEncodeChar_separator (hbuffer d hd) hc
      · rw [percentEncode_eq_self (by simp [h])] at h
        exact hsingle (by rw [h]; decide)
      · rw [percentEncode_eq_self (by simp [h])] at h
        exact hdouble (by rw [h]; decide)

theorem queryState_path : (queryState path buffer cs).path = path := by
  induction cs generalizing buffer with
  | nil => rfl
  | cons c cs ih =>
    rw [queryState]
    split_ifs
    · rfl
    · exact ih

theorem pathState_normal (hpath : ∀ s ∈ path, Normal s)
    (hbuffer : ∀ c ∈ buffer, isSeparator c = false) :
    ∀ s ∈ (pathState path buffer cs).path, Normal s := by
  induction cs generalizing path buffer with
  | nil => exact endSegment_normal hpath hbuffer
  | cons c cs ih =>
    rw [pathState]
    split_ifs with hsep hquery hfragment
    · exact ih (endSegment_normal hpath hbuffer) (by simp)
    · rw [queryState_path]
      exact endSegment_normal hpath hbuffer
    · exact endSegment_normal hpath hbuffer
    · refine ih hpath fun d hd => ?_
      rcases List.mem_append.mp hd with hd | hd
      · exact hbuffer d hd
      · exact List.mem_singleton.mp hd ▸ Bool.eq_false_iff.mpr hsep

theorem parse_normal (input : List Char) : ∀ s ∈ (parse input).path, Normal s :=
  pathState_normal (by simp) (by simp)

end segments

section plain
variable {path : List (List Char)} {segment a b cs : List Char} {c : Char}

theorem trimEnd_append_cons (hc : isC0ControlOrSpace c = false) :
    trimEnd (a ++ c :: b) = a ++ c :: trimEnd b := by
  induction b using List.reverseRecOn with
  | nil =>
    rw [trimEnd, List.rdropWhile_concat_neg _ _ _ (by simp [hc])]
    rfl
  | append_singleton b d ih =>
    have hassoc : a ++ c :: (b ++ [d]) = a ++ c :: b ++ [d] := by simp
    rw [hassoc, trimEnd, trimEnd]
    by_cases hd : isC0ControlOrSpace d = true
    · rw [List.rdropWhile_concat_pos _ _ _ hd, List.rdropWhile_concat_pos _ _ _ hd]
      exact ih
    · rw [List.rdropWhile_concat_neg _ _ _ hd, List.rdropWhile_concat_neg _ _ _ hd, hassoc]

theorem trimEnd_eq_self (h : ∀ c ∈ a, isC0ControlOrSpace c = false) : trimEnd a = a :=
  List.rdropWhile_eq_self_iff.mpr fun hne => by simp [h _ (List.getLast_mem hne)]

theorem mem_trimEnd (hc : isC0ControlOrSpace c = false) : c ∈ trimEnd a ↔ c ∈ a := by
  constructor
  · exact fun h => (List.rdropWhile_prefix _ a).subset h
  · intro h
    obtain ⟨l, m, rfl⟩ := List.append_of_mem h
    rw [trimEnd_append_cons hc]
    simp

theorem mem_removeTabs (hc : isTabOrNewline c = false) : c ∈ removeTabs a ↔ c ∈ a := by
  simp [removeTabs, List.mem_filter, hc]

theorem removeTabs_eq_self (h : ∀ c ∈ a, isTabOrNewline c = false) : removeTabs a = a :=
  List.filter_eq_self.mpr fun c hc => by simp [h c hc]

theorem parse_slash : parse ('/' :: cs) = pathState [] [] (removeTabs (trimEnd cs)) := by
  have htrim : trimEnd ('/' :: cs) = '/' :: trimEnd cs :=
    trimEnd_append_cons (a := []) (by decide)
  have hslash : isTabOrNewline '/' = false := by decide
  rw [parse, List.dropWhile_cons_of_neg (by decide), htrim, removeTabs,
    List.filter_cons_of_pos (by simp [hslash])]
  rfl

/-- What is no small letter is the same in lower case only if it is the character itself. -/
theorem toLower_eq {d : Char} (hd : d.toNat < 65) : c.toLower = d ↔ c = d := by
  unfold Char.toLower
  split
  · rename_i hupper
    have hlow : 65 ≤ c.toNat := hupper.1
    have hhigh : c.toNat ≤ 90 := hupper.2
    constructor
    · rintro rfl
      have hlower : (c.val + ('a'.val - 'A'.val)).toNat = c.toNat + 32 := by
        rw [UInt32.toNat_add]
        exact Nat.mod_eq_of_lt (by
          have h32 : ('a'.val - 'A'.val).toNat = 32 := rfl
          have hval : c.val.toNat = c.toNat := rfl
          omega)
      have hd' : (c.val + ('a'.val - 'A'.val)).toNat < 65 := hd
      omega
    · rintro rfl
      omega
  · rfl

theorem mem_map_toLower {d : Char} (hd : d.toNat < 65) :
    d ∈ segment.map Char.toLower ↔ d ∈ segment := by
  simp [toLower_eq hd]

/-- Without a percent sign the dot segments are written out. -/
theorem isSingleDot_iff (h : '%' ∉ segment) : isSingleDot segment = true ↔ segment = ['.'] := by
  rw [← mem_map_toLower (by decide)] at h
  have hdot : segment.map Char.toLower = ['.'] ↔ segment = ['.'] := by
    simp [List.map_eq_cons_iff, toLower_eq]
  rw [isSingleDot, decide_eq_true_iff, ← hdot]
  constructor
  · intro hm
    simp only [List.mem_cons, List.not_mem_nil, or_false] at hm
    exact hm.resolve_right fun he => h (by simp [he])
  · intro he
    simp [he]

theorem isDoubleDot_iff (h : '%' ∉ segment) :
    isDoubleDot segment = true ↔ segment = ['.', '.'] := by
  rw [← mem_map_toLower (by decide)] at h
  have hdots : segment.map Char.toLower = ['.', '.'] ↔ segment = ['.', '.'] := by
    simp [List.map_eq_cons_iff, toLower_eq]
  rw [isDoubleDot, decide_eq_true_iff, ← hdots]
  constructor
  · intro hm
    simp only [List.mem_cons, List.not_mem_nil, or_false] at hm
    exact hm.resolve_right fun he => h (by rcases he with he | he | he <;> simp [he])
  · intro he
    simp [he]

theorem endSegment_plain (h : '%' ∉ segment) (hdot : segment ≠ ['.']) (hdots : segment ≠ ['.', '.'])
    (separator : Bool) :
    endSegment path segment separator = path ++ [percentEncode pathSet segment] := by
  rw [endSegment, if_neg (mt (isDoubleDot_iff h).mp hdots), if_neg (mt (isSingleDot_iff h).mp hdot)]

end plain

section climbing
variable {base path : List (List Char)} {buffer : List Char}

/-- Where a path leads from the place it starts at: so many segments up, and then down again. -/
structure Route where
  up : ℕ
  down : List (List Char)

namespace Route

/-- The segments that are reached from `base`. -/
def follow (r : Route) (base : List (List Char)) : List (List Char) :=
  base.take (base.length - r.up) ++ r.down

def parent (r : Route) : Route :=
  if r.down = [] then ⟨r.up + 1, []⟩ else ⟨r.up, r.down.dropLast⟩

def child (r : Route) (segment : List Char) : Route := ⟨r.up, r.down ++ [segment]⟩

def endSegment (r : Route) (buffer : List Char) (separator : Bool) : Route :=
  if isDoubleDot buffer then
    if separator then r.parent else r.parent.child []
  else if isSingleDot buffer then
    if separator then r else r.child []
  else r.child (percentEncode pathSet buffer)

def walk (r : Route) : List (List Char) → Route
  | [] => r
  | [segment] => r.endSegment segment false
  | segment :: next :: segments => walk (r.endSegment segment true) (next :: segments)

/-- The route goes on below `base`: it enters again whatever it has left. -/
def Within (r : Route) (base : List (List Char)) : Prop :=
  ∃ rest, rest ≠ [] ∧ r.down = base.drop (base.length - r.up) ++ rest

variable (r : Route)

theorem follow_parent : r.parent.follow base = (r.follow base).dropLast := by
  unfold parent follow
  split_ifs with h
  · have hup : base.length - (r.up + 1) =
        min (min (base.length - r.up) base.length - 1) (base.length - r.up) := by omega
    rw [h, List.append_nil, List.append_nil, List.dropLast_eq_take, List.take_take,
      List.length_take, hup]
  · rw [List.dropLast_append_of_ne_nil h]

theorem follow_child (segment : List Char) :
    (r.child segment).follow base = r.follow base ++ [segment] :=
  (List.append_assoc _ _ _).symm

theorem follow_endSegment (separator : Bool) : (r.endSegment buffer separator).follow base =
    UrlPath.endSegment (r.follow base) buffer separator := by
  unfold endSegment UrlPath.endSegment
  split_ifs <;> simp only [follow_child, follow_parent]

/-- Dot segments take one from a path what they take from a route. -/
theorem follow_walk (segments : List (List Char)) :
    (r.walk segments).follow base = UrlPath.walk (r.follow base) segments := by
  induction segments generalizing r with
  | nil => rfl
  | cons segment segments ih =>
    cases segments with
    | nil => exact r.follow_endSegment false
    | cons next segments => rw [walk, ih, follow_endSegment, UrlPath.walk]

theorem within_iff : (∃ rest, rest ≠ [] ∧ r.follow base = base ++ rest) ↔ r.Within base := by
  have hbase : ∀ rest, r.follow base = base ++ rest ↔
      r.down = base.drop (base.length - r.up) ++ rest := by
    intro rest
    have hsplit : base ++ rest =
        base.take (base.length - r.up) ++ (base.drop (base.length - r.up) ++ rest) := by
      rw [← List.append_assoc, List.take_append_drop]
    rw [hsplit, follow, List.append_right_inj]
  simp only [Within, hbase]

end Route

/-- The way of a text relative to where it starts. -/
def route (text : List Char) : Route := Route.walk ⟨0, []⟩ (pieces text)

theorem route_follow (base : List (List Char)) (text : List Char) :
    (route text).follow base = walk base (pieces text) := by
  rw [route, Route.follow_walk]
  simp [Route.follow]

end climbing
end PlaidRuntime.UrlPath
