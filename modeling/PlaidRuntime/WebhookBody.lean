import PlaidRuntime.GuestMemory
import PlaidRuntime.StepMachine

/-!
# The body of a webhook

`read_body_with_limit` of `bin/plaid.rs`. The items of the stream are kept as they come as long as
the limit allows; when there are no more they are copied, chunk by chunk, into one text.
-/
namespace PlaidRuntime.WebhookBody
open GuestMemory MachineWord StepMachine

/-- `bytes::Buf` and its contract: `content` is what is left to read, of which `chunk` gives a
beginning. -/
class Buf (B : Type) where
  remaining : B → ℕ
  chunk : B → Bytes
  advance : B → ℕ → B
  content : B → Bytes
  remaining_eq : ∀ b, remaining b = (content b).length
  chunk_of_content : ∀ b, chunk b <+: content b
  chunk_ne_nil : ∀ b, 0 < remaining b → chunk b ≠ []
  content_advance : ∀ b n, n ≤ remaining b → content (advance b n) = (content b).drop n

open Buf

/-- What the stream gives: a buffer or the text of an error. -/
abbrev Item (B : Type) : Type := Except String B

/-- Where the function stands; `unread` is what the stream has not been asked for. -/
inductive State (B : Type) where
  | reading (buffers : List B) (totalBytesCount : ℕ) (unread : List (Item B))
  | copying (buffers : List B) (fullBody : Bytes)
  | returned (r : Except String Bytes) (unread : List (Item B))

def exceeded (maxSize : ℕ) : String := s!"Body exceeded maximum allowed size of {maxSize} bytes"

def readError (e : String) : String := s!"Error reading body: {e}"

variable {B : Type} [Buf B]

/-- One round of a loop of `read_body_with_limit`, or the way from one loop to the next. -/
def step (maxSize : ℕ) : State B → Option (State B)
  | .reading buffers totalBytesCount (.ok buf :: unread) =>
    if maxSize < addU64 (remaining buf) totalBytesCount then
      some (.returned (.error (exceeded maxSize)) unread)
    else some (.reading (buffers ++ [buf]) (addU64 totalBytesCount (remaining buf)) unread)
  | .reading _ _ (.error e :: unread) => some (.returned (.error (readError e)) unread)
  | .reading buffers _ [] => some (.copying buffers [])
  | .copying (buffer :: buffers) fullBody =>
    if 0 < remaining buffer then
      let chunk := chunk buffer
      some (.copying (advance buffer chunk.length :: buffers) (fullBody ++ chunk))
    else some (.copying buffers fullBody)
  | .copying [] fullBody => some (.returned (.ok fullBody) [])
  | .returned _ _ => none

def start (items : List (Item B)) : State B := .reading [] 0 items

/-- The bytes in some buffers. -/
def size (buffers : List B) : ℕ := (buffers.map remaining).sum

def contents (buffers : List B) : Bytes := buffers.flatMap content

/-- The bytes of the body that are kept, each counted once: still to be copied or copied. Neither
the item in hand, before it is compared with the limit, nor the chunk being copied is counted. -/
def State.held : State B → ℕ
  | .reading buffers _ _ => size buffers
  | .copying buffers fullBody => size buffers + fullBody.length
  | .returned (.ok fullBody) _ => fullBody.length
  | .returned (.error _) _ => 0

/-- What the stream has not been asked for. -/
def State.unread : State B → List (Item B)
  | .reading _ _ unread => unread
  | .copying _ _ => []
  | .returned _ unread => unread

def Returns (maxSize : ℕ) (items : List (Item B)) (r : Except String Bytes) : Prop :=
  ∃ unread, Reaches (step maxSize) (start items) (.returned r unread)

/-- The buffers among some items. -/
def buffersOf {B : Type} (items : List (Item B)) : List B := items.filterMap Except.toOption

/-- After the items `before` this one is an error or exceeds the limit. -/
def Stops (maxSize : ℕ) (before : List (Item B)) : Item B → Prop
  | .ok buf => maxSize < size (buffersOf before) + remaining buf
  | .error _ => True

/-- The sums of the sizes that are compared with the limit can be computed. -/
def SumsFit (maxSize : ℕ) (items : List (Item B)) : Prop :=
  ∀ before buf after, items = before ++ .ok buf :: after → size (buffersOf before) ≤ maxSize →
    size (buffersOf before) + remaining buf < 2 ^ 64

/-- How a body is read within a limit. -/
structure ReadWithin (maxSize : ℕ) (items : List (Item B)) : Prop where
  returns : ∃ r, Returns maxSize items r
  whole : ∀ b, Returns maxSize items (.ok b) ↔
    (∀ item ∈ items, item.isOk) ∧ size (buffersOf items) ≤ maxSize ∧ b = contents (buffersOf items)
  held_le : ∀ s, Reaches (step maxSize) (start items) s → s.held ≤ maxSize
  unread_after : ∀ before item after, items = before ++ item :: after → Stops maxSize before item →
    ∀ s, Reaches (step maxSize) (start items) s → after <:+ s.unread

section kept
variable {B : Type} {b : B} {items : List (Item B)}

@[simp] theorem buffersOf_cons_ok : buffersOf (.ok b :: items) = b :: buffersOf items := rfl

@[simp] theorem buffersOf_cons_error (e : String) : buffersOf (.error e :: items) = buffersOf items :=
  rfl

@[simp] theorem buffersOf_append (items' : List (Item B)) :
    buffersOf (items ++ items') = buffersOf items ++ buffersOf items' := List.filterMap_append

@[simp] theorem buffersOf_map_ok (buffers : List B) : buffersOf (buffers.map .ok) = buffers := by
  induction buffers with
  | nil => rfl
  | cons b buffers ih => rw [List.map_cons, buffersOf_cons_ok, ih]

end kept

section sizes
variable {buffers : List B} {b : B}

@[simp] theorem size_nil : size ([] : List B) = 0 := rfl

@[simp] theorem size_cons : size (b :: buffers) = remaining b + size buffers := by simp [size]

@[simp] theorem size_append (buffers' : List B) :
    size (buffers ++ buffers') = size buffers + size buffers' := by simp [size]

@[simp] theorem contents_cons : contents (b :: buffers) = content b ++ contents buffers := rfl

theorem length_contents (buffers : List B) : (contents buffers).length = size buffers := by
  induction buffers with
  | nil => rfl
  | cons b buffers ih => rw [contents_cons, List.length_append, ih, size_cons, remaining_eq]

theorem chunk_length_le (b : B) : (chunk b).length ≤ remaining b := by
  rw [remaining_eq]
  exact (chunk_of_content b).length_le

/-- What a chunk takes is what `advance` drops. -/
theorem chunk_append_content (b : B) : chunk b ++ content (advance b (chunk b).length) = content b := by
  obtain ⟨t, ht⟩ := chunk_of_content b
  rw [content_advance b _ (chunk_length_le b), ← ht, List.drop_left]

theorem remaining_advance (b : B) :
    (chunk b).length + remaining (advance b (chunk b).length) = remaining b := by
  rw [remaining_eq (advance b _), ← List.length_append, chunk_append_content, remaining_eq]

end sizes

/-! Every round gets smaller. -/
section termination

/-- A round for each buffer and each of its bytes. -/
def copyRounds (buffers : List B) : ℕ := size buffers + buffers.length

def readRounds (unread : List (Item B)) : ℕ := copyRounds (buffersOf unread) + unread.length

def State.rounds : State B → ℕ
  | .reading buffers _ unread => copyRounds buffers + readRounds unread + 2
  | .copying buffers _ => copyRounds buffers + 1
  | .returned _ _ => 0

theorem rounds_lt {maxSize : ℕ} (s t : State B) (h : step maxSize s = some t) :
    t.rounds < s.rounds := by
  cases s with
  | reading buffers totalBytesCount unread =>
    cases unread with
    | nil =>
      cases h
      simp only [State.rounds, readRounds]
      omega
    | cons item unread =>
      cases item with
      | error e =>
        cases h
        simp only [State.rounds]
        omega
      | ok buf =>
        simp only [step] at h
        split_ifs at h
        · cases h
          simp only [State.rounds]
          omega
        · cases h
          simp only [State.rounds, readRounds, copyRounds, buffersOf_cons_ok, size_append, size_cons,
            size_nil, List.length_append, List.length_cons, List.length_nil]
          omega
  | copying buffers fullBody =>
    cases buffers with
    | nil =>
      cases h
      simp [State.rounds]
    | cons buffer buffers =>
      simp only [step] at h
      split_ifs at h with hpos
      · cases h
        have hchunk := List.length_pos_iff.mpr (chunk_ne_nil buffer hpos)
        have hadvance := remaining_advance buffer
        simp only [State.rounds, copyRounds, size_cons, List.length_cons]
        omega
      · cases h
        simp only [State.rounds, copyRounds, size_cons, List.length_cons]
        omega
  | returned r unread => cases h

theorem step_eq_none {maxSize : ℕ} {s : State B} (h : step maxSize s = none) :
    ∃ r unread, s = .returned r unread := by
  cases s with
  | reading buffers totalBytesCount unread =>
    cases unread with
    | nil => cases h
    | cons item unread =>
      cases item with
      | error e => cases h
      | ok buf =>
        simp only [step] at h
        split_ifs at h
  | copying buffers fullBody =>
    cases buffers with
    | nil => cases h
    | cons buffer buffers =>
      simp only [step] at h
      split_ifs at h
  | returned r unread => exact ⟨r, unread, rfl⟩

end termination

/-- A body that can be addressed has no sum that is too large. -/
theorem sumsFit_of_size {maxSize : ℕ} {items : List (Item B)} (h : size (buffersOf items) < 2 ^ 64) :
    SumsFit maxSize items := by
  rintro before buf after rfl -
  rw [buffersOf_append, buffersOf_cons_ok, size_append, size_cons] at h
  omega

section invariant
variable {maxSize : ℕ} {items : List (Item B)} {s t : State B}

/-- What was read so far, in order, and within the limit. -/
def Invariant (maxSize : ℕ) (items : List (Item B)) : State B → Prop
  | .reading buffers totalBytesCount unread =>
    items = buffers.map .ok ++ unread ∧ totalBytesCount = size buffers ∧ size buffers ≤ maxSize
  | .copying buffers fullBody =>
    ∃ all, items = all.map .ok ∧ size all ≤ maxSize ∧ fullBody ++ contents buffers = contents all
  | .returned (.ok fullBody) unread =>
    unread = [] ∧ ∃ all, items = all.map .ok ∧ size all ≤ maxSize ∧ fullBody = contents all
  | .returned (.error _) unread =>
    ∃ buffers item, items = buffers.map .ok ++ item :: unread ∧ size buffers ≤ maxSize ∧
      Stops maxSize (buffers.map .ok) item

theorem invariant_step (hfit : SumsFit maxSize items) (h : Invariant maxSize items s)
    (hs : step maxSize s = some t) : Invariant maxSize items t := by
  cases s with
  | reading buffers totalBytesCount unread =>
    obtain ⟨hitems, rfl, hle⟩ := h
    cases unread with
    | nil =>
      cases hs
      exact ⟨buffers, by rw [hitems, List.append_nil], hle, rfl⟩
    | cons item unread =>
      cases item with
      | error e =>
        cases hs
        exact ⟨buffers, .error e, hitems, hle, trivial⟩
      | ok buf =>
        have hsum := hfit _ buf unread hitems (by rwa [buffersOf_map_ok])
        rw [buffersOf_map_ok] at hsum
        simp only [step, addU64_of_lt hsum, addU64_of_lt (Nat.add_comm _ _ ▸ hsum)] at hs
        split_ifs at hs with hexceeds
        · cases hs
          refine ⟨buffers, .ok buf, hitems, hle, ?_⟩
          rwa [Stops, buffersOf_map_ok, Nat.add_comm]
        · cases hs
          refine ⟨by simp [hitems], by simp, ?_⟩
          rw [size_append, size_cons, size_nil]
          omega
  | copying buffers fullBody =>
    obtain ⟨all, hitems, hle, hcontents⟩ := h
    cases buffers with
    | nil =>
      cases hs
      exact ⟨rfl, all, hitems, hle, by simpa [contents] using hcontents⟩
    | cons buffer buffers =>
      rw [contents_cons] at hcontents
      simp only [step] at hs
      split_ifs at hs with hpos
      · cases hs
        refine ⟨all, hitems, hle, ?_⟩
        rw [← hcontents, contents_cons, ← chunk_append_content buffer]
        simp only [List.append_assoc]
      · cases hs
        have hempty : content buffer = [] := by
          rw [remaining_eq] at hpos
          exact List.eq_nil_of_length_eq_zero (by omega)
        exact ⟨all, hitems, hle, by rw [← hcontents, hempty, List.nil_append]⟩
  | returned r unread => cases hs

theorem invariant_reaches (hfit : SumsFit maxSize items)
    (hs : Reaches (step maxSize) (start items) s) : Invariant maxSize items s :=
  have hstart : Invariant maxSize items (start items) := ⟨rfl, rfl, Nat.zero_le _⟩
  hs.invariant (fun _ _ => invariant_step hfit) hstart

theorem held_le_of_invariant (h : Invariant maxSize items s) : s.held ≤ maxSize := by
  cases s with
  | reading buffers totalBytesCount unread => exact h.2.2
  | copying buffers fullBody =>
    obtain ⟨all, -, hle, hcontents⟩ := h
    have hlength := congrArg List.length hcontents
    rw [List.length_append, length_contents, length_contents] at hlength
    simp only [State.held]
    omega
  | returned r unread =>
    cases r with
    | error e => exact Nat.zero_le _
    | ok fullBody =>
      obtain ⟨-, all, -, hle, rfl⟩ := h
      rwa [State.held, length_contents]

/-- What was read within the limit ends before the item that stops the reading. -/
theorem suffix_of_stops {before after rest : List (Item B)} {item : Item B} {buffers : List B}
    (hitems : before ++ item :: after = buffers.map .ok ++ rest) (hle : size buffers ≤ maxSize)
    (hstops : Stops maxSize before item) : item :: after <:+ rest := by
  obtain ⟨d, hbuffers, hrest⟩ | ⟨d, -, rfl⟩ := List.append_eq_append_iff.mp hitems
  · cases d with
    | nil => exact (show rest = item :: after from hrest.symm) ▸ List.suffix_refl _
    | cons x d =>
      obtain ⟨rfl, -⟩ := List.cons.inj hrest
      have hkept := congrArg buffersOf hbuffers
      rw [buffersOf_map_ok, buffersOf_append] at hkept
      cases item with
      | error e =>
        have hmem : Except.error e ∈ buffers.map Except.ok := by simp [hbuffers]
        simp at hmem
      | ok buf =>
        rw [hkept, buffersOf_cons_ok, size_append, size_cons] at hle
        simp only [Stops] at hstops
        omega
  · exact List.suffix_append d _

theorem unread_of_invariant (h : Invariant maxSize items s) {before after : List (Item B)}
    {item : Item B} (hitems : items = before ++ item :: after) (hstops : Stops maxSize before item) :
    after <:+ s.unread := by
  have htail : after <:+ item :: after := List.suffix_cons item after
  cases s with
  | reading buffers totalBytesCount unread =>
    exact htail.trans (suffix_of_stops (hitems.symm.trans h.1) h.2.2 hstops)
  | copying buffers fullBody =>
    obtain ⟨all, hall, hle, -⟩ := h
    rw [hall, ← List.append_nil (all.map _)] at hitems
    exact htail.trans (suffix_of_stops hitems.symm hle hstops)
  | returned r unread =>
    cases r with
    | error e =>
      obtain ⟨buffers, item', hread, hle, -⟩ := h
      have hsuffix := suffix_of_stops (hitems.symm.trans hread) hle hstops
      obtain ⟨d, hd⟩ := hsuffix
      cases d with
      | nil =>
        obtain ⟨-, rfl⟩ := List.cons.inj hd
        exact List.suffix_refl _
      | cons x d =>
        obtain ⟨-, rfl⟩ := List.cons.inj hd
        exact htail.trans (List.suffix_append d _)
    | ok fullBody =>
      obtain ⟨rfl, all, hall, hle, -⟩ := h
      rw [hall, ← List.append_nil (all.map _)] at hitems
      exact htail.trans (suffix_of_stops hitems.symm hle hstops)

theorem whole_of_invariant {b : Bytes} {unread : List (Item B)}
    (h : Invariant maxSize items (.returned (.ok b) unread)) :
    (∀ item ∈ items, item.isOk) ∧ size (buffersOf items) ≤ maxSize ∧ b = contents (buffersOf items) := by
  obtain ⟨-, all, rfl, hle, rfl⟩ := h
  rw [buffersOf_map_ok]
  refine ⟨fun item hitem => ?_, hle, rfl⟩
  obtain ⟨buf, -, rfl⟩ := List.mem_map.mp hitem
  rfl

theorem refused_of_invariant {e : String} {unread : List (Item B)}
    (h : Invariant maxSize items (.returned (.error e) unread)) :
    ¬ ((∀ item ∈ items, item.isOk) ∧ size (buffersOf items) ≤ maxSize) := by
  rintro ⟨hok, hsize⟩
  obtain ⟨buffers, item, rfl, -, hstops⟩ := h
  cases item with
  | error e' =>
    have herror : (Except.error e' : Item B).isOk := hok _ (by simp)
    cases herror
  | ok buf =>
    rw [Stops, buffersOf_map_ok] at hstops
    rw [buffersOf_append, buffersOf_map_ok, buffersOf_cons_ok, size_append, size_cons] at hsize
    omega

end invariant

theorem exists_returns (maxSize : ℕ) (items : List (Item B)) : ∃ r, Returns maxSize items r := by
  have hlt : ∀ s t : State B, step maxSize s = some t → t.rounds < s.rounds := rounds_lt
  obtain ⟨s, hs, hfinal⟩ := exists_final hlt (start items)
  obtain ⟨r, unread, rfl⟩ := step_eq_none hfinal
  exact ⟨r, unread, hs⟩

/-- Every body is read within the limit. -/
theorem readBodyWithLimit_correct {maxSize : ℕ} {items : List (Item B)}
    (hfit : SumsFit maxSize items) : ReadWithin maxSize items := by
  constructor
  case returns => exact exists_returns maxSize items
  case whole =>
    intro b
    constructor
    · rintro ⟨unread, h⟩
      exact whole_of_invariant (invariant_reaches hfit h)
    · rintro ⟨hok, hsize, rfl⟩
      obtain ⟨r, unread, h⟩ := exists_returns maxSize items
      cases r with
      | error e => exact absurd ⟨hok, hsize⟩ (refused_of_invariant (invariant_reaches hfit h))
      | ok b =>
        obtain ⟨-, -, rfl⟩ := whole_of_invariant (invariant_reaches hfit h)
        exact ⟨unread, h⟩
  case held_le =>
    intro s hs
    exact held_le_of_invariant (invariant_reaches hfit hs)
  case unread_after =>
    intro before item after hitems hstops s hs
    exact unread_of_invariant (invariant_reaches hfit hs) hitems hstops

section segments

/-- The first segment that is not empty. -/
def firstSegment : List Bytes → Bytes
  | [] => []
  | [] :: segments => firstSegment segments
  | (x :: segment) :: _ => x :: segment

def dropBytes : List Bytes → ℕ → List Bytes
  | [], _ => []
  | segment :: segments, n => segment.drop n :: dropBytes segments (n - segment.length)

theorem firstSegment_prefix (segments : List Bytes) : firstSegment segments <+: segments.flatten := by
  induction segments with
  | nil => exact List.nil_prefix
  | cons segment segments ih =>
    cases segment with
    | nil => exact ih
    | cons x segment => exact List.prefix_append _ _

theorem firstSegment_ne_nil {segments : List Bytes} (h : 0 < segments.flatten.length) :
    firstSegment segments ≠ [] := by
  induction segments with
  | nil => cases h
  | cons segment segments ih =>
    cases segment with
    | nil => exact ih h
    | cons x segment => exact List.cons_ne_nil _ _

theorem flatten_dropBytes (segments : List Bytes) (n : ℕ) :
    (dropBytes segments n).flatten = segments.flatten.drop n := by
  induction segments generalizing n with
  | nil => simp [dropBytes]
  | cons segment segments ih =>
    rw [dropBytes, List.flatten_cons, List.flatten_cons, ih, List.drop_append]

/-- A buffer in segments, of which some may be empty. -/
instance segmentedBuf : Buf (List Bytes) where
  remaining segments := segments.flatten.length
  chunk := firstSegment
  advance := dropBytes
  content := List.flatten
  remaining_eq _ := rfl
  chunk_of_content := firstSegment_prefix
  chunk_ne_nil _ := firstSegment_ne_nil
  content_advance segments n _ := flatten_dropBytes segments n

def sampleItems : List (Item (List Bytes)) := [.ok [[1, 2], [], [3]], .ok [], .ok [[4], [5]]]

theorem segments_read : Returns 5 sampleItems (.ok [1, 2, 3, 4, 5]) := by
  have hfit : SumsFit 5 sampleItems := sumsFit_of_size (by decide)
  exact ((readBodyWithLimit_correct hfit).whole _).mpr ⟨by decide, by decide, rfl⟩

end segments
end PlaidRuntime.WebhookBody
