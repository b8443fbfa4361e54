import PlaidRuntime.Decimal
import PlaidRuntime.NpmValidators

/-!
# Paginated data of the npm website

`get_paginated_data_from_npm_website` of `apis/npm/npm_web_client.rs`: pages are asked for until
there are as many items as a total that was read before. The site is whatever it answers, request
after request.
-/
namespace PlaidRuntime.NpmPaging
open Decimal
open NpmValidators (NpmError)

/-- `V` are the JSON values; a header that is not text counts as missing. -/
structure Response (V : Type) where
  status : ℕ
  retryAfter : Option String
  json : Option V

/-- `from_paginated_response` of a type of items. -/
class Paginable (V T : Type) where
  fromPaginatedResponse : V → Option (List T)

def parseU32 (text : String) : Option ℕ :=
  let digits := match text.toList with
    | '+' :: cs => cs
    | cs => cs
  (parseDigits digits).filter (· < 2 ^ 32)

def badResponseToError {V : Type} (response : Response V) : NpmError :=
  match response.status with
  | 429 => .throttlingError (response.retryAfter.bind parseU32)
  | status => .unexpectedStatusCode status

variable {V T : Type}

/-- The number of a page goes with every request but the first. -/
abbrev Site (V : Type) : Type := ℕ → Option Int32 → Option (Response V)

section client
variable [Paginable V T]

/-- The items of one answer. A request that is not answered fails. -/
def pageItems : Option (Response V) → Except NpmError (List T)
  | none => .error .failedToRetrievePaginatedData
  | some response =>
    if response.status ≠ 200 then .error (badResponseToError response)
    else match response.json.bind Paginable.fromPaginatedResponse with
      | none => .error .failedToRetrievePaginatedData
      | some items => .ok items

variable (site : Site V) (targetNumItems : UInt64)

/-- The loop over the pages after the first. It gives the number of requests made, too, and
nothing when the fuel does not last. -/
def askPages : ℕ → ℕ → List T → Option (ℕ × Except NpmError (List T))
  | 0, _, _ => none
  | fuel + 1, pageNum, allItems =>
    match pageItems (site pageNum (some (Int32.ofNat pageNum))) with
    | .error e => some (pageNum + 1, .error e)
    | .ok items =>
      let allItems := allItems ++ items
      if allItems.length = targetNumItems.toNat then some (pageNum + 1, .ok allItems)
      else askPages fuel (pageNum + 1) allItems

def getPaginatedData (fuel : ℕ) : Option (ℕ × Except NpmError (List T)) :=
  match pageItems (site 0 none) with
  | .error e => some (1, .error e)
  | .ok allItems =>
    if targetNumItems ≤ 10 then
      if allItems.length = targetNumItems.toNat then some (1, .ok allItems)
      else some (1, .error .failedToRetrievePaginatedData)
    else askPages site targetNumItems fuel 1 allItems

/-- The call returns after `n` requests. -/
def ReturnsAfter (n : ℕ) (r : Except NpmError (List T)) : Prop :=
  ∃ fuel, getPaginatedData site targetNumItems fuel = some (n, r)

/-- The call returns, and what it returns is the pages received, the target number of items. -/
structure Completes (pages : ℕ → List T) : Prop where
  returns : ∃ n, ∃ r : Except NpmError (List T), ReturnsAfter site targetNumItems n r
  whole : ∀ n items, ReturnsAfter site targetNumItems n (.ok items) →
    items.length = targetNumItems.toNat ∧ items = (List.range n).flatMap pages

end client

def pageParameter : ℕ → Option Int32
  | 0 => none
  | n + 1 => some (Int32.ofNat (n + 1))

/-- A site that answers every request with a page. -/
structure Listing (V T : Type) [Paginable V T] where
  site : Site V
  pages : ℕ → List T
  serves : ∀ n, pageItems (site n (pageParameter n)) = .ok (pages n)

namespace Listing
variable [Paginable V T] (s : Listing V T) {target : UInt64} {fuel n m : ℕ}
  {r : Except NpmError (List T)}

/-- What the first `n` pages hold. -/
def received (n : ℕ) : List T := (List.range n).flatMap s.pages

theorem received_succ (n : ℕ) : s.received (n + 1) = s.received n ++ s.pages n := by
  simp [received, List.range_succ]

theorem received_one : s.received 1 = s.pages 0 := by simp [received]

/-- The loop returns with the first number of pages that hold the target number of items. -/
theorem askPages_eq_some :
    askPages s.site target fuel (n + 1) (s.received (n + 1)) = some (m, r) ↔
      n + 1 < m ∧ m ≤ n + 1 + fuel ∧ r = .ok (s.received m) ∧
        (s.received m).length = target.toNat ∧
        ∀ j, n + 1 < j → j < m → (s.received j).length ≠ target.toNat := by
  induction fuel generalizing n with
  | zero => simp only [askPages, reduceCtorEq, false_iff]; omega
  | succ fuel ih =>
    have hpage : pageItems (s.site (n + 1) (some (Int32.ofNat (n + 1)))) = .ok (s.pages (n + 1)) :=
      s.serves (n + 1)
    rw [askPages, hpage]
    simp only [← received_succ]
    split_ifs with hlen
    · simp only [Option.some.injEq, Prod.mk.injEq]
      constructor
      · rintro ⟨rfl, rfl⟩
        exact ⟨by omega, by omega, rfl, hlen, fun j hj hjm => by omega⟩
      · rintro ⟨hnm, -, rfl, -, hbefore⟩
        have hm : n + 1 + 1 = m := by
          by_contra hne
          exact hbefore (n + 1 + 1) (by omega) (by omega) hlen
        exact ⟨hm, by rw [hm]⟩
    · rw [ih]
      constructor
      · rintro ⟨hnm, hm, hr, htarget, hbefore⟩
        refine ⟨by omega, by omega, hr, htarget, fun j hj hjm => ?_⟩
        obtain rfl | hlt := Nat.eq_or_lt_of_le (Nat.succ_le_of_lt hj)
        · exact hlen
        · exact hbefore j hlt hjm
      · rintro ⟨hnm, hm, hr, htarget, hbefore⟩
        have hne : m ≠ n + 1 + 1 := by
          rintro rfl
          exact hlen htarget
        exact ⟨by omega, by omega, hr, htarget, fun j hj => hbefore j (by omega)⟩

theorem returnsAfter_few (htarget : target ≤ 10) :
    ReturnsAfter s.site target n r ↔
      n = 1 ∧ r = if (s.received 1).length = target.toNat then .ok (s.received 1)
        else .error .failedToRetrievePaginatedData := by
  have hfirst : pageItems (s.site 0 none) = .ok (s.received 1) :=
    (s.serves 0).trans (congrArg _ s.received_one.symm)
  simp only [ReturnsAfter, getPaginatedData, hfirst, if_pos htarget, exists_const]
  split_ifs <;> simp [eq_comm]

theorem returnsAfter_more (htarget : ¬ target ≤ 10) :
    ReturnsAfter s.site target n r ↔
      1 < n ∧ r = .ok (s.received n) ∧ (s.received n).length = target.toNat ∧
        ∀ j, 1 < j → j < n → (s.received j).length ≠ target.toNat := by
  have hfirst : pageItems (s.site 0 none) = .ok (s.received 1) :=
    (s.serves 0).trans (congrArg _ s.received_one.symm)
  simp only [ReturnsAfter, getPaginatedData, hfirst, if_neg htarget]
  constructor
  · rintro ⟨fuel, h⟩
    obtain ⟨hn, -, hr, hlen, hbefore⟩ := s.askPages_eq_some.mp h
    exact ⟨hn, hr, hlen, hbefore⟩
  · rintro ⟨hn, hr, hlen, hbefore⟩
    exact ⟨n, s.askPages_eq_some.mpr ⟨hn, by omega, hr, hlen, hbefore⟩⟩

/-- What is returned is always the pages received, and the right number of items. -/
theorem whole_of_returns {items : List T} (h : ReturnsAfter s.site target n (.ok items)) :
    items.length = target.toNat ∧ items = s.received n := by
  by_cases htarget : target ≤ 10
  · obtain ⟨rfl, hr⟩ := (s.returnsAfter_few htarget).mp h
    split_ifs at hr with hlen
    obtain rfl := Except.ok.inj hr
    exact ⟨hlen, rfl⟩
  · obtain ⟨-, hr, hlen, -⟩ := (s.returnsAfter_more htarget).mp h
    obtain rfl := Except.ok.inj hr
    exact ⟨hlen, rfl⟩

theorem returns_iff :
    (∃ n, ∃ r : Except NpmError (List T), ReturnsAfter s.site target n r) ↔
      target ≤ 10 ∨ ∃ n, 1 < n ∧ (s.received n).length = target.toNat := by
  classical
  by_cases htarget : target ≤ 10
  · exact iff_of_true ⟨1, _, (s.returnsAfter_few htarget).mpr ⟨rfl, rfl⟩⟩ (Or.inl htarget)
  simp only [htarget, false_or, s.returnsAfter_more htarget]
  constructor
  · rintro ⟨n, r, hn, -, hlen, -⟩
    exact ⟨n, hn, hlen⟩
  · intro h
    obtain ⟨hn, hlen⟩ := Nat.find_spec h
    refine ⟨Nat.find h, _, hn, rfl, hlen, fun j hj hlt hj' => ?_⟩
    exact Nat.find_min h hlt ⟨hj, hj'⟩

end Listing

/-- A listing is retrieved unless more than ten items are to be had and no number of pages, two at
least, holds just the target number. -/
theorem completes_iff [Paginable V T] (s : Listing V T) (target : UInt64) :
    Completes s.site target s.pages ↔
      target ≤ 10 ∨ ∃ n, 1 < n ∧ (s.received n).length = target.toNat := by
  constructor
  · intro h
    exact s.returns_iff.mp h.returns
  · intro h
    exact ⟨s.returns_iff.mpr h, fun n items => s.whole_of_returns⟩

section removed

instance numbers : Paginable (List ℕ) ℕ := ⟨some⟩

/-- Eleven tokens were counted; twelve are there when the pages are asked for. -/
def shiftedPages (n : ℕ) : List ℕ :=
  if n = 0 then List.range 10 else if n = 1 then [10, 11] else []

def shiftedListing : Listing (List ℕ) ℕ where
  site n _ := some ⟨200, none, some (shiftedPages n)⟩
  pages := shiftedPages
  serves _ := rfl

theorem shiftedListing_received (n : ℕ) :
    shiftedListing.received (n + 2) = List.range 10 ++ [10, 11] := by
  induction n with
  | zero => rfl
  | succ n ih =>
    have hempty : shiftedListing.pages (n + 2) = [] := by simp [shiftedListing, shiftedPages]
    rw [Listing.received_succ, ih, hempty, List.append_nil]

/-- The pages jump over the target, and all that follow are empty. -/
theorem overshot_never_returns : ¬ Completes shiftedListing.site 11 shiftedListing.pages := by
  intro h
  obtain ⟨n, hn, hlen⟩ := (shiftedListing.returns_iff.mp h.returns).resolve_left (by decide)
  obtain ⟨k, rfl⟩ := Nat.exists_eq_add_of_le' (Nat.succ_le_of_lt hn)
  rw [shiftedListing_received] at hlen
  exact absurd hlen (by decide)

end removed
end PlaidRuntime.NpmPaging
