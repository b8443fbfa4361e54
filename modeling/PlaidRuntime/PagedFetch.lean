import Mathlib

/-!
# Loops that fetch page after page

A loop asks for one page after the other. From each page it either stops with a result or learns
where the next page is. The rules below give what such a loop returns, after how many requests, and
when it never returns.
-/
namespace PlaidRuntime.PagedFetch

inductive Turn (A S R : Type)
  | stop (result : R)
  | more (address : A) (state : S)

variable {A P S R : Type} (ask : ℕ → A → P) (turn : A → S → P → Turn A S R)

/-- At most `fuel` more pages are asked for; the pages got before are counted, as what there is at
an address may change. -/
def fetch : (fuel asked : ℕ) → A → S → Option R
  | 0, _, _, _ => none
  | fuel + 1, n, a, s =>
    match turn a s (ask n a) with
    | .stop result => some result
    | .more a' s' => fetch fuel (n + 1) a' s'

variable {ask turn} {n : ℕ} {a : A} {s : S}

theorem fetch_stop {result : R} (h : turn a s (ask n a) = .stop result) (fuel : ℕ) :
    fetch ask turn (fuel + 1) n a s = some result := by
  rw [fetch, h]

theorem fetch_more {a' : A} {s' : S} (h : turn a s (ask n a) = .more a' s') (fuel : ℕ) :
    fetch ask turn (fuel + 1) n a s = fetch ask turn fuel (n + 1) a' s' := by
  rw [fetch, h]

/-- A loop that goes on as long as the measure is positive, and then stops, asks for one page more
than the measure says. -/
theorem fetch_exact {J : ℕ → A → S → Prop} {μ : ℕ → A → S → ℕ} {result : R}
    (hstop : ∀ n a s, J n a s → μ n a s = 0 → turn a s (ask n a) = .stop result)
    (hmore : ∀ n a s, J n a s → μ n a s ≠ 0 → ∃ a' s', turn a s (ask n a) = .more a' s' ∧
      J (n + 1) a' s' ∧ μ (n + 1) a' s' + 1 = μ n a s)
    (h : J n a s) (fuel : ℕ) :
    fetch ask turn fuel n a s = if μ n a s < fuel then some result else none := by
  induction fuel generalizing n a s with
  | zero => simp [fetch]
  | succ fuel ih =>
    by_cases h0 : μ n a s = 0
    · rw [fetch_stop (hstop n a s h h0), if_pos (by omega)]
    · obtain ⟨a', s', hturn, hinv, hμ⟩ := hmore n a s h h0
      rw [fetch_more hturn, ih hinv]
      exact if_congr (by omega) rfl rfl

/-- What holds where a loop stops holds of its result. -/
theorem fetch_stops {J : ℕ → A → S → Prop} {Q : R → Prop}
    (hstop : ∀ n a s result, J n a s → turn a s (ask n a) = .stop result → Q result)
    (hmore : ∀ n a s a' s', J n a s → turn a s (ask n a) = .more a' s' → J (n + 1) a' s')
    (h : J n a s) {fuel : ℕ} {result : R} (hr : fetch ask turn fuel n a s = some result) :
    Q result := by
  induction fuel generalizing n a s with
  | zero => cases hr
  | succ fuel ih =>
    cases hturn : turn a s (ask n a) with
    | stop result' =>
      rw [fetch_stop hturn] at hr
      cases hr
      exact hstop n a s _ h hturn
    | more a' s' =>
      rw [fetch_more hturn] at hr
      exact ih (hmore n a s a' s' h hturn) hr

/-- A loop whose measure gets smaller with every page returns. -/
theorem fetch_returns {J : ℕ → A → S → Prop} {μ : ℕ → A → S → ℕ}
    (hturn : ∀ n a s, J n a s → (∃ result, turn a s (ask n a) = .stop result) ∨
      ∃ a' s', turn a s (ask n a) = .more a' s' ∧ J (n + 1) a' s' ∧ μ (n + 1) a' s' < μ n a s)
    (h : J n a s) : ∃ fuel result, fetch ask turn fuel n a s = some result := by
  induction hk : μ n a s using Nat.strong_induction_on generalizing n a s with
  | h k ih =>
    obtain ⟨result, hstop⟩ | ⟨a', s', hmore, hinv, hμ⟩ := hturn n a s h
    · exact ⟨1, result, fetch_stop hstop 0⟩
    · obtain ⟨fuel, result, hr⟩ := ih _ (hk ▸ hμ) hinv rfl
      exact ⟨fuel + 1, result, by rw [fetch_more hmore, hr]⟩

/-- A loop that always finds a reason to go on never returns. -/
theorem fetch_never {J : ℕ → A → S → Prop}
    (hmore : ∀ n a s, J n a s → ∃ a' s', turn a s (ask n a) = .more a' s' ∧ J (n + 1) a' s')
    (h : J n a s) (fuel : ℕ) : fetch ask turn fuel n a s = none := by
  induction fuel generalizing n a s with
  | zero => rfl
  | succ fuel ih =>
    obtain ⟨a', s', hturn, hinv⟩ := hmore n a s h
    rw [fetch_more hturn]
    exact ih hinv

section numbered
variable {T : Type} (xs : List T) (size : ℕ)

/-- The page of that number of a listing that is cut into pages of one size; the first is page 1. -/
def pageOf (page : ℕ) : List T := (xs.drop ((page - 1) * size)).take size

/-- How many pages are not empty. -/
def pageCount (total size : ℕ) : ℕ := (total + size - 1) / size

theorem take_append_pageOf {page : ℕ} (h : 0 < page) :
    xs.take ((page - 1) * size) ++ pageOf xs size page = xs.take (page * size) := by
  obtain ⟨k, rfl⟩ : ∃ k, page = k + 1 := ⟨page - 1, by omega⟩
  rw [pageOf, Nat.add_sub_cancel, Nat.succ_mul, List.take_add]

variable {xs size}

theorem length_pageOf (page : ℕ) :
    (pageOf xs size page).length = min size (xs.length - (page - 1) * size) := by
  rw [pageOf, List.length_take, List.length_drop]

theorem pageCount_le_iff {total k : ℕ} (h : 0 < size) : pageCount total size ≤ k ↔ total ≤ size * k := by
  rw [pageCount, Nat.div_le_iff_le_mul_add_pred h]
  omega

theorem pageOf_eq_nil_iff (h : 0 < size) {page : ℕ} :
    pageOf xs size page = [] ↔ pageCount xs.length size ≤ page - 1 := by
  rw [pageCount_le_iff h, ← List.length_eq_zero_iff, length_pageOf, Nat.mul_comm size]
  omega

theorem pageOf_short_iff (h : 0 < size) {page : ℕ} (hp : 0 < page) :
    (pageOf xs size page).length < size ↔ xs.length / size ≤ page - 1 := by
  have hdiv : xs.length / size ≤ page - 1 ↔ xs.length < page * size := by
    rw [← Nat.lt_add_one_iff, Nat.div_lt_iff_lt_mul h]
    have hsucc : page - 1 + 1 = page := by omega
    rw [hsucc]
  obtain ⟨k, rfl⟩ : ∃ k, page = k + 1 := ⟨page - 1, by omega⟩
  rw [hdiv, length_pageOf, Nat.add_sub_cancel, Nat.succ_mul]
  omega

variable (xs size) in
/-- A loop that takes each page of a listing in turn, and stops at the one after the first
`count`. -/
theorem fetch_listing {ask : ℕ → P} {turn : ℕ → List T → P → Turn ℕ (List T) R} {count : ℕ}
    {result : R}
    (hlast : turn (count + 1) (xs.take (count * size)) (ask (count + 1)) = .stop result)
    (hmore : ∀ page, 0 < page → page ≤ count →
      turn page (xs.take ((page - 1) * size)) (ask page) = .more (page + 1) (xs.take (page * size)))
    (fuel : ℕ) : fetch (fun _ => ask) turn fuel 0 1 [] = if count < fuel then some result else none := by
  have hinv : 0 < 1 ∧ 1 ≤ count + 1 ∧ ([] : List T) = xs.take ((1 - 1) * size) :=
    ⟨by omega, by omega, by simp⟩
  have hrun : fetch (fun _ => ask) turn fuel 0 1 [] =
      if count + 1 - 1 < fuel then some result else none := by
    refine fetch_exact (J := fun _ page got => 0 < page ∧ page ≤ count + 1 ∧
      got = xs.take ((page - 1) * size)) (μ := fun _ page _ => count + 1 - page)
      (fun n page got hinv hμ => ?_) (fun n page got hinv hμ => ?_) hinv fuel
    · obtain ⟨hpos, hle, rfl⟩ := hinv
      obtain rfl : page = count + 1 := by omega
      exact hlast
    · obtain ⟨hpos, hle, rfl⟩ := hinv
      refine ⟨page + 1, _, hmore page hpos (by omega), ⟨by omega, by omega, by simp⟩, by omega⟩
  simpa using hrun

end numbered
end PlaidRuntime.PagedFetch
