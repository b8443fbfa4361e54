import PlaidRuntime.CodeSearch
import PlaidRuntime.PagedFetch
import PlaidRuntime.StlStorage

/-!
# Listings that come in pages

The functions of the standard library that ask GitHub for a listing page by page
(`plaid-stl/src/github`). They differ in how they tell that a page is the last one.
-/
namespace PlaidRuntime.StlListings
open PagedFetch CodeSearch
open StlStorage (PlaidFunctionError)

section loops

abbrev Result (T : Type) := Except PlaidFunctionError (List T)

/-- What one call of a host function gives a rule: text, or an error code. -/
abbrev Page := Except PlaidFunctionError String

/-- The next page number. The loops count in a word of the width of the parameter and the rules are
built without overflow checks. -/
def nextPage (width page : ℕ) : ℕ := (page + 1) % 2 ^ width

variable {T : Type}

/-- The body of the two functions that look for the text of an empty page. -/
def untilEmptyText (parse : String → Option (List T)) (page : ℕ) (items : List T) :
    Page → Turn ℕ (List T) (Result T)
  | .error e => .stop (.error e)
  | .ok thisPage =>
    if thisPage = "[]" then .stop (.ok items)
    else match parse thisPage with
      | none => .stop (.error .internalApiError)
      | some more => .more (nextPage 16 page) (items ++ more)

/-- The other loops read a page before they look at it. -/
def readPage {Q : Type} (parse : String → Option Q) : Page → Except PlaidFunctionError Q
  | .error e => .error e
  | .ok thisPage =>
    match parse thisPage with
    | none => .error .internalApiError
    | some read => .ok read

def seatsTurn (parse : String → Option (List T)) (page : ℕ) (seats : List T) (p : Page) :
    Turn ℕ (List T) (Result T) :=
  match readPage parse p with
  | .error e => .stop (.error e)
  | .ok thisPage =>
    if thisPage.length = 0 then .stop (.ok seats) else .more (nextPage 16 page) (seats ++ thisPage)

structure SecretsPage where
  totalCount : UInt32
  secrets : List String

def secretsTurn (parse : String → Option SecretsPage) (page : ℕ) (secretNames : List String)
    (p : Page) : Turn ℕ (List String) (Result String) :=
  match readPage parse p with
  | .error e => .stop (.error e)
  | .ok thisPage =>
    if thisPage.secrets = [] then .stop (.ok secretNames)
    else
      let secretNames := secretNames ++ thisPage.secrets
      if thisPage.totalCount.toNat ≤ secretNames.length % 2 ^ 32 then .stop (.ok secretNames)
      else .more (nextPage 32 page) secretNames

def perPage : ℕ := 100

def searchTurn (parse : String → Option (List FileSearchResultItem)) (page : ℕ)
    (searchResults : List FileSearchResultItem) (p : Page) :
    Turn ℕ (List FileSearchResultItem) (Result FileSearchResultItem) :=
  match readPage parse p with
  | .error e => .stop (.error e)
  | .ok items =>
    if items = [] then .stop (.ok searchResults)
    else if items.length < perPage then .stop (.ok (searchResults ++ items))
    else .more (nextPage 16 page) (searchResults ++ items)

def pullsTurn (parse : String → Option (List T)) (page : ℕ) (prs : List T) (p : Page) :
    Turn ℕ (List T) (Result T) :=
  match readPage parse p with
  | .error e => .stop (.error e)
  | .ok thisPage =>
    if thisPage.length < perPage then .stop (.ok (prs ++ thisPage))
    else .more (nextPage 16 page) (prs ++ thisPage)

/-- The host's part in the listing of pull requests. The number of the page does not get into the
address and its size is only checked, so the answer of GitHub is the one to an address without
either. -/
def hostGetPullRequests (answer : Page) (_page perPage : ℕ) : Page :=
  if 100 < perPage then .error .internalApiError else answer

variable (call : ℕ → Page) (fuel : ℕ)

def getRepoTeams (parse : String → Option (List T)) : Option (Result T) :=
  fetch (fun _ => call) (untilEmptyText parse) fuel 0 1 []

def getAllRepositoryCollaboratorsDetailed (parse : String → Option (List T)) : Option (Result T) :=
  fetch (fun _ => call) (untilEmptyText parse) fuel 0 1 []

def listAllCopilotSubscriptionSeats (parse : String → Option (List T)) : Option (Result T) :=
  fetch (fun _ => call) (seatsTurn parse) fuel 0 1 []

def listOrgSecretsForRepo (parse : String → Option SecretsPage) : Option (Result String) :=
  fetch (fun _ => call) (secretsTurn parse) fuel 0 1 []

def searchCode (parse : String → Option (List FileSearchResultItem))
    (searchCriteria : Option CodeSearchCriteria) : Option (Result FileSearchResultItem) :=
  (fetch (fun _ => call) (searchTurn parse) fuel 0 1 []).map fun r => r.map fun searchResults =>
    match searchCriteria with
    | some criteria => filterSearchResults searchResults criteria
    | none => searchResults

/-- `call` also gets the number of items wanted on a page. -/
def getPullRequests (call : ℕ → ℕ → Page) (fuel : ℕ) (parse : String → Option (List T)) :
    Option (Result T) :=
  fetch (fun _ page => call page perPage) (pullsTurn parse) fuel 0 1 []

end loops

section served
variable {T : Type}

/-- How the values of one type are written as JSON and read again. -/
structure Serde (Q : Type) where
  render : Q → String
  parse : String → Option Q
  parse_render : ∀ q, parse (render q) = some q

/-- The lists of a type, written without blanks. -/
structure ListSerde (T : Type) extends Serde (List T) where
  render_nil : render [] = "[]"

theorem ListSerde.render_eq_iff (serde : ListSerde T) {items : List T} :
    serde.render items = "[]" ↔ items = [] := by
  constructor
  · intro h
    have hparse := serde.parse_render items
    rw [h, ← serde.render_nil, serde.parse_render] at hparse
    exact (Option.some.inj hparse).symm
  · rintro rfl
    exact serde.render_nil

/-- An endpoint that cuts a listing into pages of one size. -/
def serves (render : List T → String) (xs : List T) (size page : ℕ) : Page :=
  .ok (render (pageOf xs size page))

/-- The loop makes that many requests, and returns. -/
def ReturnsAfter (requests : ℕ) (result : Result T) (loop : ℕ → Option (Result T)) : Prop :=
  ∀ fuel, loop fuel = if requests ≤ fuel then some result else none

theorem nextPage_of_lt {width page : ℕ} (h : page + 1 < 2 ^ width) : nextPage width page = page + 1 :=
  Nat.mod_eq_of_lt h

variable (xs : List T) {size : ℕ}

theorem take_pageCount (h : 0 < size) : xs.take (pageCount xs.length size * size) = xs := by
  apply List.take_of_length_le
  have hle := (pageCount_le_iff h).mp (le_refl (pageCount xs.length size))
  rwa [Nat.mul_comm] at hle

variable {xs}

theorem pageOf_after (h : 0 < size) : pageOf xs size (pageCount xs.length size + 1) = [] := by
  rw [pageOf_eq_nil_iff h]
  omega

theorem pageOf_ne_nil (h : 0 < size) {page : ℕ} (hpos : 0 < page)
    (hle : page ≤ pageCount xs.length size) : pageOf xs size page ≠ [] := by
  rw [Ne, pageOf_eq_nil_iff h]
  omega

theorem untilEmptyText_listing (serde : ListSerde T) (h : 0 < size)
    (hpages : pageCount xs.length size + 1 < 2 ^ 16) :
    ReturnsAfter (pageCount xs.length size + 1) (.ok xs) fun fuel =>
      fetch (fun _ => serves serde.render xs size) (untilEmptyText serde.parse) fuel 0 1 [] := by
  intro fuel
  refine fetch_listing xs size ?_ (fun page hpos hle => ?_) fuel
  · simp only [serves, pageOf_after h, untilEmptyText, serde.render_nil, if_true]
    rw [take_pageCount xs h]
  · have htext : serde.render (pageOf xs size page) ≠ "[]" := by
      rw [Ne, serde.render_eq_iff]
      exact pageOf_ne_nil h hpos hle
    simp only [serves, untilEmptyText, if_neg htext, serde.parse_render]
    rw [take_append_pageOf _ _ hpos, nextPage_of_lt (by omega)]

theorem seats_listing (serde : Serde (List T)) (h : 0 < size)
    (hpages : pageCount xs.length size + 1 < 2 ^ 16) :
    ReturnsAfter (pageCount xs.length size + 1) (.ok xs) fun fuel =>
      listAllCopilotSubscriptionSeats (serves serde.render xs size) fuel serde.parse := by
  intro fuel
  refine fetch_listing xs size ?_ (fun page hpos hle => ?_) fuel
  · simp only [serves, pageOf_after h, seatsTurn, readPage, serde.parse_render, List.length_nil, if_true]
    rw [take_pageCount xs h]
  · have hne : (pageOf xs size page).length ≠ 0 := by
      rw [Ne, List.length_eq_zero_iff]
      exact pageOf_ne_nil h hpos hle
    simp only [serves, seatsTurn, readPage, serde.parse_render, if_neg hne]
    rw [take_append_pageOf _ _ hpos, nextPage_of_lt (by omega)]

/-- A page of secrets also says how many there are. -/
def secretsServed (render : SecretsPage → String) (xs : List String) (size page : ℕ) : Page :=
  .ok (render ⟨UInt32.ofNat xs.length, pageOf xs size page⟩)

theorem secrets_listing (serde : Serde SecretsPage) {xs : List String} (h : 0 < size)
    (hfew : xs.length < 2 ^ 32) (hpages : pageCount xs.length size < 2 ^ 32) :
    ReturnsAfter (pageCount xs.length size - 1 + 1) (.ok xs) fun fuel =>
      listOrgSecretsForRepo (secretsServed serde.render xs size) fuel serde.parse := by
  have htotal : (UInt32.ofNat xs.length).toNat = xs.length := UInt32.toNat_ofNat_of_lt' hfew
  intro fuel
  refine fetch_listing xs size ?_ (fun page hpos hle => ?_) fuel
  · simp only [secretsServed, secretsTurn, readPage, serde.parse_render, htotal]
    by_cases h0 : pageCount xs.length size = 0
    · have hnil : xs = [] := by
        rw [← take_pageCount xs h, h0]
        simp
      subst hnil
      simp [pageOf]
    · have hlast : pageCount xs.length size - 1 + 1 = pageCount xs.length size := by omega
      have happend := take_append_pageOf xs size (Nat.pos_of_ne_zero h0)
      rw [hlast, if_neg (pageOf_ne_nil h (Nat.pos_of_ne_zero h0) le_rfl), happend, take_pageCount xs h,
        Nat.mod_eq_of_lt hfew, if_pos le_rfl]
  · have hlt : size * page < xs.length := by
      have hnot : ¬xs.length ≤ size * page := by
        rw [← pageCount_le_iff h]
        omega
      omega
    have hgot : (xs.take (page * size)).length = size * page := by
      rw [List.length_take, Nat.mul_comm page]
      omega
    simp only [secretsServed, secretsTurn, readPage, serde.parse_render, htotal]
    rw [if_neg (pageOf_ne_nil h hpos (by omega)), take_append_pageOf _ _ hpos, hgot,
      Nat.mod_eq_of_lt (by omega), if_neg (by omega), nextPage_of_lt (by omega)]

theorem pageOf_last_short : (pageOf xs perPage (xs.length / perPage + 1)).length < perPage := by
  rw [pageOf_short_iff (by decide) (Nat.succ_pos _)]
  exact le_rfl

theorem pageOf_full {page : ℕ} (hpos : 0 < page) (hle : page ≤ xs.length / perPage) :
    ¬(pageOf xs perPage page).length < perPage := by
  rw [pageOf_short_iff (by decide) hpos]
  omega

variable (xs) in
theorem take_last_page :
    xs.take (xs.length / perPage * perPage) ++ pageOf xs perPage (xs.length / perPage + 1) = xs := by
  have happend := take_append_pageOf xs perPage (Nat.succ_pos (xs.length / perPage))
  rw [Nat.succ_sub_one] at happend
  rw [happend]
  apply List.take_of_length_le
  have hdiv := Nat.lt_div_mul_add (a := xs.length) (b := perPage) (by decide)
  rw [Nat.succ_mul]
  omega

/-- The search asks for no page after one that is not full, and applies the criteria at the end. -/
theorem search_listing (serde : Serde (List FileSearchResultItem)) {xs : List FileSearchResultItem}
    (hpages : xs.length / perPage + 1 < 2 ^ 16) (criteria : Option CodeSearchCriteria) :
    ReturnsAfter (xs.length / perPage + 1) (.ok (criteria.elim xs (filterSearchResults xs)))
      fun fuel => searchCode (serves serde.render xs perPage) fuel serde.parse criteria := by
  intro fuel
  have hfetch : fetch (fun _ => serves serde.render xs perPage) (searchTurn serde.parse) fuel 0 1 [] =
      if xs.length / perPage < fuel then some (.ok xs) else none := by
    refine fetch_listing xs perPage ?_ (fun page hpos hle => ?_) fuel
    · simp only [serves, searchTurn, readPage, serde.parse_render, if_pos pageOf_last_short]
      rw [take_last_page]
      split_ifs with hnil
      · have hlast := take_last_page xs
        rw [hnil, List.append_nil] at hlast
        rw [hlast]
      · rfl
    · have hfull := pageOf_full hpos hle
      have hne : pageOf xs perPage page ≠ [] := by
        intro hnil
        rw [hnil] at hfull
        exact hfull (by decide)
      simp only [serves, searchTurn, readPage, serde.parse_render, if_neg hne, if_neg hfull]
      rw [take_append_pageOf _ _ hpos, nextPage_of_lt (by omega)]
  simp only [searchCode, hfetch]
  by_cases hfuel : xs.length / perPage < fuel
  · rw [if_pos (Nat.succ_le_of_lt hfuel), if_pos hfuel]
    cases criteria <;> rfl
  · rw [if_neg (fun h => hfuel (Nat.lt_of_succ_le h)), if_neg hfuel]
    rfl

end served

section pulls
variable {T : Type} {parse : String → Option (List T)} {answer : Page}

theorem pullsTurn_host (page : ℕ) (prs : List T) :
    pullsTurn parse page prs (hostGetPullRequests answer page perPage) =
      match readPage parse answer with
      | .error e => .stop (.error e)
      | .ok thisPage =>
        if thisPage.length < perPage then .stop (.ok (prs ++ thisPage))
        else .more (nextPage 16 page) (prs ++ thisPage) := by
  rw [hostGetPullRequests, if_neg (by decide)]
  rfl

theorem pulls_error {e : PlaidFunctionError} (h : readPage parse answer = .error e) :
    ReturnsAfter 1 (.error e) fun fuel => getPullRequests (hostGetPullRequests answer) fuel parse := by
  intro fuel
  cases fuel with
  | zero => rfl
  | succ fuel =>
    have hturn : pullsTurn parse 1 [] (hostGetPullRequests answer 1 perPage) =
        .stop (.error e) := by
      rw [pullsTurn_host, h]
    dsimp only [getPullRequests]
    rw [fetch_stop hturn]
    rfl

/-- A first page that is not full is all that comes back. -/
theorem pulls_first_page {prs : List T} (h : readPage parse answer = .ok prs)
    (hshort : prs.length < perPage) :
    ReturnsAfter 1 (.ok prs) fun fuel => getPullRequests (hostGetPullRequests answer) fuel parse := by
  intro fuel
  cases fuel with
  | zero => rfl
  | succ fuel =>
    have hturn : pullsTurn parse 1 [] (hostGetPullRequests answer 1 perPage) = .stop (.ok prs) := by
      rw [pullsTurn_host, h]
      exact if_pos hshort
    dsimp only [getPullRequests]
    rw [fetch_stop hturn]
    rfl

/-- A full one is asked for again and again. -/
theorem pulls_never {prs : List T} (h : readPage parse answer = .ok prs)
    (hfull : perPage ≤ prs.length) (fuel : ℕ) :
    getPullRequests (hostGetPullRequests answer) fuel parse = none := by
  refine fetch_never (J := fun _ _ _ => True) (fun _ page items _ => ?_) trivial fuel
  refine ⟨nextPage 16 page, items ++ prs, ?_, trivial⟩
  rw [pullsTurn_host, h]
  exact if_neg (Nat.not_lt.mpr hfull)

end pulls

section textual
variable {T : Type} {parse : String → Option (List T)} {call : ℕ → Page}

/-- What ends a loop that looks for the text of an empty page. -/
def EndsLoop (parse : String → Option (List T)) : Page → Prop
  | .error _ => True
  | .ok text => text = "[]" ∨ parse text = none

theorem untilEmptyText_more_iff {page : ℕ} {items : List T} {p : Page} :
    (∃ items', untilEmptyText parse page items p = .more (nextPage 16 page) items') ↔
      ¬EndsLoop parse p := by
  cases p with
  | error e => simp [untilEmptyText, EndsLoop]
  | ok text =>
    by_cases htext : text = "[]"
    · simp [untilEmptyText, EndsLoop, htext]
    · cases hparse : parse text <;> simp [untilEmptyText, EndsLoop, htext, hparse]

theorem untilEmptyText_stop {page : ℕ} {items : List T} {p : Page} (h : EndsLoop parse p) :
    ∃ result, untilEmptyText parse page items p = .stop result := by
  cases p with
  | error e => exact ⟨_, rfl⟩
  | ok text =>
    by_cases htext : text = "[]"
    · exact ⟨.ok items, by rw [untilEmptyText, if_pos htext]⟩
    · have hnone : parse text = none := h.resolve_left htext
      exact ⟨_, by rw [untilEmptyText, if_neg htext, hnone]⟩

/-- The page numbers go round, so every page is asked for in the end. -/
theorem untilEmptyText_returns_iff :
    (∃ fuel result, fetch (fun _ => call) (untilEmptyText parse) fuel 0 1 [] = some result) ↔
      ∃ page < 2 ^ 16, EndsLoop parse (call page) := by
  constructor
  · rintro ⟨fuel, result, hr⟩
    by_contra hnone
    have hnever : fetch (fun _ => call) (untilEmptyText parse) fuel 0 1 [] = none := by
      refine fetch_never (J := fun _ page _ => page < 2 ^ 16) (fun _ page items hpage => ?_)
        (by decide) fuel
      have hgoes : ¬EndsLoop parse (call page) := fun h => hnone ⟨page, hpage, h⟩
      obtain ⟨items', hturn⟩ := untilEmptyText_more_iff.mpr hgoes
      exact ⟨_, items', hturn, Nat.mod_lt _ (by decide)⟩
    rw [hnever] at hr
    cases hr
  · rintro ⟨last, hlast, hends⟩
    refine fetch_returns (J := fun _ page _ => page < 2 ^ 16)
      (μ := fun _ page _ => (last + 2 ^ 16 - page) % 2 ^ 16) (fun _ page items hpage => ?_)
      (by decide)
    by_cases hstop : EndsLoop parse (call page)
    · exact .inl (untilEmptyText_stop hstop)
    · obtain ⟨items', hturn⟩ := untilEmptyText_more_iff.mpr hstop
      have hne : page ≠ last := fun h => hstop (h ▸ hends)
      refine .inr ⟨_, items', hturn, Nat.mod_lt _ (by decide), ?_⟩
      simp only [nextPage]
      omega

end textual

/-- Where GitHub cuts a listing into pages, the functions return the whole of it, in order; and how
many pages they ask for. Of the pull requests there is one page only. The two that look for the text
of an empty page return exactly when some page has that text, is no list, or cannot be had. -/
theorem listings_complete :
    (∀ {T : Type} (serde : ListSerde T) (xs : List T) (size : ℕ), 0 < size →
      pageCount xs.length size + 1 < 2 ^ 16 →
      ReturnsAfter (pageCount xs.length size + 1) (.ok xs)
        (fun fuel => getRepoTeams (serves serde.render xs size) fuel serde.parse) ∧
      ReturnsAfter (pageCount xs.length size + 1) (.ok xs) (fun fuel =>
        getAllRepositoryCollaboratorsDetailed (serves serde.render xs size) fuel serde.parse) ∧
      ReturnsAfter (pageCount xs.length size + 1) (.ok xs) (fun fuel =>
        listAllCopilotSubscriptionSeats (serves serde.render xs size) fuel serde.parse)) ∧
    (∀ {T : Type} (parse : String → Option (List T)) (answer : Page),
      (∀ e, readPage parse answer = .error e → ReturnsAfter 1 (.error e)
        (fun fuel => getPullRequests (hostGetPullRequests answer) fuel parse)) ∧
      ∀ prs, readPage parse answer = .ok prs →
        (prs.length < perPage → ReturnsAfter 1 (.ok prs)
          (fun fuel => getPullRequests (hostGetPullRequests answer) fuel parse)) ∧
        (perPage ≤ prs.length →
          ∀ fuel, getPullRequests (hostGetPullRequests answer) fuel parse = none)) ∧
    (∀ (serde : Serde (List FileSearchResultItem)) (xs : List FileSearchResultItem)
      (criteria : Option CodeSearchCriteria), xs.length / perPage + 1 < 2 ^ 16 →
      ReturnsAfter (xs.length / perPage + 1) (.ok (criteria.elim xs (filterSearchResults xs)))
        (fun fuel => searchCode (serves serde.render xs perPage) fuel serde.parse criteria)) ∧
    (∀ (serde : Serde SecretsPage) (xs : List String) (size : ℕ), 0 < size → xs.length < 2 ^ 32 →
      pageCount xs.length size < 2 ^ 32 →
      ReturnsAfter (pageCount xs.length size - 1 + 1) (.ok xs) (fun fuel =>
        listOrgSecretsForRepo (secretsServed serde.render xs size) fuel serde.parse)) ∧
    ∀ {T : Type} (parse : String → Option (List T)) (call : ℕ → Page),
      ((∃ fuel result, getRepoTeams call fuel parse = some result) ↔
        ∃ page < 2 ^ 16, EndsLoop parse (call page)) ∧
      ((∃ fuel result, getAllRepositoryCollaboratorsDetailed call fuel parse = some result) ↔
        ∃ page < 2 ^ 16, EndsLoop parse (call page)) := by
  refine ⟨fun serde xs size h hpages => ⟨?_, ?_, ?_⟩, fun parse answer => ⟨?_, ?_⟩,
    fun serde xs criteria hpages => search_listing serde hpages criteria,
    fun serde xs size h hfew hpages => secrets_listing serde h hfew hpages,
    fun parse call => ⟨untilEmptyText_returns_iff, untilEmptyText_returns_iff⟩⟩
  · exact untilEmptyText_listing serde h hpages
  · exact untilEmptyText_listing serde h hpages
  · exact seats_listing serde.toSerde h hpages
  · exact fun e he => pulls_error he
  · exact fun prs hprs => ⟨pulls_first_page hprs, pulls_never hprs⟩

/-- Lists of zeros. -/
def zeros : ListSerde Unit where
  render items := String.ofList ('[' :: (items.flatMap fun _ => [',', '0']).tail ++ [']'])
  parse text := some (List.replicate (text.toList.count '0') ())
  parse_render items := by
    have hcount : (items.flatMap fun _ => [',', '0']).tail.count '0' = items.length := by
      cases items with
      | nil => rfl
      | cons item items =>
        have htail : ∀ rest : List Unit, (rest.flatMap fun _ => [',', '0']).count '0' = rest.length := by
          intro rest
          induction rest with
          | nil => rfl
          | cons _ rest ih => simp [ih]
        simp [htail]
    have hunits : List.replicate items.length () = items :=
      (List.eq_replicate_iff.mpr ⟨rfl, fun _ _ => rfl⟩).symm
    simp [hcount, hunits]
  render_nil := rfl

theorem listings_complete_sample : ReturnsAfter 3 (.ok [(), ()]) fun fuel =>
    getRepoTeams (serves zeros.render [(), ()] 1) fuel zeros.parse :=
  (listings_complete.1 zeros [(), ()] 1 (by decide) (by decide)).1

end PlaidRuntime.StlListings
