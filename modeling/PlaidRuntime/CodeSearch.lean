import PlaidRuntime.RegexPattern
import PlaidRuntime.SeparatedText

/-!
# Criteria of a code search

`filter_search_results` of `plaid-stl/src/github/search.rs` beside what `CodeSearchCriteria` says of
its fields.
-/
namespace PlaidRuntime.CodeSearch
open SeparatedText RegexPattern

structure GithubRepository where
  name : String
  fullName : String
  isPrivate : Bool

structure FileSearchResultItem where
  path : String
  htmlUrl : String
  repository : GithubRepository

inductive RepoFilter where
  | onlyFromRepos (repos : List String)
  | notFromRepos (repos : List String)

/-- The criteria that the module checks itself. -/
structure CodeSearchCriteria where
  repoFilter : Option RepoFilter
  discardSubstrings : Option (List String)
  discardResultsInDotFolders : Bool
  discardResultsInPrivateRepos : Bool
  discardSpecificFiles : Option (List String)

/-- `\/\.`. -/
def regexDotFolder : Pattern Char := .word ['/', '.']

def contains (text sub : String) : Bool := decide (sub.toList <:+: text.toList)

section checks
variable (criteria : CodeSearchCriteria) (result : FileSearchResultItem)

def discardNotFrom : Bool :=
  match criteria.repoFilter with
  | some (.notFromRepos repos) => repos.contains result.repository.name
  | _ => false

def discardOnlyFrom : Bool :=
  match criteria.repoFilter with
  | some (.onlyFromRepos repos) => !repos.contains result.repository.name
  | _ => false

def discardSubstring : Bool :=
  match criteria.discardSubstrings with
  | some subPaths => subPaths.any (contains result.htmlUrl)
  | none => false

def discardExplicit : Bool :=
  match criteria.discardSpecificFiles with
  | some files => files.contains (result.repository.fullName ++ "/" ++ result.path)
  | none => false

/-- The body of the loop: no check ends in a `continue`. -/
def makesIt : Bool :=
  if criteria.discardResultsInDotFolders && regexDotFolder.search result.htmlUrl.toList then false
  else if discardNotFrom criteria result then false
  else if discardOnlyFrom criteria result then false
  else if criteria.discardResultsInPrivateRepos && result.repository.isPrivate then false
  else if discardSubstring criteria result then false
  else if discardExplicit criteria result then false
  else true

end checks

def filterSearchResults (rawResults : List FileSearchResultItem) (criteria : CodeSearchCriteria) :
    List FileSearchResultItem :=
  rawResults.foldl (fun filtered result =>
    if makesIt criteria result then filtered ++ [result] else filtered) []

section documented
variable (criteria : CodeSearchCriteria) (result : FileSearchResultItem)

def RepoFilter.Admits : RepoFilter → String → Prop
  | .onlyFromRepos repos, name => name ∈ repos
  | .notFromRepos repos, name => name ∉ repos

/-- The repository is one that results are wanted from. -/
structure FromRepo : Prop where
  admitted : ∀ f ∈ criteria.repoFilter, f.Admits result.repository.name
  visible : criteria.discardResultsInPrivateRepos = true → result.repository.isPrivate = false

/-- The pieces of a path, each a folder but the last. -/
def pieces (path : String) : List (List Char) := path.toList.splitOn '/'

def Dotted (piece : List Char) : Prop := piece.head? = some '.'

def InDotFolder : Prop := ∃ folder ∈ (pieces result.path).dropLast, Dotted folder

def HasDiscarded (text : String) : Prop :=
  ∃ subs ∈ criteria.discardSubstrings, ∃ sub ∈ subs, sub.toList <:+: text.toList

def Listed (file : String) : Prop := ∃ files ∈ criteria.discardSpecificFiles, file ∈ files

/-- No folder is hidden and no discarded text is in the path. -/
structure PathKept : Prop where
  folders : criteria.discardResultsInDotFolders = true → ¬ InDotFolder result
  substrings : ¬ HasDiscarded criteria result.path

/-- All that is documented of the criteria. -/
structure Wanted : Prop where
  repo : FromRepo criteria result
  path : PathKept criteria result
  file : ¬ Listed criteria (result.repository.name ++ "/" ++ result.path)

/-- The owner, the repository, the reference or the file itself has a name with a dot in front. -/
def DottedOutside (ref : String) : Prop :=
  ∃ piece ∈ pieces result.repository.fullName ++ pieces ref ++ (pieces result.path).getLast?.toList,
    Dotted piece

/-- What `filter_search_results` discards a result for when the path is no reason to. -/
def DiscardedOutside (ref : String) : Prop :=
  (criteria.discardResultsInDotFolders = true ∧ DottedOutside result ref) ∨
    HasDiscarded criteria result.htmlUrl ∨
    Listed criteria (result.repository.fullName ++ "/" ++ result.path)

/-- A result from a wanted repository whose path is no reason to discard it is discarded for what is
outside of the path just when it is listed. -/
def Unmistaken (ref : String) : Prop :=
  FromRepo criteria result → PathKept criteria result →
    (Listed criteria (result.repository.name ++ "/" ++ result.path) ↔
      DiscardedOutside criteria result ref)

/-- The address of a file at a reference. -/
def address (ref : String) : String :=
  "https://github.com/" ++ result.repository.fullName ++ "/blob/" ++ ref ++ "/" ++ result.path

instance decidableAdmits : ∀ f : RepoFilter, DecidablePred f.Admits
  | .onlyFromRepos repos => fun name => inferInstanceAs (Decidable (name ∈ repos))
  | .notFromRepos repos => fun name => inferInstanceAs (Decidable (name ∉ repos))

instance decidableInDotFolder : Decidable (InDotFolder result) :=
  inferInstanceAs (Decidable (∃ folder ∈ (pieces result.path).dropLast, folder.head? = some '.'))

instance decidableHasDiscarded (text : String) : Decidable (HasDiscarded criteria text) :=
  inferInstanceAs
    (Decidable (∃ subs ∈ criteria.discardSubstrings, ∃ sub ∈ subs, sub.toList <:+: text.toList))

instance decidableListed (file : String) : Decidable (Listed criteria file) :=
  inferInstanceAs (Decidable (∃ files ∈ criteria.discardSpecificFiles, file ∈ files))

instance decidableWanted : DecidablePred (Wanted criteria) := fun result =>
  decidable_of_iff
    (((∀ f ∈ criteria.repoFilter, f.Admits result.repository.name) ∧
      (criteria.discardResultsInPrivateRepos = true → result.repository.isPrivate = false)) ∧
      ((criteria.discardResultsInDotFolders = true → ¬ InDotFolder result) ∧
        ¬ HasDiscarded criteria result.path) ∧
      ¬ Listed criteria (result.repository.name ++ "/" ++ result.path))
    ⟨fun h => ⟨⟨h.1.1, h.1.2⟩, ⟨h.2.1.1, h.2.1.2⟩, h.2.2⟩,
      fun h => ⟨⟨h.repo.admitted, h.repo.visible⟩, ⟨h.path.folders, h.path.substrings⟩, h.file⟩⟩

/-- The wanted results are left, in their order, and no others. -/
def FiltersAsDocumented (rawResults : List FileSearchResultItem) : Prop :=
  filterSearchResults rawResults criteria = rawResults.filter (Wanted criteria ·)

end documented

section results
variable {criteria : CodeSearchCriteria} {result : FileSearchResultItem} {ref : String}

theorem filterSearchResults_eq (rawResults : List FileSearchResultItem) :
    filterSearchResults rawResults criteria = rawResults.filter (makesIt criteria) := by
  have hfold : ∀ filtered, rawResults.foldl (fun filtered result =>
      if makesIt criteria result then filtered ++ [result] else filtered) filtered =
        filtered ++ rawResults.filter (makesIt criteria) := by
    induction rawResults with
    | nil => simp
    | cons result rest ih =>
      intro filtered
      rw [List.foldl_cons, List.filter_cons]
      split_ifs with h
      · rw [ih, List.append_assoc, List.singleton_append]
      · exact ih filtered
  exact hfold []

theorem discardRepo_iff :
    (discardNotFrom criteria result = false ∧ discardOnlyFrom criteria result = false) ↔
      ∀ f ∈ criteria.repoFilter, f.Admits result.repository.name := by
  rcases criteria with ⟨_ | ⟨repos⟩ | ⟨repos⟩, _, _, _, _⟩ <;>
    simp [discardNotFrom, discardOnlyFrom, RepoFilter.Admits]

theorem discardSubstring_iff :
    discardSubstring criteria result = true ↔ HasDiscarded criteria result.htmlUrl := by
  rcases criteria with ⟨_, _ | subs, _, _, _⟩ <;> simp [discardSubstring, HasDiscarded, contains]

theorem discardExplicit_iff : discardExplicit criteria result = true ↔
    Listed criteria (result.repository.fullName ++ "/" ++ result.path) := by
  rcases criteria with ⟨_, _, _, _, _ | files⟩ <;> simp [discardExplicit, Listed]

/-- What the checks of the loop come to. -/
theorem makesIt_iff : makesIt criteria result = true ↔
    FromRepo criteria result ∧
      ¬ (criteria.discardResultsInDotFolders = true ∧ ['/', '.'] <:+: result.htmlUrl.toList) ∧
      ¬ HasDiscarded criteria result.htmlUrl ∧
      ¬ Listed criteria (result.repository.fullName ++ "/" ++ result.path) := by
  have hchecks : makesIt criteria result = true ↔
      (¬ (criteria.discardResultsInDotFolders = true ∧ ['/', '.'] <:+: result.htmlUrl.toList)) ∧
        (discardNotFrom criteria result = false ∧ discardOnlyFrom criteria result = false) ∧
        (criteria.discardResultsInPrivateRepos = true → result.repository.isPrivate = false) ∧
        ¬ discardSubstring criteria result = true ∧ ¬ discardExplicit criteria result = true := by
    rw [← Pattern.search_word, makesIt, regexDotFolder]
    cases criteria.discardResultsInDotFolders <;> cases criteria.discardResultsInPrivateRepos <;>
      simp [and_assoc]
  rw [hchecks, discardRepo_iff, discardSubstring_iff, discardExplicit_iff]
  constructor
  · rintro ⟨hdot, hrepo, hprivate, hsub, hfile⟩
    exact ⟨⟨hrepo, hprivate⟩, hdot, hsub, hfile⟩
  · rintro ⟨hrepo, hdot, hsub, hfile⟩
    exact ⟨hdot, hrepo.admitted, hrepo.visible, hsub, hfile⟩

theorem toList_address : (address result ref).toList =
    "https:/".toList ++ '/' :: ("github.com".toList ++ '/' ::
      (result.repository.fullName.toList ++ '/' :: ("blob".toList ++ '/' ::
        (ref.toList ++ '/' :: result.path.toList)))) := by
  have hhost : "https://github.com/".toList =
      "https:/".toList ++ '/' :: ("github.com".toList ++ ['/']) := by decide
  have hblob : "/blob/".toList = '/' :: ("blob".toList ++ ['/']) := by decide
  have hslash : "/".toList = ['/'] := by decide
  delta address
  rw [String.toList_append, String.toList_append, String.toList_append,
    String.toList_append, String.toList_append, hhost, hblob, hslash]
  generalize "https:/".toList = scheme
  generalize "github.com".toList = host
  generalize "blob".toList = blob
  simp

theorem mem_pieces_path {piece : List Char} : piece ∈ pieces result.path ↔
    piece ∈ (pieces result.path).dropLast ∨ piece ∈ (pieces result.path).getLast?.toList := by
  have hne : pieces result.path ≠ [] := List.splitOn_ne_nil _ _
  rw [← List.mem_append, List.getLast?_eq_some_getLast hne, Option.toList_some,
    List.dropLast_append_getLast hne]

/-- A dot after a slash somewhere in the address: a folder of the path starts with it or something
that is no folder. -/
theorem dot_infix_address :
    ['/', '.'] <:+: (address result ref).toList ↔
      InDotFolder result ∨ DottedOutside result ref := by
  have hscheme : "https:/".toList.splitOn '/' = ["https:".toList, []] := by decide
  have hhost : "github.com".toList.splitOn '/' = ["github.com".toList] := by decide
  have hblob : "blob".toList.splitOn '/' = ["blob".toList] := by decide
  have hplain : ¬ Dotted [] ∧ ¬ Dotted "github.com".toList ∧ ¬ Dotted "blob".toList := by
    unfold Dotted
    decide
  rw [pair_infix_iff (by decide), toList_address]
  simp only [List.splitOn_append_cons_self, hscheme, hhost, hblob, List.cons_append, List.tail_cons,
    List.nil_append]
  change (∃ p ∈ [] :: "github.com".toList :: (pieces result.repository.fullName ++
    "blob".toList :: (pieces ref ++ pieces result.path)), Dotted p) ↔ _
  simp only [List.mem_cons, List.mem_append, mem_pieces_path, or_and_right, exists_or,
    exists_eq_left, hplain, false_or, InDotFolder, DottedOutside]
  rw [or_left_comm (a := ∃ p ∈ pieces ref, Dotted p), or_left_comm, or_assoc]

/-- What is in the path is in the address. -/
theorem hasDiscarded_address (h : result.htmlUrl = address result ref)
    (hpath : HasDiscarded criteria result.path) : HasDiscarded criteria result.htmlUrl := by
  obtain ⟨subs, hsubs, sub, hsub, hin⟩ := hpath
  refine ⟨subs, hsubs, sub, hsub, hin.trans ?_⟩
  rw [h]
  delta address
  rw [String.toList_append]
  exact (List.suffix_append _ _).isInfix

/-- One result: the loop and the documentation agree unless something is mistaken. -/
theorem makesIt_iff_wanted (h : result.htmlUrl = address result ref) :
    (makesIt criteria result = true ↔ Wanted criteria result) ↔
      Unmistaken criteria result ref := by
  have hdots : ['/', '.'] <:+: result.htmlUrl.toList ↔
      InDotFolder result ∨ DottedOutside result ref := by rw [h, dot_infix_address]
  have hsub : HasDiscarded criteria result.path → HasDiscarded criteria result.htmlUrl :=
    hasDiscarded_address h
  rw [makesIt_iff, hdots, Unmistaken, DiscardedOutside]
  by_cases hpath : FromRepo criteria result ∧ PathKept criteria result
  · have hwanted : Wanted criteria result ↔
        ¬ Listed criteria (result.repository.name ++ "/" ++ result.path) :=
      ⟨Wanted.file, fun hfile => ⟨hpath.1, hpath.2, hfile⟩⟩
    have hdot : criteria.discardResultsInDotFolders = true ∧
          (InDotFolder result ∨ DottedOutside result ref) ↔
        criteria.discardResultsInDotFolders = true ∧ DottedOutside result ref :=
      and_congr_right fun hc => or_iff_right (hpath.2.folders hc)
    rw [hwanted, hdot]
    simp only [hpath.1, hpath.2, true_and, forall_const, ← not_or]
    rw [not_iff_not]
    exact Iff.comm
  · have hwanted : ¬ Wanted criteria result := fun hw => hpath ⟨hw.repo, hw.path⟩
    refine iff_of_true (iff_of_false ?_ hwanted) fun hr hp => absurd ⟨hr, hp⟩ hpath
    rintro ⟨hrepo, hdot, hnot, -⟩
    exact hpath ⟨hrepo, ⟨fun hc hin => hdot ⟨hc, Or.inl hin⟩, mt hsub hnot⟩⟩

end results

theorem filter_eq_filter_iff {α : Type} {p q : α → Bool} {l : List α} :
    l.filter p = l.filter q ↔ ∀ a ∈ l, p a = q a := by
  constructor
  · intro h a ha
    have hmem : a ∈ l.filter p ↔ a ∈ l.filter q := by rw [h]
    simpa [List.mem_filter, ha] using hmem
  · exact List.filter_congr

/-- The results are filtered as documented just when none of them is mistaken. -/
theorem filterSearchResults_iff (criteria : CodeSearchCriteria)
    (rawResults : List FileSearchResultItem) (ref : FileSearchResultItem → String)
    (h : ∀ result ∈ rawResults, result.htmlUrl = address result (ref result)) :
    FiltersAsDocumented criteria rawResults ↔
      ∀ result ∈ rawResults, Unmistaken criteria result (ref result) := by
  rw [FiltersAsDocumented, filterSearchResults_eq, filter_eq_filter_iff]
  refine forall₂_congr fun result hresult => ?_
  rw [← makesIt_iff_wanted (h result hresult), Bool.eq_iff_iff, decide_eq_true_iff]

section dotfile

def noDotFolders : CodeSearchCriteria where
  repoFilter := none
  discardSubstrings := none
  discardResultsInDotFolders := true
  discardResultsInPrivateRepos := false
  discardSpecificFiles := none

def guide : FileSearchResultItem where
  path := "docs/setup.md"
  htmlUrl := "https://github.com/acme/site/blob/main/docs/setup.md"
  repository := ⟨"site", "acme/site", false⟩

def workflow : FileSearchResultItem where
  path := ".github/setup.md"
  htmlUrl := "https://github.com/acme/site/blob/main/.github/setup.md"
  repository := ⟨"site", "acme/site", false⟩

/-- The first is kept, the second is in a dot folder and is not. -/
theorem guide_filtered : FiltersAsDocumented noDotFolders [guide, workflow] ∧
    [guide, workflow].filter (Wanted noDotFolders ·) = [guide] := by
  refine ⟨(filterSearchResults_iff noDotFolders [guide, workflow] (fun _ => "main")
    (by decide)).mpr ?_, rfl⟩
  have hplain : ∀ piece ∈ pieces guide.repository.fullName ++ pieces "main" ++
      (pieces guide.path).getLast?.toList, ¬ piece.head? = some '.' := by decide
  intro result hresult
  obtain rfl | rfl := List.mem_pair.mp hresult
  · refine fun _ _ => iff_of_false (by decide) ?_
    rintro (⟨-, piece, hpiece, hdotted⟩ | hdiscarded | hlisted)
    · exact hplain piece hpiece hdotted
    · exact absurd hdiscarded (by decide)
    · exact absurd hlisted (by decide)
  · exact fun _ hpath => absurd (by decide) (hpath.folders rfl)

def dotfile : FileSearchResultItem where
  path := ".env"
  htmlUrl := "https://github.com/acme/site/blob/main/.env"
  repository := ⟨"site", "acme/site", false⟩

/-- A file at the root whose own name starts with a dot is in no folder, and is discarded. -/
theorem dotfile_discarded :
    dotfile.htmlUrl = address dotfile "main" ∧ ¬ FiltersAsDocumented noDotFolders [dotfile] := by
  have haddress : dotfile.htmlUrl = address dotfile "main" := by decide
  have hdot : ['/', '.'] <:+: dotfile.htmlUrl.toList := by decide
  have hwanted : Wanted noDotFolders dotfile := by decide
  refine ⟨haddress, fun h => ?_⟩
  rw [FiltersAsDocumented, filterSearchResults_eq, filter_eq_filter_iff] at h
  have hmakes := (h dotfile List.mem_cons_self).trans (decide_eq_true hwanted)
  exact (makesIt_iff.mp hmakes).2.1 ⟨rfl, hdot⟩

end dotfile
end PlaidRuntime.CodeSearch
