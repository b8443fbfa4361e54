import PlaidRuntime.Fallible
import PlaidRuntime.RegexPattern
import PlaidRuntime.UrlPath

/-!
# Addresses of GitHub contents

The validators of `apis/github/validators.rs` that stand before the contents of a repository, and
the addresses that `fetch_file_with_custom_media_type` and `create_file` of `apis/github/repos.rs`
build from what passes.
-/
namespace PlaidRuntime.GithubContents
open Fallible RegexPattern Pattern UrlPath

inductive GitHubError where
  | invalidInput (value : String)
  deriving DecidableEq, Repr

inductive ApiError where
  | badRequest
  | impossibleError
  | gitHubError (e : GitHubError)
  deriving DecidableEq, Repr

/-- `\w`. Beyond ASCII it has the letters, marks and digits of Unicode. -/
structure WordClass where
  isWord : Char → Bool
  ascii : ∀ c : Char, c.toNat < 128 → isWord c = (c.isAlphanum || c = '_')

section validators

/-- `[a-zA-Z0-9./_-]`. -/
def isPathChar (c : Char) : Bool := c.isAlphanum || c = '.' || c = '/' || c = '_' || c = '-'

/-- `[a-f0-9]`. -/
def isHashChar (c : Char) : Bool := c.isDigit || decide ('a' ≤ c ∧ c ≤ 'f')

variable (w : WordClass)

def repositoryName : Pattern Char :=
  plus (cls fun c => w.isWord c || c = '-' || c = '.' || c = '/')

def org : Pattern Char := plus (cls fun c => w.isWord c || c = '-')

/-- There is a boundary on both sides of hexadecimal digits. -/
def commitHash : Pattern Char := times 40 (cls isHashChar)

def branchName : Pattern Char := seq (cls Char.isAlpha) (star (cls isPathChar))

/-- `[a-zA-Z0-9\./_-]{1,128}`. -/
def path : Pattern Char := seq (cls isPathChar) (upTo 127 (cls isPathChar))

/-- The one that is not anchored finds its match anywhere. -/
def createValidators : List (String × (List Char → Bool)) :=
  [("repository_name", (repositoryName w).fullMatch), ("org", (org w).fullMatch),
    ("commit_hash", commitHash.fullMatch), ("branch_name", branchName.fullMatch),
    ("path", path.fullMatch), ("contains_parent_directory_component", (word ['.', '.']).search)]

/-- The function that `create_regex_validator_func` makes for a validator. -/
def validate (validator valueToValidate : String) : Except ApiError String :=
  match (createValidators w).lookup validator with
  | none => .error .impossibleError
  | some isMatch =>
    if isMatch valueToValidate.toList then .ok valueToValidate
    else .error (.gitHubError (.invalidInput valueToValidate))

def validateRepositoryName : String → Except ApiError String := validate w "repository_name"

def validateOrg : String → Except ApiError String := validate w "org"

def validateCommitHash : String → Except ApiError String := validate w "commit_hash"

def validateBranchName : String → Except ApiError String := validate w "branch_name"

def validatePath : String → Except ApiError String := validate w "path"

def validateContainsParentDirectoryComponent : String → Except ApiError String :=
  validate w "contains_parent_directory_component"

end validators

/-- The fields that the address is made of. -/
structure FetchFileRequest where
  organization : String
  repositoryName : String
  filePath : String
  reference : Option String

/-- The fields that are checked before the request is sent. -/
structure CreateOrUpdateFileRequest where
  owner : String
  repo : String
  path : String
  sha : Option String

section requests
variable (w : WordClass)

/-- The query parameter of a reference, which has to be a commit hash or the name of a branch. -/
def refQParam : Option String → Except ApiError String
  | none => .ok ""
  | some r =>
    if !(validateCommitHash w r).isOk && !(validateBranchName w r).isOk then .error .badRequest
    else .ok ("?ref=" ++ r)

/-- The address that is asked for. -/
def fetchFileWithCustomMediaType (request : FetchFileRequest) : Except ApiError String := do
  let organization ← validateOrg w request.organization
  let repositoryName ← validateRepositoryName w request.repositoryName
  let filePath := request.filePath
  if (validateContainsParentDirectoryComponent w filePath).isOk then throw .badRequest
  let refQParam ← refQParam w request.reference
  return "/repos/" ++ organization ++ "/" ++ repositoryName ++ "/contents/" ++ filePath ++ refQParam

/-- The address that the file is put at. -/
def createFile (request : CreateOrUpdateFileRequest) : Except ApiError String := do
  let owner ← validateOrg w request.owner
  let repo ← validateRepositoryName w request.repo
  let path ← validatePath w request.path
  let address := "/repos/" ++ owner ++ "/" ++ repo ++ "/contents/" ++ path
  match request.sha with
  | none => pure ()
  | some sha => let _ ← validateCommitHash w sha
  return address

end requests

inductive ContentsRequest where
  | fetchFile (request : FetchFileRequest)
  | createFile (request : CreateOrUpdateFileRequest)

namespace ContentsRequest

def address (w : WordClass) : ContentsRequest → Except ApiError String
  | .fetchFile request => fetchFileWithCustomMediaType w request
  | .createFile request => GithubContents.createFile w request

def organization : ContentsRequest → String
  | .fetchFile request => request.organization
  | .createFile request => request.owner

def repository : ContentsRequest → String
  | .fetchFile request => request.repositoryName
  | .createFile request => request.repo

def filePath : ContentsRequest → String
  | .fetchFile request => request.filePath
  | .createFile request => request.path

def reference : ContentsRequest → Option String
  | .fetchFile request => request.reference
  | .createFile _ => none

/-- Where the contents of the repository are. -/
def base (request : ContentsRequest) : List (List Char) :=
  ["repos".toList, percentEncode pathSet request.organization.toList,
    percentEncode pathSet request.repository.toList, "contents".toList]

/-- The address stays within the contents of the one repository, and the reference is all there is
of a query. -/
structure Confined (request : ContentsRequest) (url : Url) : Prop where
  path : ∃ rest, rest ≠ [] ∧ url.path = request.base ++ rest
  query : url.query = request.reference.map fun r => "ref=".toList ++ r.toList
  fragment : url.fragment = none

/-- What a parser has of the file path: a space at the end of an address is dropped, and a tab
wherever it is. -/
def received (request : ContentsRequest) : List Char :=
  removeTabs (if request.reference = none then trimEnd request.filePath.toList
    else request.filePath.toList)

/-- The name of the repository is one segment, and no dot segment. -/
structure OneSegment (request : ContentsRequest) : Prop where
  segment : '/' ∉ request.repository.toList
  notDot : request.repository.toList ≠ ['.']
  notDots : request.repository.toList ≠ ['.', '.']

/-- Besides, the file path has nothing that starts a query or a fragment, and its dot segments do not
lead out of the contents, or it comes back by the same way. -/
structure Harmless (request : ContentsRequest) : Prop extends OneSegment request where
  noQuery : '?' ∉ request.filePath.toList
  noFragment : '#' ∉ request.filePath.toList
  within : (route request.received).Within request.base

/-- What the validators ensure of an accepted request. -/
structure Accepted (w : WordClass) (request : ContentsRequest) : Prop where
  organization : ∀ c ∈ request.organization.toList, w.isWord c = true ∨ c = '-'
  repository : ∀ c ∈ request.repository.toList, w.isWord c = true ∨ c = '-' ∨ c = '.' ∨ c = '/'
  reference : ∀ r ∈ request.reference, ∀ c ∈ r.toList, isPathChar c = true

end ContentsRequest

/-- The query that is appended. -/
def refQuery : Option String → String
  | none => ""
  | some r => "?ref=" ++ r

section accepted
variable {w : WordClass} {validator s t : String} {isMatch : List Char → Bool}

theorem validate_ok (h : (createValidators w).lookup validator = some isMatch) :
    validate w validator s = .ok t ↔ isMatch s.toList = true ∧ s = t := by
  unfold validate
  rw [h]
  by_cases hm : isMatch s.toList = true <;> simp [hm]

theorem validateOrg_ok : validateOrg w s = .ok t ↔
    (s.toList ≠ [] ∧ ∀ c ∈ s.toList, w.isWord c = true ∨ c = '-') ∧ s = t := by
  rw [validateOrg, validate_ok rfl, fullMatch_iff, org, mem_plus_cls]
  simp

theorem validateRepositoryName_ok : validateRepositoryName w s = .ok t ↔
    (s.toList ≠ [] ∧
      ∀ c ∈ s.toList, w.isWord c = true ∨ c = '-' ∨ c = '.' ∨ c = '/') ∧ s = t := by
  rw [validateRepositoryName, validate_ok rfl, fullMatch_iff, repositoryName, mem_plus_cls]
  simp [or_assoc]

theorem isPathChar_of_isHashChar {c : Char} (h : isHashChar c = true) : isPathChar c = true := by
  have halpha : c.isAlphanum = true := by
    rw [isHashChar, Bool.or_eq_true, decide_eq_true_iff] at h
    rw [Char.isAlphanum, Bool.or_eq_true]
    refine h.symm.imp_left fun ⟨hlow, hhigh⟩ => ?_
    have hlower : c.isLower = true := by
      have hle : c ≤ 'z' := le_trans hhigh (show 'f' ≤ 'z' by decide)
      exact Bool.and_eq_true_iff.mpr ⟨decide_eq_true hlow, decide_eq_true hle⟩
    rw [Char.isAlpha, hlower, Bool.or_true]
  simp [isPathChar, halpha]

theorem validateCommitHash_ok (h : validateCommitHash w s = .ok t) :
    ∀ c ∈ s.toList, isPathChar c = true := by
  obtain ⟨hm, -⟩ := (validate_ok rfl).mp h
  exact fun c hc => isPathChar_of_isHashChar ((mem_times_cls.mp (fullMatch_iff.mp hm)).2 c hc)

theorem validateBranchName_ok (h : validateBranchName w s = .ok t) :
    ∀ c ∈ s.toList, isPathChar c = true := by
  obtain ⟨hm, -⟩ := (validate_ok rfl).mp h
  have hlang : s.toList ∈ branchName.lang := fullMatch_iff.mp hm
  cases hs : s.toList with
  | nil => simp
  | cons a cs =>
    rw [hs, branchName, cons_mem_seq_cls, mem_star_cls] at hlang
    refine List.forall_mem_cons.mpr ⟨?_, hlang.2⟩
    simp [isPathChar, Char.isAlphanum, hlang.1]

theorem refQParam_ok {reference : Option String} (h : refQParam w reference = .ok t) :
    (∀ r ∈ reference, ∀ c ∈ r.toList, isPathChar c = true) ∧
      t = refQuery reference := by
  cases reference with
  | none => exact ⟨by simp, (Except.ok.inj h).symm⟩
  | some r =>
    simp only [refQParam] at h
    split_ifs at h with hneither
    refine ⟨fun r' hr => ?_, (Except.ok.inj h).symm⟩
    obtain rfl := Option.some.inj hr
    cases hcommit : validateCommitHash w r with
    | ok v => exact validateCommitHash_ok hcommit
    | error e =>
      cases hbranch : validateBranchName w r with
      | ok v => exact validateBranchName_ok hbranch
      | error e' => simp [hcommit, hbranch, Except.isOk, Except.toBool] at hneither

/-- Only the path of a file that is created is held to a length and a set of characters. -/
theorem createFile_path {request : CreateOrUpdateFileRequest} {address : String}
    (h : createFile w request = .ok address) : request.path.toList.length ≤ 128 ∧
      ∀ c ∈ request.path.toList, isPathChar c = true := by
  simp only [createFile, bind_ok] at h
  obtain ⟨_, -, _, -, _, hvalid, -⟩ := h
  obtain ⟨hm, -⟩ := (validate_ok rfl).mp hvalid
  have hlang : request.path.toList ∈ path.lang := fullMatch_iff.mp hm
  cases hs : request.path.toList with
  | nil => simp
  | cons a cs =>
    rw [hs, path, cons_mem_seq_cls, mem_upTo_cls] at hlang
    obtain ⟨ha, hlength, hcs⟩ := hlang
    exact ⟨Nat.succ_le_succ hlength, List.forall_mem_cons.mpr ⟨ha, hcs⟩⟩

/-- The path of a file that is fetched has no two dots side by side, and that is all. -/
theorem fetchFile_path {request : FetchFileRequest} {address : String}
    (h : fetchFileWithCustomMediaType w request = .ok address) :
    ¬ ['.', '.'] <:+: request.filePath.toList := by
  intro hdots
  have hvalid : validateContainsParentDirectoryComponent w request.filePath = .ok request.filePath :=
    (validate_ok rfl).mpr ⟨search_word.mpr hdots, rfl⟩
  simp only [fetchFileWithCustomMediaType, bind_ok, hvalid] at h
  obtain ⟨_, -, _, -, h⟩ := h
  cases h

/-- An address that is built has these parts. -/
theorem address_ok {request : ContentsRequest} {address : String}
    (h : request.address w = .ok address) :
    request.Accepted w ∧ address = "/repos/" ++ request.organization ++ "/" ++ request.repository ++
      "/contents/" ++ request.filePath ++ refQuery request.reference := by
  cases request with
  | fetchFile request =>
    simp only [ContentsRequest.address, fetchFileWithCustomMediaType, bind_ok] at h
    obtain ⟨_, hvalid, _, hvalid', h⟩ := h
    obtain ⟨⟨-, horg⟩, rfl⟩ := validateOrg_ok.mp hvalid
    obtain ⟨⟨-, hrepo⟩, rfl⟩ := validateRepositoryName_ok.mp hvalid'
    split_ifs at h with hparent
    · cases h
    · obtain ⟨query, hquery, h⟩ := bind_ok.mp h
      obtain ⟨href, rfl⟩ := refQParam_ok hquery
      exact ⟨⟨horg, hrepo, href⟩, (Except.ok.inj h).symm⟩
  | createFile request =>
    simp only [ContentsRequest.address, createFile, bind_ok] at h
    obtain ⟨_, hvalid, _, hvalid', _, hpath, h⟩ := h
    obtain ⟨⟨-, horg⟩, rfl⟩ := validateOrg_ok.mp hvalid
    obtain ⟨⟨-, hrepo⟩, rfl⟩ := validateRepositoryName_ok.mp hvalid'
    obtain ⟨-, rfl⟩ := (validate_ok rfl).mp hpath
    refine ⟨⟨horg, hrepo, by simp [ContentsRequest.reference]⟩, ?_⟩
    have haddress : address = "/repos/" ++ request.owner ++ "/" ++ request.repo ++ "/contents/" ++
        request.path := by
      split at h
      · exact (Except.ok.inj h).symm
      · obtain ⟨_, -, h⟩ := bind_ok.mp h
        exact (Except.ok.inj h).symm
    exact haddress.trans String.append_empty.symm

end accepted

section parsed
variable {w : WordClass} {request : ContentsRequest} {c : Char}

theorem isWord_special (hc : c ∈ ['/', '\\', '?', '#', '%', '.', '\t', '\n', '\r', ' ']) :
    w.isWord c = false := by
  have hascii : ∀ c ∈ ['/', '\\', '?', '#', '%', '.', '\t', '\n', '\r', ' '],
      c.toNat < 128 ∧ (c.isAlphanum || c = '_') = false := by
    simp [Char.isAlphanum, Char.isAlpha, Char.isUpper, Char.isLower, Char.isDigit]
  rw [w.ascii c (hascii c hc).1]
  exact (hascii c hc).2

/-- The query as it is read from the address. -/
def queryText : Option String → List Char
  | none => []
  | some r => '?' :: ("ref=".toList ++ r.toList)

/-- What comes before the file path. -/
def head (request : ContentsRequest) : List Char :=
  "repos".toList ++ '/' :: (request.organization.toList ++ '/' ::
    (request.repository.toList ++ '/' :: "contents".toList))

theorem toList_address : ("/repos/" ++ request.organization ++ "/" ++ request.repository ++
      "/contents/" ++ request.filePath ++ refQuery request.reference).toList =
    '/' :: (head request ++ '/' :: (request.filePath.toList ++ queryText request.reference)) := by
  have hrepos : "/repos/".toList = '/' :: ("repos".toList ++ ['/']) := by decide
  have hcontents : "/contents/".toList = '/' :: ("contents".toList ++ ['/']) := by decide
  have hslash : "/".toList = ['/'] := by decide
  have hquery : (refQuery request.reference).toList = queryText request.reference := by
    cases request.reference with
    | none => rfl
    | some r =>
      have href : "?ref=".toList = '?' :: "ref=".toList := by decide
      rw [refQuery, queryText, String.toList_append, href, List.cons_append]
  simp only [String.toList_append, hrepos, hcontents, hslash, hquery, head]
  generalize "repos".toList = repos
  generalize "contents".toList = contents
  simp

theorem organization_notMem (h : request.Accepted w)
    (hc : c ∈ ['/', '\\', '?', '#', '%', '.', '\t', '\n', '\r', ' ']) :
    c ∉ request.organization.toList := by
  intro hin
  rcases h.organization c hin with hword | rfl
  · rw [isWord_special hc] at hword
    cases hword
  · exact absurd hc (by simp)

theorem repository_notMem (h : request.Accepted w)
    (hc : c ∈ ['\\', '?', '#', '%', '\t', '\n', '\r', ' ']) :
    c ∉ request.repository.toList := by
  have hspecial : ∀ c ∈ ['\\', '?', '#', '%', '\t', '\n', '\r', ' '],
      c ∈ ['/', '\\', '?', '#', '%', '.', '\t', '\n', '\r', ' '] ∧ c ∉ ['-', '.', '/'] := by simp
  obtain ⟨hc, hother⟩ := hspecial c hc
  intro hin
  rcases h.repository c hin with hword | hmarks
  · rw [isWord_special hc] at hword
    cases hword
  · exact hother (by simpa using hmarks)

theorem head_notMem (h : request.Accepted w) (hc : c ∈ ['?', '#', '\t', '\n', '\r']) :
    c ∉ head request := by
  have hspecial : ∀ c ∈ ['?', '#', '\t', '\n', '\r'],
      c ∈ ['\\', '?', '#', '%', '\t', '\n', '\r', ' '] ∧
        c ∈ ['/', '\\', '?', '#', '%', '.', '\t', '\n', '\r', ' '] ∧
        c ∉ "repos".toList ∧ c ≠ '/' ∧ c ∉ "contents".toList := by simp
  obtain ⟨hrepo, horg, hrepos, hslash, hcontents⟩ := hspecial c hc
  simp only [head, List.mem_append, List.mem_cons, hrepos, hslash, hcontents,
    organization_notMem h horg, repository_notMem h hrepo, or_self, not_false_eq_true]

/-- The codes of the letters, the digits, the dot, the slash, the underscore and the hyphen. -/
def PathCode (n : ℕ) : Prop :=
  45 ≤ n ∧ n ≤ 57 ∨ 65 ≤ n ∧ n ≤ 90 ∨ n = 95 ∨ 97 ≤ n ∧ n ≤ 122

instance (n : ℕ) : Decidable (PathCode n) := inferInstanceAs (Decidable (_ ∨ _))

theorem pathCode_of_isPathChar (h : isPathChar c = true) : PathCode c.toNat := by
  simp only [isPathChar, Char.isAlphanum, Char.isAlpha, Char.isUpper, Char.isLower, Char.isDigit,
    Bool.or_eq_true, Bool.and_eq_true, decide_eq_true_eq, ge_iff_le, UInt32.le_iff_toNat_le] at h
  change ((((((65 ≤ c.toNat ∧ c.toNat ≤ 90) ∨ (97 ≤ c.toNat ∧ c.toNat ≤ 122)) ∨
    (48 ≤ c.toNat ∧ c.toNat ≤ 57)) ∨ c = '.') ∨ c = '/') ∨ c = '_') ∨ c = '-' at h
  unfold PathCode
  rcases h with (((((h | h) | h) | rfl) | rfl) | rfl) | rfl
  · omega
  · omega
  · omega
  all_goals decide

theorem isPathChar_plain (h : isPathChar c = true) :
    isC0ControlOrSpace c = false ∧ isTabOrNewline c = false ∧ c ≠ '#' ∧ specialQuerySet c = false := by
  have hcode : PathCode c.toNat := pathCode_of_isPathChar h
  have hne : ∀ d : Char, ¬ PathCode d.toNat → c ≠ d := by
    rintro d hd rfl
    exact hd hcode
  have hrange : 0x20 < c.toNat ∧ c.toNat ≤ 0x7e := by
    unfold PathCode at hcode
    omega
  refine ⟨?_, ?_, hne '#' (by decide), ?_⟩
  · simpa [isC0ControlOrSpace] using hrange.1
  · simp [isTabOrNewline, hne '\t' (by decide), hne '\n' (by decide), hne '\r' (by decide)]
  · have hcontrol : c0Control c = false := by
      simp only [c0Control, Bool.or_eq_false_iff, decide_eq_false_iff_not]
      omega
    simp [specialQuerySet, querySet, hcontrol, hne ' ' (by decide), hne '"' (by decide),
      hne '#' (by decide), hne '<' (by decide), hne '>' (by decide), hne '\'' (by decide)]

theorem queryText_plain (h : request.Accepted w) {r : String} (hr : r ∈ request.reference) :
    ∀ c ∈ "ref=".toList ++ r.toList, isC0ControlOrSpace c = false ∧ isTabOrNewline c = false ∧
      c ≠ '#' ∧ specialQuerySet c = false := by
  have href : ∀ c ∈ "ref=".toList, isC0ControlOrSpace c = false ∧ isTabOrNewline c = false ∧
      c ≠ '#' ∧ specialQuerySet c = false := by
    simp [isC0ControlOrSpace, isTabOrNewline, specialQuerySet, querySet, c0Control]
  intro c hc
  rcases List.mem_append.mp hc with hc | hc
  · exact href c hc
  · exact isPathChar_plain (h.reference r hr c hc)

theorem queryText_noFragment (h : request.Accepted w) : '#' ∉ queryText request.reference := by
  cases href : request.reference with
  | none => simp [queryText]
  | some r =>
    intro hc
    rcases List.mem_cons.mp hc with hc | hc
    · cases hc
    · exact (queryText_plain h href '#' hc).2.2.1 rfl

/-- The parser has the file path as it is received, between what comes before it and the query. -/
theorem parse_address (h : request.Accepted w) :
    parse ('/' :: (head request ++ '/' :: (request.filePath.toList ++ queryText request.reference))) =
      pathState [] [] (head request ++ '/' :: (request.received ++ queryText request.reference)) := by
  have hhead : removeTabs (head request) = head request := by
    refine removeTabs_eq_self fun c hc => ?_
    by_contra htab
    have hin : c ∈ ['?', '#', '\t', '\n', '\r'] := by
      rw [Bool.not_eq_false, isTabOrNewline] at htab
      simp at htab ⊢
      tauto
    exact head_notMem h hin hc
  have hslash : isTabOrNewline '/' = false := by decide
  rw [parse_slash, trimEnd_append_cons (by decide), removeTabs, List.filter_append,
    List.filter_cons_of_pos (by simp [hslash]), ← removeTabs, ← removeTabs, hhead]
  congr 3
  unfold ContentsRequest.received
  cases href : request.reference with
  | none => simp [queryText]
  | some r =>
    have hr := queryText_plain h href
    rw [queryText, trimEnd_append_cons (by decide), trimEnd_eq_self fun c hc => (hr c hc).1,
      removeTabs, List.filter_append, List.filter_cons_of_pos (by decide), ← removeTabs, ← removeTabs,
      removeTabs_eq_self fun c hc => (hr c hc).2.1]
    simp

theorem mem_received (hspace : isC0ControlOrSpace c = false) (htab : isTabOrNewline c = false) :
    c ∈ request.received ↔ c ∈ request.filePath.toList := by
  rw [ContentsRequest.received, mem_removeTabs htab]
  split_ifs
  · exact mem_trimEnd hspace
  · rfl

theorem head_slash_notMem (h : request.Accepted w) (hc : c ∈ ['?', '#']) {a : List Char}
    (ha : c ∉ a) : c ∉ head request ++ '/' :: a := by
  have hspecial : ∀ c ∈ ['?', '#'], c ∈ ['?', '#', '\t', '\n', '\r'] ∧ c ≠ '/' := by simp
  obtain ⟨hc, hslash⟩ := hspecial c hc
  simp [head_notMem h hc, hslash, ha]

/-- A file path without a query and a fragment leaves the query to the reference. -/
theorem parsed_plain (h : request.Accepted w) (hquery : '?' ∉ request.received)
    (hfragment : '#' ∉ request.received) :
    pathState [] [] (head request ++ '/' :: (request.received ++ queryText request.reference)) =
      ⟨walk [] (pieces (head request ++ '/' :: request.received)),
        request.reference.map fun r => "ref=".toList ++ r.toList, none⟩ := by
  have hpath := @pathState_plain [] [] _ (head_slash_notMem h (by simp) hquery)
    (head_slash_notMem h (by simp) hfragment) (by simp)
  cases href : request.reference with
  | none => rw [queryText, List.append_nil, hpath]; rfl
  | some r =>
    have hr := queryText_plain h href
    have hassoc : head request ++ '/' :: (request.received ++ queryText (some r)) =
        (head request ++ '/' :: request.received) ++ '?' :: ("ref=".toList ++ r.toList) := by
      simp [queryText]
    rw [hassoc, pathState_query (head_slash_notMem h (by simp) hquery)
      (head_slash_notMem h (by simp) hfragment) fun hc => (hr _ hc).2.2.1 rfl, hpath,
      percentEncode_of_plain fun c hc => (hr c hc).2.2.2]
    rfl

/-- A question mark in the file path makes a query of its own. -/
theorem parsed_query (h : request.Accepted w) (hquery : '?' ∈ request.received)
    (hfragment : '#' ∉ request.received) :
    (pathState [] [] (head request ++ '/' :: (request.received ++ queryText request.reference))).query ≠
      request.reference.map fun r => "ref=".toList ++ r.toList := by
  obtain ⟨a, b, hab, ha⟩ := List.eq_append_cons_of_mem hquery
  rw [hab] at hfragment ⊢
  have hassoc : head request ++ '/' :: (a ++ '?' :: b ++ queryText request.reference) =
      (head request ++ '/' :: a) ++ '?' :: (b ++ queryText request.reference) := by simp
  have hrest : '#' ∉ b ++ queryText request.reference := by
    have hb : '#' ∉ b := fun hc => hfragment (by simp [hc])
    simpa [hb] using queryText_noFragment h
  have ha' : '#' ∉ a := fun hc => hfragment (List.mem_append_left _ hc)
  rw [hassoc, pathState_query (head_slash_notMem h (by simp) ha) (head_slash_notMem h (by simp) ha')
    hrest]
  cases href : request.reference with
  | none => simp
  | some r =>
    intro heq
    have hlen := length_le_percentEncode specialQuerySet (b ++ queryText (some r))
    rw [Option.some.inj heq] at hlen
    simp [queryText] at hlen
    omega

/-- The parser comes to the contents of the repository and goes on from there. -/
theorem walk_head (h : request.Accepted w) (hrepo : request.OneSegment) (cs : List Char) :
    walk [] (pieces (head request ++ '/' :: cs)) = walk request.base (pieces cs) := by
  have hsep : ∀ t : List Char, '/' ∉ t → '\\' ∉ t → ∀ c ∈ t, isSeparator c = false := by
    intro t hslash hback c hc
    by_contra hsep
    rw [Bool.not_eq_false, isSeparator, Bool.or_eq_true, decide_eq_true_eq, decide_eq_true_eq] at hsep
    rcases hsep with rfl | rfl
    · exact hslash hc
    · exact hback hc
  have horg : ∀ c ∈ request.organization.toList, isSeparator c = false :=
    hsep _ (organization_notMem h (by simp)) (organization_notMem h (by simp))
  have hname : ∀ c ∈ request.repository.toList, isSeparator c = false :=
    hsep _ hrepo.segment (repository_notMem h (by simp))
  have hsplit : head request ++ '/' :: cs = "repos".toList ++ '/' :: (request.organization.toList ++
      '/' :: (request.repository.toList ++ '/' :: ("contents".toList ++ '/' :: cs))) := by
    unfold head
    generalize "repos".toList = repos
    generalize "contents".toList = contents
    simp
  have hfixed : ∀ t ∈ ["repos".toList, "contents".toList], ∀ c ∈ t,
      isSeparator c = false ∧ c ≠ '%' ∧ c ≠ '.' ∧ pathSet c = false := by
    simp [isSeparator, pathSet, querySet, c0Control]
  have hrepos := hfixed "repos".toList (by simp)
  have hcontents := hfixed "contents".toList (by simp)
  have hpieces : pieces (head request ++ '/' :: cs) = "repos".toList ::
      request.organization.toList :: request.repository.toList :: "contents".toList :: pieces cs := by
    rw [hsplit, pieces_append (fun c hc => (hrepos c hc).1) rfl, pieces_append horg rfl,
      pieces_append hname rfl, pieces_append (fun c hc => (hcontents c hc).1) rfl]
  have hplain : ∀ (path : List (List Char)) (t : List Char), '%' ∉ t → '.' ∉ t →
      endSegment path t true = path ++ [percentEncode pathSet t] := fun path t hpercent hdot =>
    endSegment_plain hpercent (fun he => hdot (by simp [he])) (fun he => hdot (by simp [he])) true
  rw [hpieces, walk_cons (by simp), walk_cons (by simp), walk_cons (by simp),
    walk_cons (pieces_ne_nil cs),
    hplain _ _ (fun hc => (hrepos _ hc).2.1 rfl) fun hc => (hrepos _ hc).2.2.1 rfl,
    hplain _ _ (organization_notMem h (by simp)) (organization_notMem h (by simp)),
    endSegment_plain (repository_notMem h (by simp)) hrepo.notDot hrepo.notDots,
    hplain _ _ (fun hc => (hcontents _ hc).2.1 rfl) fun hc => (hcontents _ hc).2.2.1 rfl,
    percentEncode_of_plain fun c hc => (hrepos c hc).2.2.2,
    percentEncode_of_plain fun c hc => (hcontents c hc).2.2.2]
  rfl

/-- A name of several segments, or of a dot segment, is no segment of a path. -/
theorem oneSegment_of_mem {path : List (List Char)} (hpath : ∀ s ∈ path, Normal s)
    (h : percentEncode pathSet request.repository.toList ∈ path) :
    request.OneSegment := by
  have hnormal := hpath _ h
  refine ⟨fun hslash => ?_, fun hdot => ?_, fun hdots => ?_⟩
  · have hin : '/' ∈ percentEncode pathSet request.repository.toList :=
      List.mem_flatMap.mpr ⟨'/', hslash, by decide⟩
    exact absurd (hnormal.separator '/' hin) (by decide)
  · rw [hdot] at hnormal
    exact hnormal.notDot (by decide)
  · rw [hdots] at hnormal
    exact hnormal.notDots (by decide)

end parsed

/-- An accepted request keeps to the contents of the repository just when it is harmless. -/
theorem confined_iff (w : WordClass) (request : ContentsRequest) {address : String}
    (h : request.address w = .ok address) :
    request.Confined (parse address.toList) ↔ request.Harmless := by
  obtain ⟨hacc, rfl⟩ := address_ok h
  have hnormal := parse_normal
    ('/' :: (head request ++ '/' :: (request.filePath.toList ++ queryText request.reference)))
  rw [parse_address hacc] at hnormal
  rw [toList_address, parse_address hacc]
  by_cases hfragment : '#' ∈ request.filePath.toList
  · refine iff_of_false (fun hc => ?_) fun hh => hh.noFragment hfragment
    have hin : '#' ∈ request.received := (mem_received (by decide) (by decide)).mpr hfragment
    exact pathState_fragment (by simp [hin]) hc.fragment
  have hfragment' : '#' ∉ request.received :=
    mt (mem_received (by decide) (by decide)).mp hfragment
  by_cases hquery : '?' ∈ request.filePath.toList
  · refine iff_of_false (fun hc => ?_) fun hh => hh.noQuery hquery
    have hin : '?' ∈ request.received := (mem_received (by decide) (by decide)).mpr hquery
    exact parsed_query hacc hin hfragment' hc.query
  have hquery' : '?' ∉ request.received := mt (mem_received (by decide) (by decide)).mp hquery
  have hparsed := parsed_plain hacc hquery' hfragment'
  have hwithin : request.OneSegment → ((∃ rest, rest ≠ [] ∧
      walk [] (pieces (head request ++ '/' :: request.received)) = request.base ++ rest) ↔
        (route request.received).Within request.base) := by
    intro hone
    rw [walk_head hacc hone, ← route_follow, Route.within_iff]
  constructor
  · intro hc
    have hone : request.OneSegment := by
      obtain ⟨rest, -, hpath⟩ := hc.path
      exact oneSegment_of_mem hnormal (by simp [hpath, ContentsRequest.base])
    have hpath := hc.path
    rw [hparsed, hwithin hone] at hpath
    exact ⟨hone, hquery, hfragment, hpath⟩
  · intro hh
    rw [hparsed]
    exact ⟨(hwithin hh.toOneSegment).mpr hh.within, rfl, rfl⟩

section fetched

def asciiWords : WordClass where
  isWord c := c.isAlphanum || c = '_'
  ascii _ _ := rfl

def guide : ContentsRequest := .fetchFile ⟨"acme", "site", "docs/setup.md", some "main"⟩

theorem guide_address : guide.address asciiWords =
    .ok "/repos/acme/site/contents/docs/setup.md?ref=main" := by
  decide +kernel

theorem guide_confined :
    guide.Confined (parse "/repos/acme/site/contents/docs/setup.md?ref=main".toList) := by
  have hroute : (route guide.received).down = ["docs".toList, "setup.md".toList] := by
    decide +kernel
  have hup : (route guide.received).up = 0 := by decide +kernel
  have hwithin : (route guide.received).Within guide.base :=
    ⟨["docs".toList, "setup.md".toList], List.cons_ne_nil _ _, by rw [hroute, hup]; rfl⟩
  exact (confined_iff asciiWords guide guide_address).mpr
    ⟨⟨by decide, by decide, by decide⟩, by decide, by decide, hwithin⟩

/-- The dots of the path are encoded. -/
def escape : ContentsRequest :=
  .fetchFile ⟨"acme", "site", "%2e%2e/%2e%2e/other/contents/key.pem", none⟩

/-- The request is for the contents of another repository. -/
theorem encoded_dots_escape :
    escape.address asciiWords =
      .ok "/repos/acme/site/contents/%2e%2e/%2e%2e/other/contents/key.pem" ∧
    (parse "/repos/acme/site/contents/%2e%2e/%2e%2e/other/contents/key.pem".toList).path =
      ["repos".toList, "acme".toList, "other".toList, "contents".toList, "key.pem".toList] ∧
    ¬ escape.Confined
      (parse "/repos/acme/site/contents/%2e%2e/%2e%2e/other/contents/key.pem".toList) := by
  have hpath : (parse "/repos/acme/site/contents/%2e%2e/%2e%2e/other/contents/key.pem".toList).path =
      ["repos".toList, "acme".toList, "other".toList, "contents".toList, "key.pem".toList] := by
    decide +kernel
  refine ⟨by decide +kernel, hpath, fun h => ?_⟩
  obtain ⟨rest, -, hrest⟩ := h.path
  rw [hpath] at hrest
  have hname := congrArg (fun p : List (List Char) => p[2]?) hrest
  change some "other".toList = some (percentEncode pathSet "site".toList) at hname
  exact absurd hname (by decide +kernel)

end fetched
end PlaidRuntime.GithubContents
