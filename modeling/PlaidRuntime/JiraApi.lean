import PlaidRuntime.JwtIssuance
import PlaidRuntime.KeyedContent
import PlaidRuntime.MessageCodec
import PlaidRuntime.PagedFetch
import PlaidRuntime.RegexPattern
import PlaidRuntime.SeparatedText

/-!
# The Jira API

What a rule can ask of Jira (`apis/jira`), for which projects, and how a search goes through the
pages of its result.
-/
namespace PlaidRuntime.JiraApi
open KeyedContent MessageCodec PagedFetch RegexPattern Pattern
open JwtIssuance (isWhitespace)

section validators

inductive JiraError
  | unexpectedStatusCode (status : ℕ)
  | networkError (text : String)
  | invalidResponse
  | invalidInput (value : String)
  deriving DecidableEq, Repr

inductive ApiError
  | badRequest
  | impossibleError
  | jiraError (e : JiraError)
  deriving DecidableEq, Repr

/-- `\d` of the `regex` crate, the decimal digits of all scripts. -/
structure DecimalDigits where
  isDigit : Char → Bool
  dash : isDigit '-' = false

variable (digits : DecimalDigits)

def isKeyChar (c : Char) : Bool := c.isAlpha || c = '_' || c = '-'

/-- `[A-Za-z_-]{1,10}-\d{1,10}`. -/
def issueId : Pattern Char :=
  let key := cls isKeyChar
  let digit := cls digits.isDigit
  seq (seq key (upTo 9 key)) (seq (word ['-']) (seq digit (upTo 9 digit)))

/-- `[^\s@]+@[^\s@]+\.[^\s@]+`. -/
def email : Pattern Char :=
  let part := plus (cls fun c => !isWhitespace c && c ≠ '@')
  seq part (seq (word ['@']) (seq part (seq (word ['.']) part)))

def createValidators : List (String × Pattern Char) :=
  [("email", email), ("issue_id", issueId digits)]

def validate (validator value : String) : Except ApiError String :=
  match (createValidators digits).lookup validator with
  | none => .error .impossibleError
  | some pattern =>
    if pattern.fullMatch value.toList then .ok value
    else .error (.jiraError (.invalidInput value))

def validateEmail : String → Except ApiError String := validate digits "email"

def validateIssueId : String → Except ApiError String := validate digits "issue_id"

end validators

section requests

structure CreateIssueRequest where
  projectKey : String
  summary : String
  description : Json
  issuetypeName : Option String
  otherFields : AList fun _ : String => Json

/-- The extra fields are merged last. -/
def CreateIssueRequest.toPayload (request : CreateIssueRequest) : Json :=
  let fields := putAll (∅ : AList fun _ : String => Json)
    [("project", .obj [("key", .str request.projectKey)]), ("summary", .str request.summary),
      ("description", request.description)]
  let fields := match request.issuetypeName with
    | some name => fields.insert "issuetype" (.obj [("name", .str name)])
    | none => fields
  .obj [("fields", .obj (pairs (putAll fields (pairs request.otherFields))))]

structure UpdateIssueRequest where
  id : String
  fields : Option Json
  update : Option Json

def UpdateIssueRequest.toPayload (request : UpdateIssueRequest) : Except String Json :=
  match request.fields, request.update with
  | some f, some u => .ok (.obj [("fields", f), ("update", u)])
  | some f, none => .ok (.obj [("fields", f)])
  | none, some u => .ok (.obj [("update", u)])
  | none, none => .error "Both fields and update are missing"

structure PostCommentRequest where
  issueId : String
  comment : String

def PostCommentRequest.toPayload (request : PostCommentRequest) : Json :=
  .obj [("body", .obj [("type", .str "doc"), ("version", .num 1),
    ("content", .arr [.obj [("type", .str "paragraph"),
      ("content", .arr [.obj [("text", .str request.comment), ("type", .str "text")]])]])])]

structure SearchIssueRequest where
  jql : String
  maxResults : Option UInt32

/-- How the parameters of the functions are read. -/
structure Params where
  createIssue : String → Option CreateIssueRequest
  updateIssue : String → Option UpdateIssueRequest
  postComment : String → Option PostCommentRequest
  searchIssues : String → Option SearchIssueRequest

/-- The requests that go to Jira. -/
inductive JiraRequest
  | createIssue (payload : Json)
  | getIssue (issueId : String)
  | updateIssue (issueId : String) (payload : Json)
  | postComment (issueId : String) (payload : Json)
  | getUser (email : String)
  | searchIssues (percentEncodedJql : String) (nextPageToken : Option String)

def JiraRequest.url (baseUrl : String) : JiraRequest → String
  | .createIssue _ => s!"{baseUrl}/issue"
  | .getIssue issueId => s!"{baseUrl}/issue/{issueId}"
  | .updateIssue issueId _ => s!"{baseUrl}/issue/{issueId}"
  | .postComment issueId _ => s!"{baseUrl}/issue/{issueId}/comment"
  | .getUser email => s!"{baseUrl}/user/search?query={email}"
  | .searchIssues jql none => s!"{baseUrl}/search/jql?fields=id,key&jql={jql}"
  | .searchIssues jql (some token) =>
    s!"{baseUrl}/search/jql?fields=id,key&jql={jql}&nextPageToken={token}"

structure Jira where
  baseUrl : String
  modulePermissions : AList fun _ : String => List String

variable (digits : DecimalDigits) (read : Params) (jira : Jira) (encode : String → String)
  (module : String)

def Jira.validateModulePermission (project : String) : Except ApiError Unit :=
  match jira.modulePermissions.lookup module with
  | some v => if project ∈ v then .ok () else .error .badRequest
  | none => .error .badRequest

/-- The text before the first dash. -/
def projectOf (issueId : String) : String := String.ofList ((issueId.toList.splitOn '-').headD [])

/-- The checks that the functions about one issue share. -/
def checkIssue (id : String) : Except ApiError String := do
  let issueId ← validateIssueId digits id
  jira.validateModulePermission module (projectOf issueId)
  return issueId

def orBadRequest {α : Type} : Option α → Except ApiError α
  | some a => .ok a
  | none => .error .badRequest

/-! What each function does before it sends its first request. -/

def createIssue (params : String) : Except ApiError JiraRequest := do
  let request ← orBadRequest (read.createIssue params)
  jira.validateModulePermission module request.projectKey
  return .createIssue request.toPayload

def getIssue (params : String) : Except ApiError JiraRequest := do
  let issueId ← checkIssue digits jira module params
  return .getIssue issueId

def updateIssue (params : String) : Except ApiError JiraRequest := do
  let request ← orBadRequest (read.updateIssue params)
  let issueId ← checkIssue digits jira module request.id
  match request.toPayload with
  | .ok payload => return .updateIssue issueId payload
  | .error _ => throw .badRequest

def getUser (params : String) : Except ApiError JiraRequest := do
  let email ← validateEmail digits params
  return .getUser email

def postComment (params : String) : Except ApiError JiraRequest := do
  let request ← orBadRequest (read.postComment params)
  let issueId ← checkIssue digits jira module request.issueId
  return .postComment issueId request.toPayload

/-- `encode` is that of the `urlencoding` crate. -/
def searchIssues (params : String) : Except ApiError JiraRequest := do
  let request ← orBadRequest (read.searchIssues params)
  return .searchIssues (encode request.jql) none

inductive Function
  | createIssue
  | getIssue
  | updateIssue
  | getUser
  | postComment
  | searchIssues
  deriving DecidableEq, Repr

def firstRequest (f : Function) (params : String) : Except ApiError JiraRequest :=
  match f with
  | .createIssue => createIssue read jira module params
  | .getIssue => getIssue digits jira module params
  | .updateIssue => updateIssue digits read jira module params
  | .getUser => getUser digits params
  | .postComment => postComment digits read jira module params
  | .searchIssues => searchIssues read encode params

end requests

section permitted
variable {digits : DecimalDigits} {read : Params} {jira : Jira} {encode : String → String}
  {module id : String}

/-- The request is about an issue of that project, or creates one there. -/
def InProject (project : String) : JiraRequest → Prop
  | .createIssue payload => ∃ fields, payload = .obj [("fields", .obj fields)] ∧
      ("project", .obj [("key", .str project)]) ∈ fields
  | .getIssue id => ∃ number : List Char, '-' ∉ number ∧ id.toList = project.toList ++ '-' :: number
  | .updateIssue id _ => ∃ number : List Char, '-' ∉ number ∧ id.toList = project.toList ++ '-' :: number
  | .postComment id _ => ∃ number : List Char, '-' ∉ number ∧ id.toList = project.toList ++ '-' :: number
  | .getUser _ => False
  | .searchIssues _ _ => False

variable (jira module) in
def permissions : List String := (jira.modulePermissions.lookup module).getD []

variable (jira module) in
/-- Users and searches are open to every module. -/
def Permitted : JiraRequest → Prop
  | .getUser _ => True
  | .searchIssues _ _ => True
  | r => ∃ project ∈ permissions jira module, InProject project r

theorem validateModulePermission_ok {project : String} :
    jira.validateModulePermission module project = .ok () ↔ project ∈ permissions jira module := by
  rw [Jira.validateModulePermission, permissions]
  cases jira.modulePermissions.lookup module with
  | none => simp
  | some v => simp

theorem splitOn_headD (t : List Char) (c : Char) : (t.splitOn c).headD [] = t.takeWhile (· ≠ c) := by
  induction t with
  | nil => simp
  | cons a t ih =>
    obtain ⟨q, l, hsplit⟩ := List.exists_cons_of_ne_nil (List.splitOn_ne_nil c t)
    rw [hsplit, List.headD_cons] at ih
    rw [List.splitOn_cons_eq_if_modifyHead, hsplit]
    by_cases hac : a = c
    · simp [hac]
    · simp [hac, ih]

theorem mem_issueId {w : List Char} (h : w ∈ (issueId digits).lang) :
    ∃ key number, w = key ++ '-' :: number ∧ '-' ∉ number := by
  obtain ⟨key, -, rest, hrest, rfl⟩ := mem_seq.mp h
  obtain ⟨dash, hdash, number, hnumber, rfl⟩ := mem_seq.mp hrest
  rw [mem_word] at hdash
  subst hdash
  refine ⟨key, number, rfl, fun hmem => ?_⟩
  obtain ⟨first, hfirst, others, hothers, rfl⟩ := mem_seq.mp hnumber
  obtain ⟨d, hd, rfl⟩ := mem_cls.mp hfirst
  have hall : ∀ c ∈ [d] ++ others, digits.isDigit c = true := by
    intro c hc
    obtain hc | hc := List.mem_append.mp hc
    · rw [List.mem_singleton.mp hc]
      exact hd
    · exact (mem_upTo_cls.mp hothers).2 c hc
  have hdigit := hall '-' hmem
  rw [digits.dash] at hdigit
  cases hdigit

theorem validateIssueId_ok {i : String} :
    validateIssueId digits id = .ok i ↔ i = id ∧ id.toList ∈ (issueId digits).lang := by
  have hlookup : (createValidators digits).lookup "issue_id" = some (issueId digits) := rfl
  rw [validateIssueId, validate, hlookup]
  simp only [← fullMatch_iff]
  by_cases hmatch : (issueId digits).fullMatch id.toList = true
  · simp [hmatch, eq_comm]
  · simp [hmatch]

theorem checkIssue_ok {i : String} (h : checkIssue digits jira module id = .ok i) :
    i = id ∧ projectOf id ∈ permissions jira module ∧
      ∃ key number, id.toList = key ++ '-' :: number ∧ '-' ∉ number := by
  rw [checkIssue] at h
  obtain ⟨valid, hvalid, hrest⟩ := Fallible.bind_ok.mp h
  obtain ⟨hid, hlang⟩ := validateIssueId_ok.mp hvalid
  obtain ⟨_, hpermitted, hi⟩ := Fallible.bind_ok.mp hrest
  rw [hid] at hpermitted hi
  exact ⟨(Except.ok.inj hi).symm, validateModulePermission_ok.mp hpermitted, mem_issueId hlang⟩

variable (jira module) in
/-- What stands before the last dash of an issue ID is in the list of the module if it has a dash
itself. -/
def KeyListed (id : String) : Prop := ∀ key number : List Char, id.toList = key ++ '-' :: number →
  '-' ∉ number → '-' ∈ key → String.ofList key ∈ permissions jira module

theorem inProject_iff (h : checkIssue digits jira module id = .ok id) :
    (∃ project ∈ permissions jira module, ∃ number : List Char, '-' ∉ number ∧
      id.toList = project.toList ++ '-' :: number) ↔ KeyListed jira module id := by
  obtain ⟨-, hfirst, key, number, hid, hnumber⟩ := checkIssue_ok h
  constructor
  · rintro ⟨project, hproject, number', hnumber', hid'⟩ key' number'' hid'' hnumber'' -
    obtain ⟨rfl, -⟩ := SeparatedText.eq_of_last hnumber'' hnumber' (hid''.symm.trans hid')
    rwa [String.ofList_toList]
  · intro hlisted
    refine ⟨String.ofList key, ?_, number, hnumber, by rw [String.toList_ofList, hid]⟩
    by_cases hdash : '-' ∈ key
    · exact hlisted key number hid hnumber hdash
    · have htake : key.takeWhile (· ≠ '-') = key := by
        rw [List.takeWhile_eq_self_iff]
        intro c hc
        have hne : c ≠ '-' := fun heq => hdash (heq ▸ hc)
        simpa using hne
      have hproject : projectOf id = String.ofList key := by
        rw [projectOf, splitOn_headD, hid]
        congr 1
        rw [List.takeWhile_append, htake]
        simp
      rwa [← hproject]

theorem project_of_payload {request : CreateIssueRequest} {project : String} :
    InProject project (.createIssue request.toPayload) ↔
      (request.otherFields.lookup "project").getD (.obj [("key", .str request.projectKey)]) =
        .obj [("key", .str project)] := by
  have hfields : ∀ c : AList fun _ : String => Json,
      c.lookup "project" = some (.obj [("key", .str request.projectKey)]) →
      (("project", Json.obj [("key", .str project)]) ∈ pairs (putAll c (pairs request.otherFields)) ↔
        (request.otherFields.lookup "project").getD (.obj [("key", .str request.projectKey)]) =
          .obj [("key", .str project)]) := by
    intro c hc
    rw [mem_pairs, lookup_putAll_pairs, hc]
    cases request.otherFields.lookup "project" <;> simp
  have hpayload : ∀ fields : List (String × Json), InProject project (.createIssue (.obj [("fields",
      .obj fields)])) ↔ ("project", Json.obj [("key", .str project)]) ∈ fields := by
    intro fields
    simp [InProject]
  rw [CreateIssueRequest.toPayload, hpayload]
  cases request.issuetypeName with
  | none => exact hfields _ rfl
  | some name => exact hfields _ rfl

variable (digits read jira encode module) in
/-- What the parameters have to keep to. -/
def KeepsTo (f : Function) (params : String) : Prop :=
  match f with
  | .createIssue => ∀ request v, read.createIssue params = some request →
      request.otherFields.lookup "project" = some v →
        ∃ project ∈ permissions jira module, v = .obj [("key", .str project)]
  | .getIssue => KeyListed jira module params
  | .updateIssue => ∀ request, read.updateIssue params = some request →
      KeyListed jira module request.id
  | .getUser => True
  | .postComment => ∀ request, read.postComment params = some request →
      KeyListed jira module request.issueId
  | .searchIssues => True

theorem orBadRequest_ok {α : Type} {o : Option α} {a : α} : orBadRequest o = .ok a ↔ o = some a := by
  cases o <;> simp [orBadRequest]

theorem createIssue_permitted_iff {params : String} {r : JiraRequest}
    (h : createIssue read jira module params = .ok r) : Permitted jira module r ↔
      ∀ request v, read.createIssue params = some request →
        request.otherFields.lookup "project" = some v →
          ∃ project ∈ permissions jira module, v = .obj [("key", .str project)] := by
  rw [createIssue] at h
  obtain ⟨request, hread, hrest⟩ := Fallible.bind_ok.mp h
  obtain ⟨_, hpermitted, hr⟩ := Fallible.bind_ok.mp hrest
  have hread := orBadRequest_ok.mp hread
  have hpermitted := validateModulePermission_ok.mp hpermitted
  obtain rfl : JiraRequest.createIssue request.toPayload = r := Except.ok.inj hr
  simp only [Permitted, project_of_payload]
  constructor
  · rintro ⟨project, hproject, hfield⟩ request' v hread' hlookup
    obtain rfl : request = request' := Option.some.inj (hread.symm.trans hread')
    rw [hlookup, Option.getD_some] at hfield
    exact ⟨project, hproject, hfield⟩
  · intro hkeeps
    cases hlookup : request.otherFields.lookup "project" with
    | none => exact ⟨request.projectKey, hpermitted, rfl⟩
    | some v =>
      obtain ⟨project, hproject, rfl⟩ := hkeeps request v hread hlookup
      exact ⟨project, hproject, rfl⟩

theorem inProject_read_iff {α : Type} {o : Option α} {request : α} {issueOf : α → String}
    (hread : o = some request)
    (hcheck : checkIssue digits jira module (issueOf request) = .ok (issueOf request)) :
    (∃ project ∈ permissions jira module, ∃ number : List Char, '-' ∉ number ∧
      (issueOf request).toList = project.toList ++ '-' :: number) ↔
        ∀ request', o = some request' → KeyListed jira module (issueOf request') := by
  subst hread
  simp only [Option.some.injEq, forall_eq']
  exact inProject_iff hcheck

theorem updateIssue_permitted_iff {params : String} {r : JiraRequest}
    (h : updateIssue digits read jira module params = .ok r) : Permitted jira module r ↔
      ∀ request, read.updateIssue params = some request → KeyListed jira module request.id := by
  rw [updateIssue] at h
  obtain ⟨request, hread, hrest⟩ := Fallible.bind_ok.mp h
  obtain ⟨i, hcheck, hr⟩ := Fallible.bind_ok.mp hrest
  have hread := orBadRequest_ok.mp hread
  obtain rfl := (checkIssue_ok hcheck).1
  cases hpayload : request.toPayload with
  | error e =>
    rw [hpayload] at hr
    cases hr
  | ok payload =>
    rw [hpayload] at hr
    obtain rfl : JiraRequest.updateIssue request.id payload = r := Except.ok.inj hr
    exact inProject_read_iff hread hcheck

theorem postComment_permitted_iff {params : String} {r : JiraRequest}
    (h : postComment digits read jira module params = .ok r) : Permitted jira module r ↔
      ∀ request, read.postComment params = some request → KeyListed jira module request.issueId := by
  rw [postComment] at h
  obtain ⟨request, hread, hrest⟩ := Fallible.bind_ok.mp h
  obtain ⟨i, hcheck, hr⟩ := Fallible.bind_ok.mp hrest
  have hread := orBadRequest_ok.mp hread
  obtain rfl := (checkIssue_ok hcheck).1
  obtain rfl : JiraRequest.postComment request.issueId request.toPayload = r := Except.ok.inj hr
  exact inProject_read_iff hread hcheck

/-- Whatever a module asks of Jira, the first request is for a project in its list exactly when the
extra fields of a new issue name no other and no key with a dash in it, of which only the part
before the first dash is looked up, stands in an issue ID without being in the list. -/
theorem jira_requests_permitted (digits : DecimalDigits) (read : Params) (jira : Jira)
    (encode : String → String) (module : String) {f : Function} {params : String} {r : JiraRequest}
    (h : firstRequest digits read jira encode module f params = .ok r) :
    Permitted jira module r ↔ KeepsTo read jira module f params := by
  cases f with
  | createIssue => exact createIssue_permitted_iff h
  | getIssue =>
    obtain ⟨i, hcheck, hr⟩ := Fallible.bind_ok.mp h
    obtain rfl := (checkIssue_ok hcheck).1
    obtain rfl : JiraRequest.getIssue i = r := Except.ok.inj hr
    exact inProject_iff hcheck
  | updateIssue => exact updateIssue_permitted_iff h
  | getUser =>
    obtain ⟨address, -, hr⟩ := Fallible.bind_ok.mp h
    obtain rfl : JiraRequest.getUser address = r := Except.ok.inj hr
    exact Iff.rfl
  | postComment => exact postComment_permitted_iff h
  | searchIssues =>
    obtain ⟨request, -, hr⟩ := Fallible.bind_ok.mp h
    obtain rfl : JiraRequest.searchIssues (encode request.jql) none = r := Except.ok.inj hr
    exact Iff.rfl

def asciiDigits : DecimalDigits := ⟨Char.isDigit, by decide⟩

def noParams : Params := ⟨fun _ => none, fun _ => none, fun _ => none, fun _ => none⟩

/-- A module of the project MY. -/
def myModule : Jira := ⟨"https://jira", AList.singleton "rule.wasm" ["MY"]⟩

/-- It is let through to an issue of MY-PROJ. -/
theorem jira_requests_permitted_sample :
    firstRequest asciiDigits noParams myModule (fun t => t) "rule.wasm" .getIssue "MY-PROJ-123" =
      .ok (.getIssue "MY-PROJ-123") ∧
    ¬Permitted myModule "rule.wasm" (.getIssue "MY-PROJ-123") := by
  have hsent : firstRequest asciiDigits noParams myModule (fun t => t) "rule.wasm" .getIssue "MY-PROJ-123" =
      .ok (.getIssue "MY-PROJ-123") := by rfl
  refine ⟨hsent, fun hpermitted => ?_⟩
  have hkeeps :=
    (jira_requests_permitted asciiDigits noParams myModule (fun t => t) "rule.wasm" hsent).mp hpermitted
  have hlisted := hkeeps "MY-PROJ".toList "123".toList (by decide) (by decide) (by decide)
  exact absurd hlisted (by decide)

end permitted

section search

structure JiraIssue where
  id : String
  key : String
  deriving DecidableEq, Repr

structure JiraSearchResponse where
  isLast : Bool
  issues : List JiraIssue
  nextPageToken : Option String
  deriving DecidableEq, Repr

structure Response where
  status : ℕ
  body : Option String
  deriving DecidableEq, Repr

/-- `get` gives the text of the error of the client library when there is no response. -/
def fetchPage (baseUrl : String) (parse : String → Option JiraSearchResponse)
    (get : String → Except String Response) (r : JiraRequest) : Except ApiError JiraSearchResponse :=
  match get (r.url baseUrl) with
  | .error e => .error (.jiraError (.networkError e))
  | .ok response =>
    if response.status ≠ 200 then .error (.jiraError (.unexpectedStatusCode response.status))
    else match response.body.bind parse with
      | some page => .ok page
      | none => .error (.jiraError .invalidResponse)

variable (maxResults : Option UInt32) (jql : String)

/-- The length is compared as a number of 32 bits. -/
def enough (length : ℕ) : Bool := maxResults.any fun m => decide (m.toNat ≤ length)

def truncate (issues : List JiraIssue) : List JiraIssue :=
  maxResults.elim issues fun m => issues.take m.toNat

def searchTurn (_ : JiraRequest) (result : List JiraIssue) :
    Except ApiError JiraSearchResponse →
      Turn JiraRequest (List JiraIssue) (Except ApiError (List JiraIssue))
  | .error e => .stop (.error e)
  | .ok currentPage =>
    let result := result ++ currentPage.issues
    if enough maxResults (result.length % 2 ^ 32) then .stop (.ok (truncate maxResults result))
    else if currentPage.isLast then .stop (.ok result)
    else match currentPage.nextPageToken with
      | some token => .more (.searchIssues jql (some token)) result
      | none => .stop (.ok result)

variable (page : ℕ → JiraRequest → Except ApiError JiraSearchResponse)

/-- The loop over the pages of a search. -/
def searchPages (fuel : ℕ) : Option (Except ApiError (List JiraIssue)) :=
  fetch page (searchTurn maxResults jql) fuel 0 (.searchIssues jql none) []

/-- From a token on, and after that many pages, Jira answers the search with these pages. -/
inductive Serves : ℕ → Option String → List (List JiraIssue) → Prop
  | last {n : ℕ} {token : Option String} {response : JiraSearchResponse}
      (asked : page n (.searchIssues jql token) = .ok response)
      (is_last : response.isLast = true ∨ response.nextPageToken = none) :
      Serves n token [response.issues]
  | more {n : ℕ} {token : Option String} {next : String} {response : JiraSearchResponse}
      {rest : List (List JiraIssue)} (asked : page n (.searchIssues jql token) = .ok response)
      (not_last : response.isLast = false) (has_next : response.nextPageToken = some next)
      (after : Serves (n + 1) (some next) rest) : Serves n token (response.issues :: rest)

/-- How many pages it takes until there are enough issues. -/
def pagesNeeded : (got : ℕ) → List (List JiraIssue) → ℕ
  | _, [] => 0
  | got, issues :: rest =>
    if enough maxResults (got + issues.length) then 1
    else pagesNeeded (got + issues.length) rest + 1

variable {maxResults jql page}

theorem truncate_append {issues rest : List JiraIssue} (h : enough maxResults issues.length = true) :
    truncate maxResults (issues ++ rest) = truncate maxResults issues := by
  cases maxResults with
  | none => cases h
  | some m =>
    have hle : m.toNat ≤ issues.length := by simpa [enough] using h
    simp only [truncate, Option.elim]
    rw [List.take_append_of_le_length hle]

theorem truncate_of_not_enough {issues : List JiraIssue} (h : enough maxResults issues.length = false) :
    truncate maxResults issues = issues := by
  cases maxResults with
  | none => rfl
  | some m =>
    have hlt : issues.length < m.toNat := by simpa [enough] using h
    exact List.take_of_length_le hlt.le

theorem searchPages_serves {n : ℕ} {token : Option String} {pages : List (List JiraIssue)}
    (h : Serves jql page n token pages) {got : List JiraIssue}
    (hfew : got.length + pages.flatten.length < 2 ^ 32) (fuel : ℕ) :
    fetch page (searchTurn maxResults jql) fuel n (.searchIssues jql token) got =
      if pagesNeeded maxResults got.length pages ≤ fuel then
        some (.ok (truncate maxResults (got ++ pages.flatten))) else none := by
  induction h generalizing got fuel with
  | @last n token response asked is_last =>
    rw [List.flatten_singleton] at hfew ⊢
    have hone : pagesNeeded maxResults got.length [response.issues] = 1 := by
      simp [pagesNeeded]
    have hturn : searchTurn maxResults jql (.searchIssues jql token) got
        (page n (.searchIssues jql token)) = .stop (.ok (truncate maxResults (got ++ response.issues))) := by
      have hmod : (got ++ response.issues).length % 2 ^ 32 = (got ++ response.issues).length :=
        Nat.mod_eq_of_lt (by rwa [List.length_append])
      simp only [asked, searchTurn, hmod]
      cases henough : enough maxResults (got ++ response.issues).length with
      | true => rfl
      | false =>
        rw [truncate_of_not_enough henough]
        obtain hlast | hnone := is_last
        · simp [hlast]
        · simp [hnone]
    cases fuel with
    | zero => simp [fetch, hone]
    | succ fuel => rw [fetch_stop hturn, hone, if_pos (Nat.le_add_left 1 fuel)]
  | @more n token next response rest asked not_last has_next after ih =>
    rw [List.flatten_cons] at hfew ⊢
    have hlength : (got ++ response.issues).length = got.length + response.issues.length :=
      List.length_append
    have hmod : (got ++ response.issues).length % 2 ^ 32 = (got ++ response.issues).length :=
      Nat.mod_eq_of_lt (by rw [hlength]; rw [List.length_append] at hfew; omega)
    cases fuel with
    | zero =>
      have hpos : ¬pagesNeeded maxResults got.length (response.issues :: rest) ≤ 0 := by
        rw [pagesNeeded]
        split_ifs <;> simp
      rw [if_neg hpos]
      rfl
    | succ fuel =>
      cases henough : enough maxResults (got ++ response.issues).length with
      | true =>
        have hturn : searchTurn maxResults jql (.searchIssues jql token) got
            (page n (.searchIssues jql token)) =
              .stop (.ok (truncate maxResults (got ++ response.issues))) := by
          simp only [asked, searchTurn, hmod, henough, if_true]
        have hone : pagesNeeded maxResults got.length (response.issues :: rest) = 1 := by
          rw [pagesNeeded, ← hlength, if_pos henough]
        rw [fetch_stop hturn, hone, if_pos (Nat.le_add_left 1 fuel), ← List.append_assoc,
          truncate_append henough]
      | false =>
        have hturn : searchTurn maxResults jql (.searchIssues jql token) got
            (page n (.searchIssues jql token)) =
              .more (.searchIssues jql (some next)) (got ++ response.issues) := by
          simp only [asked, searchTurn, hmod, henough, not_last, has_next, Bool.false_eq_true, if_false]
        have hneeded : pagesNeeded maxResults got.length (response.issues :: rest) =
            pagesNeeded maxResults (got ++ response.issues).length rest + 1 := by
          rw [pagesNeeded, ← hlength, henough, if_neg Bool.false_ne_true]
        have hfew' : (got ++ response.issues).length + rest.flatten.length < 2 ^ 32 := by
          rw [List.length_append] at hfew
          omega
        rw [fetch_more hturn, ih hfew' fuel, hneeded, List.append_assoc]
        exact if_congr Nat.succ_le_succ_iff.symm rfl rfl

theorem pagesNeeded_le (got : ℕ) (pages : List (List JiraIssue)) :
    pagesNeeded maxResults got pages ≤ pages.length := by
  induction pages generalizing got with
  | nil => exact le_rfl
  | cons issues rest ih =>
    rw [pagesNeeded, List.length_cons]
    split_ifs
    · omega
    · exact Nat.succ_le_succ (ih _)

/-- A page is asked for only while there are not enough issues. -/
theorem not_enough_before {got k : ℕ} {pages : List (List JiraIssue)} (hpos : 0 < k)
    (hk : k < pagesNeeded maxResults got pages) :
    enough maxResults (got + (pages.take k).flatten.length) = false := by
  induction pages generalizing got k with
  | nil => simp [pagesNeeded] at hk
  | cons issues rest ih =>
    rw [pagesNeeded] at hk
    obtain ⟨k, rfl⟩ : ∃ j, k = j + 1 := Nat.exists_eq_add_one_of_ne_zero hpos.ne'
    split_ifs at hk with henough
    · omega
    · rw [List.take_succ_cons, List.flatten_cons, List.length_append, ← Nat.add_assoc]
      cases k with
      | zero => simpa using henough
      | succ k => exact ih (Nat.succ_pos k) (Nat.lt_of_succ_lt_succ hk)

/-- Whatever Jira answers, there are no more issues than asked for. -/
theorem searchPages_le {fuel : ℕ} {issues : List JiraIssue} {m : UInt32}
    (h : searchPages (some m) jql page fuel = some (.ok issues)) : issues.length % 2 ^ 32 ≤ m.toNat := by
  have hstops : ∀ issues', Except.ok issues = Except.ok (ε := ApiError) issues' →
      issues'.length % 2 ^ 32 ≤ m.toNat := by
    refine fetch_stops (J := fun _ _ _ => True)
      (Q := fun result => ∀ issues', result = .ok issues' → issues'.length % 2 ^ 32 ≤ m.toNat)
      (fun n r got result _ hturn issues' hresult => ?_) (fun _ _ _ _ _ _ _ => trivial) trivial h
    subst hresult
    cases hpage : page n r with
    | error e =>
      rw [hpage] at hturn
      cases hturn
    | ok response =>
      rw [hpage] at hturn
      simp only [searchTurn] at hturn
      split_ifs at hturn with henough hlast
      · cases hturn
        simp only [truncate, Option.elim, List.length_take]
        exact (Nat.mod_le _ _).trans (Nat.min_le_left _ _)
      · cases hturn
        have hlt : (got ++ response.issues).length % 2 ^ 32 < m.toNat := by simpa [enough] using henough
        exact hlt.le
      · have hlt : (got ++ response.issues).length % 2 ^ 32 < m.toNat := by simpa [enough] using henough
        cases hnext : response.nextPageToken with
        | none =>
          rw [hnext] at hturn
          cases hturn
          exact hlt.le
        | some token =>
          rw [hnext] at hturn
          cases hturn
  exact hstops issues rfl

/-- A search that Jira answers with pages, each of which leads to the next, returns the issues of all
of them in order, cut at the number asked for, and asks for no page after the first that is not
needed for that. Whatever Jira answers, there are never more issues than asked for. -/
theorem jira_search_complete (baseUrl : String) (parse : String → Option JiraSearchResponse)
    (get : ℕ → String → Except String Response) (maxResults : Option UInt32) (jql : String) :
    (∀ pages, Serves jql (fun n => fetchPage baseUrl parse (get n)) 0 none pages →
        pages.flatten.length < 2 ^ 32 →
      (∀ fuel, searchPages maxResults jql (fun n => fetchPage baseUrl parse (get n)) fuel =
        if pagesNeeded maxResults 0 pages ≤ fuel then
          some (.ok (truncate maxResults pages.flatten)) else none) ∧
      pagesNeeded maxResults 0 pages ≤ pages.length ∧
      ∀ k, 0 < k → k < pagesNeeded maxResults 0 pages →
        enough maxResults (pages.take k).flatten.length = false) ∧
    ∀ m fuel issues, maxResults = some m →
      searchPages maxResults jql (fun n => fetchPage baseUrl parse (get n)) fuel =
        some (.ok issues) →
      issues.length % 2 ^ 32 ≤ m.toNat := by
  refine ⟨fun pages hserves hfew => ⟨fun fuel => ?_, pagesNeeded_le 0 pages, fun k hpos hk => ?_⟩,
    fun m fuel issues hm h => ?_⟩
  · exact searchPages_serves hserves (by simpa using hfew) fuel
  · simpa using not_enough_before hpos hk
  · subst hm
    exact searchPages_le h

def firstIssues : List JiraIssue := [⟨"10001", "MY-1"⟩, ⟨"10002", "MY-2"⟩]

def lastIssues : List JiraIssue := [⟨"10003", "MY-3"⟩, ⟨"10004", "MY-4"⟩]

def firstText : String := "\x7b\"isLast\":false,\"issues\":[\x7b\"id\":\"10001\",\"key\":\"MY-1\"\x7d," ++
  "\x7b\"id\":\"10002\",\"key\":\"MY-2\"\x7d],\"nextPageToken\":\"Ch0\"\x7d"

def lastText : String := "\x7b\"isLast\":true,\"issues\":[\x7b\"id\":\"10003\",\"key\":\"MY-3\"\x7d," ++
  "\x7b\"id\":\"10004\",\"key\":\"MY-4\"\x7d]\x7d"

def parseSample (text : String) : Option JiraSearchResponse :=
  if text = firstText then some ⟨false, firstIssues, some "Ch0"⟩
  else if text = lastText then some ⟨true, lastIssues, none⟩
  else none

/-- A token is good for the turn after the one that it was given out in. -/
def getSample (n : ℕ) (url : String) : Except String Response :=
  if n = 0 ∧ url = "https://jira/search/jql?fields=id,key&jql=project%3DMY" then
    .ok ⟨200, some firstText⟩
  else if n = 1 ∧
      url = "https://jira/search/jql?fields=id,key&jql=project%3DMY&nextPageToken=Ch0" then
    .ok ⟨200, some lastText⟩
  else .ok ⟨400, none⟩

/-- Of four issues on two pages three are asked for. -/
theorem jira_search_complete_sample :
    searchPages (some 3) "project%3DMY"
        (fun n => fetchPage "https://jira" parseSample (getSample n)) 2 =
      some (.ok [⟨"10001", "MY-1"⟩, ⟨"10002", "MY-2"⟩, ⟨"10003", "MY-3"⟩]) := by
  let page n := fetchPage "https://jira" parseSample (getSample n)
  have hserves : Serves "project%3DMY" page 0 none [firstIssues, lastIssues] := by
    have hfirst : page 0 (.searchIssues "project%3DMY" none) =
        .ok ⟨false, firstIssues, some "Ch0"⟩ := by decide
    have hlast : page 1 (.searchIssues "project%3DMY" (some "Ch0")) =
        .ok ⟨true, lastIssues, none⟩ := by decide
    have hafter : Serves "project%3DMY" page 1 (some "Ch0") [lastIssues] := .last hlast (.inl rfl)
    exact .more hfirst rfl rfl hafter
  obtain ⟨hall, -⟩ := jira_search_complete "https://jira" parseSample getSample (some 3) "project%3DMY"
  exact (hall [firstIssues, lastIssues] hserves (by decide)).1 2

end search
end PlaidRuntime.JiraApi
