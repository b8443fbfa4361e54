import PlaidRuntime.Fallible
import PlaidRuntime.Substitution
import PlaidRuntime.GuestMemory

/-!
# Named web requests

`make_named_request` of `apis/general/network.rs`: what is sent for a configured request, with
the dynamic headers and the variables a rule supplies, and what comes back. Header names are
parsed by the `http` crate, whose `HeaderMap` keeps one value for each entry it is built from.
-/
namespace PlaidRuntime.NamedRequest
open Fallible KeyedContent GuestMemory Substitution

/-- `HashMap<String, String>`. -/
abbrev Strings : Type := AList fun _ : String => String

inductive ApiError where
  | badRequest
  | configurationError (text : String)
  | networkError
  | networkResponseTooLarge
  | testMode
  deriving DecidableEq, Repr

structure Request where
  verb : String
  uri : String
  body : Option String
  returnBody : Bool
  returnCode : Bool
  returnCert : Bool
  allowedRules : List String
  headers : Strings
  availableInTestMode : Bool
  maxResponseSize : Option ℕ

inductive MnrResponseEncoding where
  | utf8
  | binary
  deriving DecidableEq, Repr

structure MakeRequestRequest where
  body : String
  requestName : String
  «variables» : Strings
  headers : Option Strings
  responseEncoding : MnrResponseEncoding

structure PlaidModule where
  name : String
  testMode : Bool

/-- The configured requests, and the names of those that have a client of their own. -/
structure General where
  webRequests : AList fun _ : String => Request
  specialized : List String

/-- A header name without its case. -/
def lower (name : String) : String := String.ofList (name.toList.map Char.toLower)

/-- What the `http` crate accepts as a header, and what it says when it does not. -/
structure Http where
  headerName : String → Option String
  headerValue : String → Bool
  invalidName : String
  invalidValue : String
  /-- Names are kept in lower case. -/
  lowerCase : ∀ {s n}, headerName s = some n → n = lower s

inductive Verb where
  | delete
  | get
  | patch
  | post
  | put
  | head
  deriving DecidableEq, Repr

/-- A request as it is handed to `send`; `client` is `none` for the default one. -/
structure Sent where
  client : Option String
  verb : Verb
  uri : String
  headers : List (String × String)
  body : String
  deriving DecidableEq, Repr

/-- What the network makes of a request. The body arrives in chunks, `none` is a read error. -/
inductive Reply where
  | failed
  | answered (status : ℕ) (peerCertificate : Option Bytes) (chunks : List (Option Bytes))

inductive ResponseData where
  | utf8 (text : String)
  | binary (data : Bytes)

structure DynamicWebRequestResponse where
  code : Option ℕ
  data : Option ResponseData
  cert : Option Bytes

/-- The values sent under a name, which is compared without regard to case. -/
def Sent.valuesUnder (sent : Sent) (name : String) : List String :=
  (sent.headers.filter fun e => e.1 = lower name).map Prod.snd

section preparation
variable (general : General) (http : Http) (order : Iteration String)

def makeNamedRequestCheckPermissions (requestName : String) (module : PlaidModule) :
    Except ApiError Request :=
  match general.webRequests.lookup requestName with
  | none => .error .badRequest
  | some spec =>
    if module.name ∉ spec.allowedRules then .error .badRequest
    else if module.testMode ∧ ¬ spec.availableInTestMode then .error .testMode
    else .ok spec

/-- `dynamic_headers.extend(static_headers)`. -/
def headersToInclude (spec : Request) (dynamic : Option Strings) : Strings :=
  match dynamic with
  | some dynamic => putAll dynamic (pairs spec.headers)
  | none => spec.headers

/-- One entry of the map as an entry of the `HeaderMap`. -/
def header (e : String × String) : Except String (String × String) :=
  match http.headerName e.1 with
  | none => .error http.invalidName
  | some name => if http.headerValue e.2 then .ok (name, e.2) else .error http.invalidValue

/-- `TryFrom<&HashMap>` of `HeaderMap`. -/
def headerMap (headers : Strings) : Except String (List (String × String)) :=
  (order.entries headers).mapM (header http)

/-- What stands for a variable in the template. -/
def placeholder (name : String) : String := String.ofList ('{' :: name.toList ++ ['}'])

/-- The template with the variables replaced one after the other. -/
def substituted (spec : Request) (request : MakeRequestRequest) : String :=
  interpolate placeholder (order.entries request.variables) spec.uri

def verbAndUri (spec : Request) (uri : String) : Except ApiError (Verb × String) :=
  match spec.verb with
  | "delete" => .ok (.delete, uri)
  | "get" => .ok (.get, uri)
  | "patch" => .ok (.patch, uri)
  | "post" => .ok (.post, uri)
  | "put" => .ok (.put, uri)
  | "head" => .ok (.head, spec.uri)
  | _ => .error .badRequest

def getClient (requestName : String) : Option String :=
  if requestName ∈ general.specialized then some requestName else none

/-- `make_named_request` up to the call of `send`. -/
def prepare (request : MakeRequestRequest) (module : PlaidModule) :
    Except ApiError (Request × Sent) := do
  let spec ← makeNamedRequestCheckPermissions general request.requestName module
  let headers ← (headerMap http order (headersToInclude spec request.headers)).mapError fun e =>
    .configurationError (request.requestName ++ " has the headers misconfigured: " ++ e)
  let (verb, uri) ← verbAndUri spec (substituted order spec request)
  .ok (spec, ⟨getClient general request.requestName, verb, uri, headers,
    spec.body.getD request.body⟩)

end preparation

section response

/-- The chunks of the body, until one fails or the limit is passed. -/
def readBody (limit : Option ℕ) : List (Option Bytes) → Bytes → Except ApiError Bytes
  | [], body => .ok body
  | none :: _, _ => .error .networkError
  | some chunk :: chunks, body =>
    if limit.any fun max => max < body.length + chunk.length then
      .error .networkResponseTooLarge
    else readBody limit chunks (body ++ chunk)

def decode (encoding : MnrResponseEncoding) (body : Bytes) : ResponseData :=
  match encoding with
  | .utf8 => .utf8 ((fromUtf8 body).getD "")
  | .binary => .binary body

/-- `make_named_request` from the answer of `send` on. -/
def respond (spec : Request) (encoding : MnrResponseEncoding) :
    Reply → Except ApiError DynamicWebRequestResponse
  | .failed => .error .networkError
  | .answered status peerCertificate chunks => do
    let code := if spec.returnCode then some status else none
    let cert := if spec.returnCert then peerCertificate else none
    let data ← if spec.returnBody then do
        let body ← readBody spec.maxResponseSize chunks []
        .ok (some (decode encoding body))
      else .ok none
    .ok ⟨code, data, cert⟩

end response

/-- The request that was sent, if any, and what the rule gets back. -/
structure Outcome where
  sent : Option Sent
  result : Except ApiError DynamicWebRequestResponse

/-- `make_named_request`; `params` is what `serde_json` reads from the rule's text. -/
def makeNamedRequest (general : General) (http : Http) (order : Iteration String) (send : Sent → Reply)
    (params : Option MakeRequestRequest) (module : PlaidModule) : Outcome :=
  match params with
  | none => ⟨none, .error .badRequest⟩
  | some request =>
    match prepare general http order request module with
    | .error e => ⟨none, .error e⟩
    | .ok (spec, sent) => ⟨some sent, respond spec request.responseEncoding (send sent)⟩

section sending
variable {general : General} {http : Http} {order : Iteration String} {send : Sent → Reply}
  {request : MakeRequestRequest} {module : PlaidModule} {spec : Request} {sent : Sent}

/-- The crate takes the entry as a header. -/
def Accepted (http : Http) (e : String × String) : Prop :=
  (http.headerName e.1).isSome ∧ http.headerValue e.2

theorem header_ok_iff {e x : String × String} :
    header http e = .ok x ↔ Accepted http e ∧ x = (lower e.1, e.2) := by
  cases hn : http.headerName e.1 with
  | none => simp [header, Accepted, hn]
  | some n =>
    by_cases hv : http.headerValue e.2
    · simp [header, Accepted, hn, hv, http.lowerCase hn, eq_comm]
    · simp [header, Accepted, hn, hv]

theorem headerMap_ok_iff {m : Strings} {x : List (String × String)} :
    headerMap http order m = .ok x ↔ (∀ e ∈ pairs m, Accepted http e) ∧
      x = (order.entries m).map fun e => (lower e.1, e.2) := by
  rw [headerMap, mapM_ok fun e x => header_ok_iff]
  simp only [(order.perm m).mem_iff]

theorem prepare_ok_iff : prepare general http order request module = .ok (spec, sent) ↔
    makeNamedRequestCheckPermissions general request.requestName module = .ok spec ∧
      ∃ headers, headerMap http order (headersToInclude spec request.headers) = .ok headers ∧
        ∃ x, verbAndUri spec (substituted order spec request) = .ok x ∧
          sent = ⟨getClient general request.requestName, x.1, x.2, headers,
            spec.body.getD request.body⟩ := by
  simp only [prepare, bind_ok, mapError_ok]
  constructor
  · intro h
    obtain ⟨found, hc, headers, hh, x, hx, h⟩ := h
    obtain ⟨rfl, rfl⟩ : found = spec ∧ _ = sent := by simpa using h
    exact ⟨hc, headers, hh, x, hx, rfl⟩
  · intro h
    obtain ⟨hc, headers, hh, x, hx, rfl⟩ := h
    exact ⟨spec, hc, headers, hh, x, hx, rfl⟩

theorem sent_iff : (makeNamedRequest general http order send (some request) module).sent =
    some sent ↔ ∃ spec, prepare general http order request module = .ok (spec, sent) := by
  cases h : prepare general http order request module with
  | error e => simp [makeNamedRequest, h]
  | ok x => simp [makeNamedRequest, h, Prod.ext_iff]

theorem checkPermissions_lookup
    (h : makeNamedRequestCheckPermissions general request.requestName module = .ok spec) :
    general.webRequests.lookup request.requestName = some spec := by
  unfold makeNamedRequestCheckPermissions at h
  cases hl : general.webRequests.lookup request.requestName with
  | none => simp [hl] at h
  | some found =>
    simp only [hl] at h
    split_ifs at h
    simpa using h

/-- What is sent for the configured request. -/
theorem sent_spec (hspec : general.webRequests.lookup request.requestName = some spec)
    (h : (makeNamedRequest general http order send (some request) module).sent = some sent) :
    prepare general http order request module = .ok (spec, sent) := by
  obtain ⟨found, hprep⟩ := sent_iff.mp h
  have hfound := checkPermissions_lookup (prepare_ok_iff.mp hprep).1
  obtain rfl : found = spec := Option.some.inj (hfound.symm.trans hspec)
  exact hprep

/-- Each entry of the merged map is sent under its name in lower case. -/
theorem sent_headers (h : prepare general http order request module = .ok (spec, sent)) :
    sent.headers = (order.entries (headersToInclude spec request.headers)).map
      fun e => (lower e.1, e.2) := by
  obtain ⟨-, headers, hh, x, -, rfl⟩ := prepare_ok_iff.mp h
  exact (headerMap_ok_iff.mp hh).2

theorem lookup_headersToInclude (spec : Request) (dynamic : Option Strings) (name : String) :
    (headersToInclude spec dynamic).lookup name =
      (spec.headers.lookup name).or (dynamic.bind fun d => d.lookup name) := by
  cases dynamic with
  | none => simp [headersToInclude]
  | some d => simp [headersToInclude, lookup_putAll_pairs]

theorem mem_headersToInclude {spec : Request} {dynamic : Option Strings} {name : String} :
    name ∈ headersToInclude spec dynamic ↔
      name ∈ spec.headers ∨ ∃ m, dynamic = some m ∧ name ∈ m := by
  rw [← AList.lookup_isSome, lookup_headersToInclude, Option.isSome_or, Bool.or_eq_true,
    AList.lookup_isSome]
  cases dynamic with
  | none => simp
  | some d => simp [AList.lookup_isSome]

/-- Only a rule on the list sends the request, in test mode only where that is configured. -/
theorem sent_permitted (hspec : general.webRequests.lookup request.requestName = some spec)
    (h : (makeNamedRequest general http order send (some request) module).sent = some sent) :
    module.name ∈ spec.allowedRules ∧ (module.testMode → spec.availableInTestMode) := by
  have hc := (prepare_ok_iff.mp (sent_spec hspec h)).1
  rw [makeNamedRequestCheckPermissions, hspec] at hc
  by_cases hrule : module.name ∈ spec.allowedRules
  · by_cases htest : module.testMode ∧ ¬ spec.availableInTestMode
    · simp [hrule, htest] at hc
    · exact ⟨hrule, fun hm => by simpa [hm] using htest⟩
  · simp [hrule] at hc

/-- A body that is returned is within the limit. -/
theorem readBody_le {limit : ℕ} {chunks : List (Option Bytes)} {body read : Bytes}
    (hbody : body.length ≤ limit) (h : readBody (some limit) chunks body = .ok read) :
    read.length ≤ limit := by
  induction chunks generalizing body with
  | nil =>
    obtain rfl := Except.ok.inj h
    exact hbody
  | cons chunk chunks ih =>
    cases chunk with
    | none => cases h
    | some chunk =>
      simp only [readBody, Option.any_some, decide_eq_true_eq] at h
      split_ifs at h with hover
      exact ih (by simp only [List.length_append]; omega) h

end sending

section configuration

/-- A crate that takes letters, digits and hyphens in names and any value. -/
def plainHttp : Http where
  headerName := fun s =>
    if s ≠ "" ∧ s.toList.all (fun c => c.isAlphanum || c = '-') then some (lower s) else none
  headerValue := fun _ => true
  invalidName := "invalid HTTP header name"
  invalidValue := "failed to parse header value"
  lowerCase := by
    intro s n h
    split_ifs at h
    exact (Option.some.inj h).symm

def asInserted : Iteration String := ⟨pairs, fun _ => .refl _⟩

def oneByOne (l : List (String × String)) : Strings := putAll ∅ l

def exampleSpec : Request where
  verb := "get"
  uri := "https://api/" ++ placeholder "a"
  body := none
  returnBody := true
  returnCode := true
  returnCert := false
  allowedRules := ["rule"]
  headers := oneByOne [("Authorization", "configured")]
  availableInTestMode := false
  maxResponseSize := none

def exampleGeneral (spec : Request) : General := ⟨AList.singleton "lookup" spec, []⟩

def exampleRequest (vars : List (String × String)) (dynamic : List (String × String)) :
    MakeRequestRequest := ⟨"", "lookup", oneByOne vars, some (oneByOne dynamic), .utf8⟩

def exampleSent (spec : Request) (vars dynamic : List (String × String)) : Option Sent :=
  (makeNamedRequest (exampleGeneral spec) plainHttp asInserted (fun _ => .failed)
    (some (exampleRequest vars dynamic)) ⟨"rule", false⟩).sent

end configuration

section precedence

/-- No configured header is also given, by the configuration or by the rule, in another
spelling. -/
def SpelledAlike (static : Strings) (dynamic : Option Strings) : Prop :=
  ∀ h ∈ static, ∀ d, (d ∈ static ∨ ∃ m, dynamic = some m ∧ d ∈ m) → lower d = lower h → d = h

/-- Among entries with distinct keys, one alone satisfies a predicate. -/
theorem filter_eq_singleton_iff {l : List (String × String)} (hl : (l.map Prod.fst).Nodup)
    {p : String × String → Bool} {e : String × String} (he : e ∈ l) (hpe : p e) :
    (l.filter p).map Prod.snd = [e.2] ↔ ∀ x ∈ l, p x → x.1 = e.1 := by
  have hin : e ∈ l.filter p := List.mem_filter.mpr ⟨he, hpe⟩
  constructor
  · intro h x hx hpx
    obtain ⟨y, hy, -⟩ := List.map_eq_singleton_iff.mp h
    rw [hy, List.mem_singleton] at hin
    have hxy : x ∈ l.filter p := List.mem_filter.mpr ⟨hx, hpx⟩
    rw [hy, List.mem_singleton] at hxy
    rw [hxy, hin]
  · intro h
    have hperm : (l.filter p).Perm [e] := by
      refine (List.perm_ext_iff_of_nodup ((List.Nodup.of_map _ hl).filter _) (by simp)).mpr ?_
      intro x
      constructor
      · intro hx
        obtain ⟨hx, hpx⟩ := List.mem_filter.mp hx
        exact List.mem_singleton.mpr (List.inj_on_of_nodup_map hl hx he (h x hx hpx))
      · intro hx
        rwa [List.mem_singleton.mp hx]
    simp [List.perm_singleton.mp hperm]

theorem valuesUnder_eq {sent : Sent} {l : List (String × String)}
    (h : sent.headers = l.map fun e => (lower e.1, e.2)) (name : String) :
    sent.valuesUnder name = (l.filter fun e => lower e.1 = lower name).map Prod.snd := by
  simp [Sent.valuesUnder, h, List.filter_map, Function.comp_def]

/-- The configured headers reach the other side unchanged and alone exactly when no header is
spelled in two ways. -/
theorem static_headers_alone_iff {general : General} {http : Http} {order : Iteration String}
    {send : Sent → Reply} {request : MakeRequestRequest} {module : PlaidModule} {spec : Request}
    {sent : Sent} (hspec : general.webRequests.lookup request.requestName = some spec)
    (hsent : (makeNamedRequest general http order send (some request) module).sent = some sent) :
    (∀ h v, spec.headers.lookup h = some v → sent.valuesUnder h = [v]) ↔
      SpelledAlike spec.headers request.headers := by
  have hheaders := sent_headers (sent_spec hspec hsent)
  have hperm := order.perm (headersToInclude spec request.headers)
  have hnodup : ((order.entries (headersToInclude spec request.headers)).map Prod.fst).Nodup :=
    ((hperm.map _).nodup_iff).mpr (pairs_keys_nodup _)
  have hmem : ∀ k v, (k, v) ∈ order.entries (headersToInclude spec request.headers) ↔
      (headersToInclude spec request.headers).lookup k = some v := by
    intro k v
    rw [hperm.mem_iff, mem_pairs]
  have halone : ∀ h v, spec.headers.lookup h = some v → (sent.valuesUnder h = [v] ↔
      ∀ d ∈ headersToInclude spec request.headers, lower d = lower h → d = h) := by
    intro h v hv
    have hin : (h, v) ∈ order.entries (headersToInclude spec request.headers) := by
      rw [hmem, lookup_headersToInclude, hv]
      rfl
    rw [valuesUnder_eq hheaders, filter_eq_singleton_iff hnodup hin (by simp)]
    constructor
    · intro hall d hd hlower
      obtain ⟨w, hw⟩ := Option.isSome_iff_exists.mp (AList.lookup_isSome.mpr hd)
      exact hall (d, w) ((hmem d w).mpr hw) (by simpa using hlower)
    · intro hall x hx hlower
      refine hall x.1 (AList.lookup_isSome.mp ?_) (by simpa using hlower)
      simp [(hmem x.1 x.2).mp hx]
  simp only [mem_headersToInclude] at halone
  constructor
  · intro hall h hh
    obtain ⟨v, hv⟩ := Option.isSome_iff_exists.mp (AList.lookup_isSome.mpr hh)
    exact (halone h v hv).mp (hall h v hv)
  · intro halike h v hv
    exact (halone h v hv).mpr (halike h (AList.lookup_isSome.mp (by simp [hv])))

/-- A dynamic header under another name leaves the configured one alone. -/
theorem configured_header_alone : ∃ sent,
    exampleSent exampleSpec [] [("Accept", "text/html")] = some sent ∧
      ∀ h v, exampleSpec.headers.lookup h = some v → sent.valuesUnder h = [v] := by
  have hsent : (makeNamedRequest (exampleGeneral exampleSpec) plainHttp asInserted
      (fun _ => .failed) (some (exampleRequest [] [("Accept", "text/html")]))
      ⟨"rule", false⟩).sent = some _ := rfl
  refine ⟨_, rfl, (static_headers_alone_iff rfl hsent).mpr ?_⟩
  intro h hh d hd hlower
  have hh : h = "Authorization" := by simpa using (show h ∈ ["Authorization"] from hh)
  subst hh
  obtain hd | ⟨m, hm, hd⟩ := hd
  · simpa using (show d ∈ ["Authorization"] from hd)
  · obtain rfl := Option.some.inj hm
    have hd : d = "Accept" := by simpa using (show d ∈ ["Accept"] from hd)
    subst hd
    exact absurd hlower (by decide)

/-- A rule spells the configured header in lower case and both values are sent. -/
theorem other_spelling_sent_too : ∃ sent,
    exampleSent exampleSpec [] [("authorization", "other")] = some sent ∧
      exampleSpec.headers.lookup "Authorization" = some "configured" ∧
      sent.valuesUnder "Authorization" = ["configured", "other"] :=
  ⟨_, rfl, by decide, by decide⟩

end precedence

section variables_of_the_uri
variable {general : General} {http : Http} {order : Iteration String} {send : Sent → Reply}
  {request : MakeRequestRequest} {module : PlaidModule} {spec : Request} {sent : Sent}

/-- The verb does not depend on the variables, and `head` does not use them at all. -/
theorem verbAndUri_ok {uri : String} {x : Verb × String} (h : verbAndUri spec uri = .ok x)
    (uri' : String) :
    verbAndUri spec uri' = .ok (x.1, if spec.verb = "head" then spec.uri else uri') := by
  unfold verbAndUri at h ⊢
  split at h
  case h_7 => cases h
  all_goals
    obtain rfl := Except.ok.inj h
    simp_all

theorem sent_uri (h : prepare general http order request module = .ok (spec, sent)) :
    sent.uri = if spec.verb = "head" then spec.uri else substituted order spec request := by
  obtain ⟨-, headers, -, x, hx, rfl⟩ := prepare_ok_iff.mp h
  have := hx.symm.trans (verbAndUri_ok hx (substituted order spec request))
  exact congrArg Prod.snd (Except.ok.inj this)

/-- The order of the maps does not decide whether a request is sent. -/
theorem prepare_any_order (h : prepare general http order request module = .ok (spec, sent))
    (order' : Iteration String) : ∃ sent', prepare general http order' request module = .ok (spec, sent') := by
  obtain ⟨hc, headers, hh, x, hx, -⟩ := prepare_ok_iff.mp h
  exact ⟨_, prepare_ok_iff.mpr ⟨hc, _, headerMap_ok_iff.mpr ⟨(headerMap_ok_iff.mp hh).1, rfl⟩, _,
    verbAndUri_ok hx _, rfl⟩⟩

/-- The requested location is the template with its variables filled in at once, and no step on
the way to it replaced text that a value brought in. -/
def RequestsFilled (spec : Request) (vars : Strings) (order : Iteration String) (uri : String) : Prop :=
  uri = filled placeholder vars spec.uri ∧
    (spec.verb ≠ "head" → AtOnce placeholder vars spec.uri (order.entries vars))

/-- With any of the other variables filled in, a placeholder stands nowhere but where the
template has it; a `head` request has no placeholder that filling in would change. -/
def OwnPlaceholdersOnly (spec : Request) (vars : Strings) : Prop :=
  if spec.verb = "head" then filled placeholder vars spec.uri = spec.uri
  else ∀ n ∈ vars, ∀ others ⊆ vars.keys.toFinset, n ∉ others →
    ∀ piece ∈ between placeholder vars spec.uri others n, ¬ (placeholder n).toList <:+: piece

theorem placeholder_ne_empty (n : String) : placeholder n ≠ "" := by
  rw [Ne, ← String.toList_inj]
  simp [placeholder]

theorem placeholder_unbordered {n : String} (h : '{' ∉ n.toList) :
    Unbordered (patternOf placeholder n) := by
  rw [patternOf, placeholder, String.toList_ofList]
  exact unbordered_of_head (by simpa using h)

/-- Without braces in the names, the replacements commute exactly when no value, with the text
around it, makes up a placeholder. -/
theorem placeholders_atOnce_iff {vars : Strings} {text : String}
    (hnames : ∀ n ∈ vars, '{' ∉ n.toList ∧ '}' ∉ n.toList) :
    (∀ order : Iteration String, AtOnce placeholder vars text (order.entries vars)) ↔
      ∀ n ∈ vars, ∀ others ⊆ vars.keys.toFinset, n ∉ others →
        ∀ piece ∈ between placeholder vars text others n, ¬ (placeholder n).toList <:+: piece := by
  rw [Iteration.forall_iff, atOnce_iff placeholder_ne_empty]
  refine forall₂_congr fun n hn => forall₃_congr fun others _ hnot => ?_
  have hp : patternOf placeholder n ≠ [] := by simp [patternOf, placeholder]
  exact cutsOwn_iff _ _ hnot hp (placeholder_unbordered (hnames n hn).1)

/-- In every order of the maps the filled-in template is requested exactly when the placeholders
found on the way are those of the template. -/
theorem requested_uri_filled_iff
    (hspec : general.webRequests.lookup request.requestName = some spec)
    (hsent : (makeNamedRequest general http order send (some request) module).sent = some sent)
    (hnames : ∀ n ∈ request.variables, '{' ∉ n.toList ∧ '}' ∉ n.toList) :
    (∀ order sent, (makeNamedRequest general http order send (some request) module).sent = some sent →
      RequestsFilled spec request.variables order sent.uri) ↔
      OwnPlaceholdersOnly spec request.variables := by
  have hprep := sent_spec hspec hsent
  have hruns : (∀ order sent, (makeNamedRequest general http order send (some request) module).sent =
      some sent → RequestsFilled spec request.variables order sent.uri) ↔
      ∀ order, RequestsFilled spec request.variables order
        (if spec.verb = "head" then spec.uri else substituted order spec request) := by
    constructor
    · intro h order
      obtain ⟨sent', hsent'⟩ := prepare_any_order hprep order
      rw [← sent_uri hsent']
      exact h order sent' (sent_iff.mpr ⟨spec, hsent'⟩)
    · intro h order sent hsent
      rw [sent_uri (sent_spec hspec hsent)]
      exact h order
  rw [hruns]
  unfold RequestsFilled OwnPlaceholdersOnly
  by_cases hhead : spec.verb = "head"
  · simp only [hhead, if_true, ne_eq, not_true, false_implies, and_true]
    constructor
    · intro h
      exact (h order).symm
    · intro h order
      exact h.symm
  · simp only [if_neg hhead]
    rw [← placeholders_atOnce_iff hnames]
    refine forall_congr' fun order => ?_
    constructor
    · intro h
      exact h.2 hhead
    · intro h
      exact ⟨h.result, fun _ => h⟩

def twoVariables : Request :=
  { exampleSpec with uri := "https://api/" ++ placeholder "a" ++ "?page=" ++ placeholder "b" }

/-- Values without braces are filled in. -/
theorem values_filled : ∃ sent,
    (makeNamedRequest (exampleGeneral twoVariables) plainHttp asInserted (fun _ => .failed)
      (some (exampleRequest [("b", "2"), ("a", "1")] [])) ⟨"rule", false⟩).sent = some sent ∧
    sent.uri = "https://api/1?page=2" ∧
    RequestsFilled twoVariables (oneByOne [("b", "2"), ("a", "1")]) asInserted sent.uri := by
  have hsent : (makeNamedRequest (exampleGeneral twoVariables) plainHttp asInserted
      (fun _ => .failed) (some (exampleRequest [("b", "2"), ("a", "1")] [])) ⟨"rule", false⟩).sent =
      some _ := rfl
  have hown : ∀ n ∈ ["a", "b"], ∀ others ∈ ["a", "b"].toFinset.powerset, n ∉ others →
      ∀ piece ∈ between placeholder (oneByOne [("b", "2"), ("a", "1")]) twoVariables.uri others n,
        ¬ (placeholder n).toList <:+: piece := by
    decide +kernel
  refine ⟨_, hsent, by decide, (requested_uri_filled_iff rfl hsent ?_).mpr ?_ asInserted _ hsent⟩
  · exact (by decide : ∀ n ∈ ["a", "b"], '{' ∉ n.toList ∧ '}' ∉ n.toList)
  · exact fun n hn others hothers => hown n hn others (Finset.mem_powerset.mpr hothers)

/-- A value that is a placeholder itself is replaced again when its turn comes later, and `head`
requests the template. -/
theorem value_substituted_again :
    (∃ sent, exampleSent exampleSpec [("b", "x"), ("a", placeholder "b")] [] = some sent ∧
      sent.uri = "https://api/x" ∧
      ¬ RequestsFilled exampleSpec (oneByOne [("b", "x"), ("a", placeholder "b")]) asInserted
        sent.uri) ∧
    ∃ sent, exampleSent { exampleSpec with verb := "head" } [("a", "1")] [] = some sent ∧
      sent.uri = "https://api/" ++ placeholder "a" ∧
      ¬ RequestsFilled { exampleSpec with verb := "head" } (oneByOne [("a", "1")]) asInserted
        sent.uri :=
  ⟨⟨_, rfl, by decide, fun h => absurd h.1 (by decide)⟩,
    ⟨_, rfl, by decide, fun h => absurd h.1 (by decide)⟩⟩

end variables_of_the_uri

end PlaidRuntime.NamedRequest
