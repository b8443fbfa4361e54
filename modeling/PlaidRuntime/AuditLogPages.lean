import PlaidRuntime.GeneratorDelivery
import PlaidRuntime.LinkHeader
import PlaidRuntime.PagedFetch

/-!
# The pages of an audit log

How the GitHub and Okta generators fetch the logs of one window (`fetch_logs` in `data/github/mod.rs`
and `data/okta/mod.rs`): page after page, where the `link` header of one leads to the next.
-/
namespace PlaidRuntime.AuditLogPages
open PagedFetch GuestMemory MessageCodec LinkHeader UtcInstant DataGenerator GeneratorDelivery

section loop

/-- A response to a GET; there is no body when it cannot be read. -/
structure Response where
  isSuccess : Bool
  link : Option Bytes
  body : Option String
  deriving DecidableEq

/-- How a fetch ends. -/
inductive Fetched
  | returned (logs : Except Unit (List DataGeneratorLog))
  | panicked
  deriving DecidableEq

def Response.next (response : Response) : Outcome :=
  match response.link with
  | none => .returned none
  | some hv => getNextFromLinkHeader hv

variable (text : JsonText)

/-- `serde_json::from_str::<Vec<Value>>` of the body. -/
def Response.logs (response : Response) : Option (List Json) :=
  match response.body.bind fun body => text.fromSlice (asBytes body) with
  | some (.arr logs) => some logs
  | _ => none

/-- What one page adds. `none` is a request that got no response. -/
def pageTurn (readLog : Json → Option DataGeneratorLog) (_ : String) (output : List DataGeneratorLog) :
    Option Response → Turn String (List DataGeneratorLog) Fetched
  | none => .stop (.returned (.error ()))
  | some response =>
    if response.isSuccess then
      match response.next with
      | .panicked => .stop .panicked
      | .returned next =>
        match response.logs text with
        | none => .stop (.returned (.error ()))
        | some [] => .stop (.returned (.ok output))
        | some logs =>
          let output := output ++ logs.filterMap readLog
          match next with
          | some address => .more address output
          | none => .stop (.returned (.ok output))
    else .stop (.returned (.error ()))

/-- `Value::get`; of a key that is there twice the parser keeps the last. -/
def get (key : String) : Json → Option Json
  | .obj fields => fields.reverse.lookup key
  | _ => none

def asStr : Json → Option String
  | .str s => some s
  | _ => none

def asU64 : Json → Option ℕ
  | .num n => if n < 2 ^ 64 then some n else none
  | _ => none

/-- The timestamp is in milliseconds. -/
def githubLog (log : Json) : Option DataGeneratorLog := do
  let timestamp ← (get "@timestamp" log).bind asU64
  let logTimestamp ← OffsetDateTime.fromUnixTimestampNanos (timestamp * 1000000)
  let uuid ← (get "_document_id" log).bind asStr
  return ⟨uuid, logTimestamp, text.toVec log⟩

/-- The well-known format RFC 3339 of the `time` crate. -/
structure Rfc3339 where
  format : OffsetDateTime → Option String
  parse : String → Option OffsetDateTime

variable (rfc : Rfc3339)

def oktaLog (log : Json) : Option DataGeneratorLog := do
  let published ← (get "published" log).bind asStr
  let logTimestamp ← rfc.parse published
  let uuid ← (get "uuid" log).bind asStr
  return ⟨uuid, logTimestamp, text.toVec log⟩

variable (ask : ℕ → String → Option Response) (fuel : ℕ)

/-- The body the two generators share. -/
def fetchPages (readLog : Json → Option DataGeneratorLog) (address : String) : Option Fetched :=
  fetch ask (pageTurn text readLog) fuel 0 address []

inductive LogType
  | web
  | git
  | all
  deriving DecidableEq

def LogType.display : LogType → String
  | .web => "web"
  | .git => "git"
  | .all => "all"

def githubAddress (org : String) (logType : LogType) (since untilText : String) : String :=
  "https://api.github.com/orgs/" ++ org ++ "/audit-log?include=" ++ logType.display ++
    "&per_page=100&order=asc&phrase=created:" ++ since ++ ".." ++ untilText

def oktaAddress (domain : String) (limit : ℕ) (since untilText : String) : String :=
  "https://" ++ domain ++ "/api/v1/logs?sortOrder=ASCENDING&since=" ++ since ++ "&until=" ++
    untilText ++ "&limit=" ++ toString limit

structure GithubConfig where
  org : String
  logType : LogType

structure OktaConfig where
  domain : String
  limit : ℕ

def Github.fetchLogs (config : GithubConfig) (since untilTime : OffsetDateTime) : Option Fetched :=
  match rfc.format since, rfc.format untilTime with
  | some s, some u =>
    fetchPages text ask fuel (githubLog text) (githubAddress config.org config.logType s u)
  | _, _ => some (.returned (.error ()))

def Okta.fetchLogs (config : OktaConfig) (since untilTime : OffsetDateTime) : Option Fetched :=
  match rfc.format since, rfc.format untilTime with
  | some s, some u =>
    fetchPages text ask fuel (oktaLog text rfc) (oktaAddress config.domain config.limit s u)
  | _, _ => some (.returned (.error ()))

end loop

section delivered
variable (text : JsonText) (ask : ℕ → String → Option Response)

/-- A response that a generator can read. -/
structure Readable (response : Response) (logs : List Json) (next : Option String) : Prop where
  success : response.isSuccess = true
  next : response.next = .returned next
  logs : response.logs text = some logs

/-- From an address on, the source answers with these pages: each but the last links to the one
after it, and a page without logs is the end whatever it links to. -/
inductive Delivered : ℕ → String → List (List Json) → Prop
  | empty {n : ℕ} {address : String} {response : Response} {next : Option String}
      (asked : ask n address = some response) (h : Readable text response [] next) :
      Delivered n address []
  | last {n : ℕ} {address : String} {response : Response} {logs : List Json}
      (asked : ask n address = some response) (h : Readable text response logs none)
      (some_logs : logs ≠ []) : Delivered n address [logs]
  | more {n : ℕ} {address next : String} {response : Response} {logs : List Json}
      {rest : List (List Json)} (asked : ask n address = some response)
      (h : Readable text response logs (some next)) (some_logs : logs ≠ [])
      (after : Delivered (n + 1) next rest) : Delivered n address (logs :: rest)

variable {text ask} {readLog : Json → Option DataGeneratorLog}

theorem pageTurn_more {response : Response} {logs : List Json} {next : String}
    (h : Readable text response logs (some next)) (hne : logs ≠ []) (address : String)
    (output : List DataGeneratorLog) : pageTurn text readLog address output (some response) =
      .more next (output ++ logs.filterMap readLog) := by
  cases logs with
  | nil => exact absurd rfl hne
  | cons log logs => simp only [pageTurn, h.success, if_true, h.next, h.logs]

theorem pageTurn_last {response : Response} {logs : List Json}
    (h : Readable text response logs none) (hne : logs ≠ []) (address : String)
    (output : List DataGeneratorLog) : pageTurn text readLog address output (some response) =
      .stop (.returned (.ok (output ++ logs.filterMap readLog))) := by
  cases logs with
  | nil => exact absurd rfl hne
  | cons log logs => simp only [pageTurn, h.success, if_true, h.next, h.logs]

theorem pageTurn_empty {response : Response} {next : Option String}
    (h : Readable text response [] next) (address : String) (output : List DataGeneratorLog) :
    pageTurn text readLog address output (some response) = .stop (.returned (.ok output)) := by
  simp only [pageTurn, h.success, if_true, h.next, h.logs]

variable (text readLog) in
/-- A turn fails unless the page can be read. -/
theorem pageTurn_cases (address : String) (output : List DataGeneratorLog) (p : Option Response) :
    (∃ response logs next, p = some response ∧ Readable text response logs next) ∨
      pageTurn text readLog address output p = .stop (.returned (.error ())) ∨
      pageTurn text readLog address output p = .stop .panicked := by
  cases p with
  | none => exact .inr (.inl rfl)
  | some response =>
    by_cases hs : response.isSuccess = true
    · cases hnext : response.next with
      | panicked => exact .inr (.inr (by simp only [pageTurn, hs, if_true, hnext]))
      | returned next =>
        cases hlogs : response.logs text with
        | none => exact .inr (.inl (by simp only [pageTurn, hs, if_true, hnext, hlogs]))
        | some logs => exact .inl ⟨response, logs, next, rfl, hs, hnext, hlogs⟩
    · exact .inr (.inl (by simp only [pageTurn, if_neg hs]))

theorem fetch_delivered {n : ℕ} {address : String} {pages : List (List Json)}
    (h : Delivered text ask n address pages) (output : List DataGeneratorLog) :
    ∃ fuel, fetch ask (pageTurn text readLog) fuel n address output =
      some (.returned (.ok (output ++ pages.flatten.filterMap readLog))) := by
  induction h generalizing output with
  | empty asked h =>
    refine ⟨1, fetch_stop ?_ 0⟩
    rw [asked, pageTurn_empty h]
    simp
  | last asked h some_logs =>
    refine ⟨1, fetch_stop ?_ 0⟩
    rw [asked, pageTurn_last h some_logs]
    simp
  | @more n address next response logs rest asked h some_logs after ih =>
    obtain ⟨fuel, hrest⟩ := ih (output ++ logs.filterMap readLog)
    refine ⟨fuel + 1, ?_⟩
    have hturn : pageTurn text readLog address output (ask n address) =
        .more next (output ++ logs.filterMap readLog) := by
      rw [asked, pageTurn_more h some_logs]
    rw [fetch_more hturn, hrest, List.flatten_cons, List.filterMap_append, List.append_assoc]

theorem delivered_of_fetch {fuel n : ℕ} {address : String} {output logs : List DataGeneratorLog}
    (h : fetch ask (pageTurn text readLog) fuel n address output = some (.returned (.ok logs))) :
    ∃ pages, Delivered text ask n address pages ∧ logs = output ++ pages.flatten.filterMap readLog := by
  induction fuel generalizing n address output with
  | zero => cases h
  | succ fuel ih =>
    obtain ⟨response, read, next, hp, hread⟩ | herror | hpanic :=
      pageTurn_cases text readLog address output (ask n address)
    · by_cases hne : read = []
      · subst hne
        rw [fetch_stop (by rw [hp, pageTurn_empty hread])] at h
        cases h
        exact ⟨[], .empty hp hread, by simp⟩
      · cases next with
        | none =>
          rw [fetch_stop (by rw [hp, pageTurn_last hread hne])] at h
          cases h
          exact ⟨[read], .last hp hread hne, by simp⟩
        | some next =>
          rw [fetch_more (by rw [hp, pageTurn_more hread hne])] at h
          obtain ⟨pages, hpages, rfl⟩ := ih h
          refine ⟨read :: pages, .more hp hread hne hpages, ?_⟩
          rw [List.flatten_cons, List.filterMap_append, List.append_assoc]
    · rw [fetch_stop herror] at h
      cases h
    · rw [fetch_stop hpanic] at h
      cases h

theorem fetchPages_ok_iff {address : String} {logs : List DataGeneratorLog} :
    (∃ fuel, fetchPages text ask fuel readLog address = some (.returned (.ok logs))) ↔
      ∃ pages, Delivered text ask 0 address pages ∧ logs = pages.flatten.filterMap readLog := by
  constructor
  · rintro ⟨fuel, h⟩
    exact delivered_of_fetch h
  · rintro ⟨pages, hpages, rfl⟩
    exact fetch_delivered hpages []

end delivered

section sources
variable {text : JsonText} {rfc : Rfc3339} {ask : ℕ → String → Option Response}
  {since untilTime : OffsetDateTime}

/-- The source holds those logs and answers with the ones of the window. -/
def Windowed (readLog : Json → Option DataGeneratorLog) (held : List DataGeneratorLog)
    (since untilTime : OffsetDateTime) (pages : List (List Json)) : Prop :=
  pages.flatten.filterMap readLog = held.filter fun x => since ≤ x.timestamp ∧ x.timestamp ≤ untilTime

/-- The logs of the window that a source holds in ascending order are what the generators take a
fetch for. -/
theorem windowed_canonical {readLog : Json → Option DataGeneratorLog} {held : List DataGeneratorLog}
    {pages : List (List Json)} {dg : DataGenerator.Config} {src : Source} {w : World}
    (hasc : Ascending held) (hstable : Stable dg src w.clock { x | x ∈ held })
    (hpages : Windowed readLog held since untilTime pages) :
    Canonical dg src w (.fetchLogs since untilTime) (.logs (pages.flatten.filterMap readLog)) := by
  rw [hpages]
  refine ⟨hasc.sublist List.filter_sublist, { x | x ∈ held }, hstable, fun x => ?_⟩
  simp

theorem github_fetchLogs_iff {config : GithubConfig} {logs : List DataGeneratorLog} :
    (∃ fuel, Github.fetchLogs text rfc ask fuel config since untilTime =
      some (.returned (.ok logs))) ↔
    ∃ s u pages, rfc.format since = some s ∧ rfc.format untilTime = some u ∧
      Delivered text ask 0 (githubAddress config.org config.logType s u) pages ∧
      logs = pages.flatten.filterMap (githubLog text) := by
  simp only [Github.fetchLogs]
  cases hs : rfc.format since with
  | none => simp
  | some s =>
    cases hu : rfc.format untilTime with
    | none => simp
    | some u => simp [fetchPages_ok_iff]

theorem okta_fetchLogs_iff {config : OktaConfig} {logs : List DataGeneratorLog} :
    (∃ fuel, Okta.fetchLogs text rfc ask fuel config since untilTime =
      some (.returned (.ok logs))) ↔
    ∃ s u pages, rfc.format since = some s ∧ rfc.format untilTime = some u ∧
      Delivered text ask 0 (oktaAddress config.domain config.limit s u) pages ∧
      logs = pages.flatten.filterMap (oktaLog text rfc) := by
  simp only [Okta.fetchLogs]
  cases hs : rfc.format since with
  | none => simp
  | some s =>
    cases hu : rfc.format untilTime with
    | none => simp
    | some u => simp [fetchPages_ok_iff]

/-- A fetch returns logs exactly when the source delivers all its pages, and then it returns every
log of theirs that can be read, in order; where the source answers with the logs of the window, that
is what the generators rely on. -/
theorem audit_logs_fetched (text : JsonText) (rfc : Rfc3339) (ask : ℕ → String → Option Response)
    (since untilTime : OffsetDateTime) :
    (∀ config logs, (∃ fuel, Github.fetchLogs text rfc ask fuel config since untilTime =
        some (.returned (.ok logs))) ↔
      ∃ s u pages, rfc.format since = some s ∧ rfc.format untilTime = some u ∧
        Delivered text ask 0 (githubAddress config.org config.logType s u) pages ∧
        logs = pages.flatten.filterMap (githubLog text)) ∧
    (∀ config logs, (∃ fuel, Okta.fetchLogs text rfc ask fuel config since untilTime =
        some (.returned (.ok logs))) ↔
      ∃ s u pages, rfc.format since = some s ∧ rfc.format untilTime = some u ∧
        Delivered text ask 0 (oktaAddress config.domain config.limit s u) pages ∧
        logs = pages.flatten.filterMap (oktaLog text rfc)) ∧
    ∀ readLog held pages dg src (w : World), Ascending held → Stable dg src w.clock { x | x ∈ held } →
      Windowed readLog held since untilTime pages →
      Canonical dg src w (.fetchLogs since untilTime) (.logs (pages.flatten.filterMap readLog)) :=
  ⟨fun _ _ => github_fetchLogs_iff, fun _ _ => okta_fetchLogs_iff,
    fun _ _ _ _ _ _ hasc hstable hpages => windowed_canonical hasc hstable hpages⟩

def storyJson (id : String) (ms : Fin 10000000) : Json :=
  .obj [("@timestamp", .num ms), ("_document_id", .str id)]

def firstPage : Json := .arr [storyJson "first" 1000, .str "no log", storyJson "second" 2000]

def secondPage : Json := .arr [storyJson "third" 3000]

def storyCodec : JsonText := textsOf [firstPage, secondPage]

def story (id : String) (ms : Fin 10000000) : DataGeneratorLog :=
  ⟨id, instant ms, storyCodec.toVec (storyJson id ms)⟩

def inWindow : Rfc3339 where
  format t := if t = instant 0 then some "1970-01-01T00:00:00Z" else
    if t = instant 5000 then some "1970-01-01T00:00:05Z" else none
  parse s := if s = "1970-01-01T00:00:00Z" then some (instant 0) else
    if s = "1970-01-01T00:00:05Z" then some (instant 5000) else none

def secondLink : Link :=
  { commaLink with
    url := ['/', '2']
    url_visible := by simp
    url_unbracketed := by simp }

/-- The first page links to the second one. -/
def linkedPages (_ : ℕ) (address : String) : Option Response :=
  if address = "/2" then
    some ⟨true, none, some (String.ofList (renderJson secondPage))⟩
  else some ⟨true, some (linkHeader [secondLink]), some (String.ofList (renderJson firstPage))⟩

/-- The last log is after the window. -/
def heldStories : List DataGeneratorLog :=
  [story "first" 1000, story "second" 2000, story "third" 3000, story "late" 9000]

theorem heldStories_unique : ∀ x ∈ heldStories, ∀ y ∈ heldStories, x.id = y.id → x = y := by
  have hnodup : (heldStories.map DataGeneratorLog.id).Nodup := by decide
  exact fun x hx y hy heq => List.inj_on_of_nodup_map hnodup hx hy heq

theorem githubLog_eq {log : Json} {ms : ℕ} {uuid : String} {logTimestamp : OffsetDateTime}
    (hms : get "@timestamp" log = some (.num ms)) (hlt : ms < 2 ^ 64)
    (htimestamp : OffsetDateTime.fromUnixTimestampNanos (ms * 1000000) = some logTimestamp)
    (huuid : get "_document_id" log = some (.str uuid)) :
    githubLog text log = some ⟨uuid, logTimestamp, text.toVec log⟩ := by
  refine Option.bind_eq_some_iff.mpr ⟨ms, by rw [hms]; exact if_pos hlt, ?_⟩
  refine Option.bind_eq_some_iff.mpr ⟨logTimestamp, htimestamp, ?_⟩
  exact Option.bind_eq_some_iff.mpr ⟨uuid, by rw [huuid]; rfl, rfl⟩

theorem githubLog_storyJson (id : String) (ms : Fin 10000000) :
    githubLog storyCodec (storyJson id ms) = some (story id ms) :=
  have hinstant : OffsetDateTime.fromUnixTimestampNanos ((ms : ℕ) * 1000000) = some (instant ms) :=
    dif_pos ⟨(instant ms).lower, (instant ms).upper⟩
  githubLog_eq rfl (ms.isLt.trans (by decide)) hinstant rfl

theorem logs_of_fromSlice {response : Response} {body : String} {logs : List Json}
    (hbody : response.body = some body) (htext : text.fromSlice (asBytes body) = some (.arr logs)) :
    response.logs text = some logs := by
  simp only [Response.logs, hbody, Option.bind_some, htext]

theorem linkedPages_delivered (address : String) (h : address ≠ "/2") :
    Delivered storyCodec linkedPages 0 address
      [[storyJson "first" 1000, .str "no log", storyJson "second" 2000],
        [storyJson "third" 3000]] := by
  have hne : asBytes (String.ofList (renderJson secondPage)) ≠
      asBytes (String.ofList (renderJson firstPage)) := fun hsame =>
    absurd (String.ofList_injective (asBytes_inj hsame)) (by decide +kernel)
  have hfirst : storyCodec.fromSlice (asBytes (String.ofList (renderJson firstPage))) =
      some firstPage := by
    simp [storyCodec, textsOf]
  have hsecond : storyCodec.fromSlice (asBytes (String.ofList (renderJson secondPage))) =
      some secondPage := by
    simp [storyCodec, textsOf, hne]
  have hnext : getNextFromLinkHeader (linkHeader [secondLink]) = .returned (some "/2") :=
    getNext_links.trans (by decide)
  refine .more (if_neg h) ⟨rfl, hnext, logs_of_fromSlice rfl hfirst⟩ (by simp) ?_
  exact .last (if_pos rfl) ⟨rfl, rfl, logs_of_fromSlice rfl hsecond⟩ (by simp)

theorem audit_logs_fetched_sample :
    (∃ fuel, Github.fetchLogs storyCodec inWindow linkedPages fuel ⟨"plaid", .all⟩ (instant 0)
      (instant 5000) =
        some (.returned (.ok [story "first" 1000, story "second" 2000, story "third" 3000]))) ∧
    Canonical resumedConfig (sourceOf heldStories heldStories_unique) blankWorld
      (.fetchLogs (instant 0) (instant 5000))
      (.logs [story "first" 1000, story "second" 2000, story "third" 3000]) := by
  obtain ⟨hgithub, -, hwindow⟩ :=
    audit_logs_fetched storyCodec inWindow linkedPages (instant 0) (instant 5000)
  have hpages : [[storyJson "first" 1000, .str "no log", storyJson "second" 2000],
      [storyJson "third" 3000]].flatten.filterMap (githubLog storyCodec) =
      [story "first" 1000, story "second" 2000, story "third" 3000] := by
    have hother : githubLog storyCodec (.str "no log") = none := rfl
    simp [githubLog_storyJson, hother]
  have hheld : heldStories.filter (fun x => instant 0 ≤ x.timestamp ∧ x.timestamp ≤ instant 5000) =
      [story "first" 1000, story "second" 2000, story "third" 3000] := by
    decide +kernel
  have hsince : inWindow.format (instant 0) = some "1970-01-01T00:00:00Z" := by decide +kernel
  have huntil : inWindow.format (instant 5000) = some "1970-01-01T00:00:05Z" := by decide +kernel
  constructor
  · exact (hgithub _ _).mpr ⟨_, _, _, hsince, huntil, linkedPages_delivered _ (by decide +kernel),
      hpages.symm⟩
  · rw [← hpages]
    refine hwindow (githubLog storyCodec) heldStories _ _ _ _ ?_ (fun _ _ => Iff.rfl)
      (hpages.trans hheld.symm)
    unfold Ascending
    decide +kernel

end sources
end PlaidRuntime.AuditLogPages
