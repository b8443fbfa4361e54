import PlaidRuntime.SeparatedText

/-!
# The response mode of a webhook

`response_mode_deserializer` of `config.rs`, which takes the text `mode:data` of a GET mode apart
from its end.
-/
namespace PlaidRuntime.ResponseModes
open SeparatedText

inductive ResponseMode where
  | facebook (secret : String)
  | rule (name : String)
  | static (data : String)
  deriving DecidableEq, Repr

def noData : String :=
  "Must provide context for the response_mode. For Facebook/Meta this is the secret, for Rule this is the module name"

def noMode : String := "Must provide a response_mode"

def unknownMode (x : String) : String :=
  s!"{x} is an unknown response_mode. Must be 'facebook', 'rule', or 'static'"

/-- The `match` on the mode. -/
def withMode (mode data : String) : Except String ResponseMode :=
  match mode with
  | "facebook" | "meta" => .ok (.facebook data)
  | "Rule" | "rule" => .ok (.rule data)
  | "Static" | "static" => .ok (.static data)
  | x => .error (unknownMode x)

/-- The two `pop`s, the pieces from the last to the first. -/
def ofPopped : List (List Char) → Except String ResponseMode
  | [] => .error noData
  | [_] => .error noMode
  | data :: mode :: _ => withMode (String.ofList mode) (String.ofList data)

def responseModeDeserializer (mode : String) : Except String ResponseMode :=
  ofPopped (mode.toList.splitOn ':').reverse

/-- The words for a mode and what they stand for. -/
def modes : List (String × (String → ResponseMode)) :=
  [("facebook", .facebook), ("meta", .facebook), ("Rule", .rule), ("rule", .rule),
    ("Static", .static), ("static", .static)]

/-- `s` is `word:data` with `word` the text before the first colon. -/
structure Written (s word data : String) : Prop where
  text : s = word ++ ":" ++ data
  first : ':' ∉ word.toList

/-- `s` is accepted just when it is a mode and data, and stands for that mode with all the data. -/
structure ReadAsWritten (s : String) : Prop where
  accepted : (∃ r, responseModeDeserializer s = .ok r) ↔
    ∃ word data kind, Written s word data ∧ (word, kind) ∈ modes
  whole : ∀ r, responseModeDeserializer s = .ok r →
    ∃ word data kind, Written s word data ∧ (word, kind) ∈ modes ∧ r = kind data

def IsMode (word : String) : Prop := ∃ kind, (word, kind) ∈ modes

/-- There is one colon at most, or neither the text before the first colon nor the text between the
last two is a word for a mode. -/
def Unmistaken (s : String) : Prop :=
  s.toList.count ':' ≤ 1 ∨
    (∀ word data, Written s word data → ¬ IsMode word) ∧
    ∀ rest word data, s = rest ++ ":" ++ word ++ ":" ++ data → ':' ∉ word.toList →
      ':' ∉ data.toList → ¬ IsMode word

def ResponseMode.data : ResponseMode → String
  | .facebook data | .rule data | .static data => data

section texts
variable {s rest word word' data data' : String} {r : ResponseMode}

theorem withMode_ok :
    withMode word data = .ok r ↔ ∃ kind, (word, kind) ∈ modes ∧ r = kind data := by
  unfold withMode
  split <;> simp_all [modes, eq_comm]

theorem data_of_mem {kind : String → ResponseMode} (h : (word, kind) ∈ modes) :
    (kind data).data = data := by
  simp only [modes, List.mem_cons, Prod.mk.injEq, List.not_mem_nil, or_false] at h
  rcases h with ⟨-, rfl⟩ | ⟨-, rfl⟩ | ⟨-, rfl⟩ | ⟨-, rfl⟩ | ⟨-, rfl⟩ | ⟨-, rfl⟩ <;> rfl

theorem toList_colon : (word ++ ":" ++ data).toList = word.toList ++ ':' :: data.toList := by
  simp

theorem Written.unique (h : Written s word data) (h' : Written s word' data') :
    word = word' ∧ data = data' := by
  have heq := congrArg String.toList (h.text.symm.trans h'.text)
  rw [toList_colon, toList_colon] at heq
  obtain ⟨hw, hd⟩ := eq_of_first h.first h'.first heq
  exact ⟨String.toList_inj.mp hw, String.toList_inj.mp hd⟩

/-- What stands between the last two colons, and after them. -/
theorem last_unique {rest' : String} (hw : ':' ∉ word.toList) (hd : ':' ∉ data.toList)
    (hw' : ':' ∉ word'.toList) (hd' : ':' ∉ data'.toList)
    (h : rest ++ ":" ++ word ++ ":" ++ data = rest' ++ ":" ++ word' ++ ":" ++ data') :
    word = word' ∧ data = data' := by
  have heq := congrArg String.toList h
  simp only [toList_colon] at heq
  obtain ⟨hrest, hdata⟩ := eq_of_last hd hd' heq
  exact ⟨String.toList_inj.mp (eq_of_last hw hw' hrest).2, String.toList_inj.mp hdata⟩

/-- A text without a colon has no mode. -/
theorem deserialize_of_notMem (h : ':' ∉ s.toList) : responseModeDeserializer s = .error noMode := by
  rw [responseModeDeserializer, List.splitOn_eq_singleton h]
  rfl

/-- One colon: what stands before it is the mode. -/
theorem deserialize_once (hw : ':' ∉ word.toList) (hd : ':' ∉ data.toList) :
    responseModeDeserializer (word ++ ":" ++ data) = withMode word data := by
  rw [responseModeDeserializer, toList_colon, splitOn_concat hd, List.splitOn_eq_singleton hw]
  simp [ofPopped]

/-- More colons: what stands between the last two is the mode. -/
theorem deserialize_more (hw : ':' ∉ word.toList) (hd : ':' ∉ data.toList) :
    responseModeDeserializer (rest ++ ":" ++ word ++ ":" ++ data) = withMode word data := by
  rw [responseModeDeserializer, toList_colon, toList_colon, splitOn_concat hd, splitOn_concat hw]
  simp [ofPopped]

end texts

/-- A text with a colon, cut at the last one. -/
theorem exists_last_colon {s : String} (h : ':' ∈ s.toList) :
    ∃ rest data : String, s = rest ++ ":" ++ data ∧ ':' ∉ data.toList := by
  obtain ⟨a, b, hab, hb⟩ := exists_last h
  refine ⟨String.ofList a, String.ofList b, String.toList_inj.mp ?_, by simpa using hb⟩
  rw [toList_colon, hab, String.toList_ofList, String.toList_ofList]

section grammar
variable {rest word data : String}

theorem readAsWritten_of_notMem {s : String} (h : ':' ∉ s.toList) : ReadAsWritten s := by
  have herr := deserialize_of_notMem h
  have hnone : ∀ word data, ¬ Written s word data := by
    intro word data hw
    rw [hw.text, toList_colon] at h
    simp at h
  constructor
  · simp [herr, hnone]
  · simp [herr]

theorem readAsWritten_once (hw : ':' ∉ word.toList) (hd : ':' ∉ data.toList) :
    ReadAsWritten (word ++ ":" ++ data) := by
  have hwritten : Written (word ++ ":" ++ data) word data := ⟨rfl, hw⟩
  have hdes := deserialize_once hw hd
  constructor
  · rw [hdes]
    constructor
    · rintro ⟨r, hr⟩
      obtain ⟨kind, hkind, -⟩ := withMode_ok.mp hr
      exact ⟨word, data, kind, hwritten, hkind⟩
    · rintro ⟨word', data', kind, hw', hkind⟩
      obtain ⟨rfl, rfl⟩ := hwritten.unique hw'
      exact ⟨_, withMode_ok.mpr ⟨kind, hkind, rfl⟩⟩
  · intro r hr
    rw [hdes] at hr
    obtain ⟨kind, hkind, rfl⟩ := withMode_ok.mp hr
    exact ⟨word, data, kind, hwritten, hkind, rfl⟩

theorem count_more : 2 ≤ (rest ++ ":" ++ word ++ ":" ++ data).toList.count ':' := by
  rw [toList_colon, toList_colon, List.count_append, List.count_append, List.count_cons_self,
    List.count_cons_self]
  omega

/-- With two colons or more the data written after the first one is never what is read. -/
theorem not_whole {r : ResponseMode} (hw : ':' ∉ word.toList) (hd : ':' ∉ data.toList)
    (hr : responseModeDeserializer (rest ++ ":" ++ word ++ ":" ++ data) = .ok r) :
    ¬ ReadAsWritten (rest ++ ":" ++ word ++ ":" ++ data) := by
  intro hread
  obtain ⟨first, tail, kind, hwritten, hkind, rfl⟩ := hread.whole r hr
  rw [deserialize_more hw hd] at hr
  obtain ⟨kind', hkind', heq⟩ := withMode_ok.mp hr
  have htail : tail = data := by
    have hdata := congrArg ResponseMode.data heq
    rwa [data_of_mem hkind, data_of_mem hkind'] at hdata
  have hcount : 2 ≤ (rest ++ ":" ++ word ++ ":" ++ data).toList.count ':' := count_more
  rw [hwritten.text, toList_colon, List.count_append, List.count_cons_self,
    List.count_eq_zero.mpr hwritten.first, htail, List.count_eq_zero.mpr hd] at hcount
  omega

theorem readAsWritten_more_iff (hw : ':' ∉ word.toList) (hd : ':' ∉ data.toList) :
    ReadAsWritten (rest ++ ":" ++ word ++ ":" ++ data) ↔
      (∀ first tail, Written (rest ++ ":" ++ word ++ ":" ++ data) first tail → ¬ IsMode first) ∧
        ¬ IsMode word := by
  have hdes := @deserialize_more rest word data hw hd
  constructor
  · intro hread
    constructor
    · rintro first tail hwritten ⟨kind, hkind⟩
      obtain ⟨r, hr⟩ := hread.accepted.mpr ⟨first, tail, kind, hwritten, hkind⟩
      exact not_whole hw hd hr hread
    · rintro ⟨kind, hkind⟩
      have hok := withMode_ok.mpr ⟨kind, hkind, @rfl _ (kind data)⟩
      exact not_whole hw hd (hdes.trans hok) hread
  · rintro ⟨hfirst, hword⟩
    have herr : ∀ r, responseModeDeserializer (rest ++ ":" ++ word ++ ":" ++ data) ≠ .ok r := by
      intro r hr
      obtain ⟨kind, hkind, -⟩ := withMode_ok.mp (hdes.symm.trans hr)
      exact hword ⟨kind, hkind⟩
    constructor
    · refine iff_of_false (fun ⟨r, hr⟩ => herr r hr) ?_
      rintro ⟨first, tail, kind, hwritten, hkind⟩
      exact hfirst first tail hwritten ⟨kind, hkind⟩
    · intro r hr
      exact absurd hr (herr r)

end grammar

/-- A response mode is read as it is written unless there are two colons or more and a word for a
mode stands before the first one or between the last two. -/
theorem readAsWritten_iff (s : String) : ReadAsWritten s ↔ Unmistaken s := by
  by_cases hcolon : ':' ∈ s.toList
  case neg =>
    exact iff_of_true (readAsWritten_of_notMem hcolon)
      (Or.inl (by simp [List.count_eq_zero.mpr hcolon]))
  obtain ⟨rest, data, rfl, hd⟩ := exists_last_colon hcolon
  by_cases hmore : ':' ∈ rest.toList
  case neg =>
    refine iff_of_true (readAsWritten_once hmore hd) (Or.inl ?_)
    rw [toList_colon, List.count_append, List.count_cons_self, List.count_eq_zero.mpr hmore,
      List.count_eq_zero.mpr hd]
  obtain ⟨rest, word, rfl, hw⟩ := exists_last_colon hmore
  rw [readAsWritten_more_iff hw hd]
  constructor
  · rintro ⟨hfirst, hword⟩
    refine Or.inr ⟨hfirst, ?_⟩
    intro rest' word' data' heq hw' hd'
    obtain ⟨rfl, -⟩ := last_unique hw hd hw' hd' heq
    exact hword
  · rintro (hle | ⟨hfirst, hlast⟩)
    · have hcount : 2 ≤ (rest ++ ":" ++ word ++ ":" ++ data).toList.count ':' := count_more
      omega
    · exact ⟨hfirst, hlast rest word data rfl hw hd⟩

/-- Static data with a colon is refused. -/
theorem colon_in_data_refused : ¬ ∀ s, ReadAsWritten s := by
  intro h
  have hwritten : Written "static:see https://plaid" "static" "see https://plaid" :=
    ⟨by decide, by decide⟩
  obtain ⟨r, hr⟩ := (h "static:see https://plaid").accepted.mpr
    ⟨_, _, .static, hwritten, by simp [modes]⟩
  have hdes : responseModeDeserializer "static:see https://plaid" =
      .error (unknownMode "see https") :=
    @deserialize_more "static" "see https" "//plaid" (by decide) (by decide)
  rw [hdes] at hr
  cases hr

end PlaidRuntime.ResponseModes
