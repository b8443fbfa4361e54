import PlaidRuntime.Fallible
import PlaidRuntime.Substitution

/-!
# Secrets in the configuration

`read_and_interpolate` of `config.rs`: the configuration files are concatenated, each secret is
put in for `{plaid-secret{name}}` one after the other, and the text is parsed. Parsing TOML is the
`toml` crate's; the order in which its table iterates is left open.
-/
namespace PlaidRuntime.SecretInterpolation
open Fallible KeyedContent Substitution

inductive ConfigurationError where
  | fileError
  | parsingError
  | executionThreadsInvalid
  deriving DecidableEq, Repr

/-- How reading the configuration ends without one. -/
inductive Stop where
  | panicked
  | failed (e : ConfigurationError)
  deriving DecidableEq, Repr

/-- `toml::Value`, of which only the strings are read. -/
inductive Value where
  | string (s : String)
  | integer (i : ℤ)
  | float
  | boolean (b : Bool)
  | datetime
  | array
  | table
  deriving DecidableEq, Repr

def Value.asStr : Value → Option String
  | .string s => some s
  | _ => none

abbrev Table : Type := AList fun _ : String => Value

/-- What the `toml` crate reads from the secrets and from the interpolated configuration. -/
structure Toml (Configuration : Type) where
  secrets : String → Option Table
  configuration : String → Option Configuration
  executionThreads : Configuration → ℕ

/-- An entry of the configuration folder; `content` is `none` when it cannot be read as text. -/
structure DirEntry where
  fileName : String
  isFile : Bool
  content : Option String
  deriving DecidableEq, Repr

/-- `Path::extension`: what follows the last dot, unless nothing stands before it. -/
def extension (fileName : String) : Option (List Char) :=
  let parts := fileName.toList.splitOn '.'
  if ['.'].intercalate parts.dropLast = [] then none else parts.getLast?

def isToml (entry : DirEntry) : Bool :=
  entry.isFile && ((extension entry.fileName).getD []).map Char.toLower = "toml".toList

/-- The configuration files in the order of their names. -/
def configFiles (entries : List DirEntry) : List DirEntry :=
  (entries.filter isToml).mergeSort fun a b => a.fileName ≤ b.fileName

def appendFile (config : String) (entry : DirEntry) : Except Stop String :=
  match entry.content with
  | some content => .ok (config ++ content)
  | none => .error (.failed .fileError)

/-- What stands for a secret in the configuration. -/
def placeholder (secret : String) : String :=
  "\x7bplaid-secret\x7b" ++ secret ++ "\x7d\x7d"

/-- One turn of the loop over the secrets; `as_str().unwrap()` panics. -/
def replaceSecret (config : String) (e : String × Value) : Except Stop String :=
  match e.2.asStr with
  | none => .error .panicked
  | some value => .ok (replaceText config (placeholder e.1) value)

def interpolateSecrets (order : Iteration Value) (secrets : Table) (config : String) :
    Except Stop String :=
  (order.entries secrets).foldlM replaceSecret config

section reading
variable {Configuration : Type} (toml : Toml Configuration)

/-- `read_and_interpolate`; `folder` is `none` when it cannot be listed, `secretsFile` when that
file cannot be read. -/
def readAndInterpolate (order : Iteration Value) (folder : Option (List DirEntry))
    (secretsFile : Option String) : Except Stop Configuration := do
  let entries ← folder.elim (.error (.failed .fileError)) .ok
  let config ← (configFiles entries).foldlM appendFile ""
  let text ← secretsFile.elim (.error (.failed .fileError)) .ok
  let secrets ← (toml.secrets text).elim (.error (.failed .fileError)) .ok
  let config ← interpolateSecrets order secrets config
  let config ← (toml.configuration config).elim (.error (.failed .parsingError)) .ok
  if toml.executionThreads config = 0 then .error (.failed .executionThreadsInvalid)
  else .ok config

end reading

/-- The entries that are strings. -/
def strings (l : List (String × Value)) : List (String × String) :=
  l.filterMap fun e => e.2.asStr.map fun s => (e.1, s)

/-- The secrets that are strings. -/
def stringSecrets (secrets : Table) : AList fun _ : String => String :=
  putAll ∅ (strings (pairs secrets))

section tables
variable {l : List (String × Value)} {secrets : Table}

theorem asStr_eq_some {v : Value} {s : String} : v.asStr = some s ↔ v = .string s := by
  cases v <;> simp [Value.asStr]

theorem mem_strings {n s : String} : (n, s) ∈ strings l ↔ (n, Value.string s) ∈ l := by
  simp only [strings, List.mem_filterMap, Option.map_eq_some_iff, asStr_eq_some]
  constructor
  · intro h
    obtain ⟨e, he, _, hv, heq⟩ := h
    obtain ⟨rfl, rfl⟩ := Prod.mk.inj heq
    rwa [← hv]
  · intro h
    exact ⟨_, h, s, rfl, rfl⟩

theorem strings_keys_sublist (l : List (String × Value)) :
    ((strings l).map Prod.fst).Sublist (l.map Prod.fst) := by
  induction l with
  | nil => exact .slnil
  | cons e l ih =>
    cases h : e.2.asStr with
    | none => simpa [strings, h] using ih.cons e.1
    | some s => simpa [strings, h] using ih.cons_cons e.1

theorem lookup_stringSecrets {n s : String} :
    (stringSecrets secrets).lookup n = some s ↔ secrets.lookup n = some (.string s) := by
  rw [stringSecrets, lookup_putAll_iff, mem_strings, mem_pairs]
  intro n s s' hs hs'
  rw [mem_strings, mem_pairs] at hs hs'
  simpa [hs] using hs'

theorem strings_perm (h : l.Perm (pairs secrets)) :
    (strings l).Perm (pairs (stringSecrets secrets)) := by
  refine (h.filterMap _).trans ?_
  have hnodup := (strings_keys_sublist (pairs secrets)).nodup (pairs_keys_nodup secrets)
  refine (List.perm_ext_iff_of_nodup (.of_map _ hnodup) (.of_map _ (pairs_keys_nodup _))).mpr ?_
  intro e
  rw [show e = (e.1, e.2) from rfl, mem_pairs, lookup_stringSecrets]
  exact mem_strings.trans mem_pairs

/-- A table of strings is iterated as its strings are. -/
theorem perm_of_strings {entries : List (String × String)}
    (hall : ∀ n v, secrets.lookup n = some v → v.asStr.isSome)
    (h : entries.Perm (pairs (stringSecrets secrets))) :
    ∃ l, l.Perm (pairs secrets) ∧ strings l = entries := by
  refine ⟨entries.map fun e => (e.1, Value.string e.2), ?_, ?_⟩
  · have hkeys : ((entries.map fun e => (e.1, Value.string e.2)).map Prod.fst).Nodup := by
      simpa [Function.comp_def] using ((h.map Prod.fst).nodup_iff).mpr (pairs_keys_nodup _)
    refine (List.perm_ext_iff_of_nodup (.of_map _ hkeys) (.of_map _ (pairs_keys_nodup _))).mpr ?_
    intro e
    constructor
    · intro he
      obtain ⟨x, hx, rfl⟩ := List.mem_map.mp he
      refine mem_pairs.mpr ?_
      exact lookup_stringSecrets.mp (mem_pairs.mp (h.mem_iff.mp hx))
    · intro he
      have hlookup := mem_pairs.mp (show (e.1, e.2) ∈ pairs secrets from he)
      obtain ⟨s, hs⟩ := Option.isSome_iff_exists.mp (hall e.1 e.2 hlookup)
      rw [asStr_eq_some.mp hs] at hlookup
      have hmem := mem_pairs.mpr (lookup_stringSecrets.mpr hlookup)
      refine List.mem_map.mpr ⟨(e.1, s), h.mem_iff.mpr hmem, ?_⟩
      rw [← asStr_eq_some.mp hs]
  · simp [strings, List.filterMap_map, Value.asStr]

end tables

/-- The secrets are put in one after the other, unless one of them is not a string. -/
theorem foldlM_replaceSecret (l : List (String × Value)) (config : String) :
    l.foldlM replaceSecret config = if ∀ e ∈ l, e.2.asStr.isSome then
      .ok (interpolate placeholder (strings l) config) else .error .panicked := by
  induction l generalizing config with
  | nil => simp [strings, interpolate, pure, Except.pure]
  | cons e l ih =>
    cases h : e.2.asStr with
    | none => simp [List.foldlM_cons, replaceSecret, h, bind, Except.bind]
    | some s =>
      simp [List.foldlM_cons, replaceSecret, h, bind, Except.bind, ih, strings, interpolate,
        -Prod.forall]

/-- What the configuration becomes: every placeholder of the text is filled in at once, and a
table with a value that is not a string is an error. -/
structure Interpolated (secrets : Table) (config : String) : Prop where
  simultaneous : (∀ n v, secrets.lookup n = some v → v.asStr.isSome) → ∀ order,
    interpolateSecrets order secrets config =
      .ok (filled placeholder (stringSecrets secrets) config) ∧
    AtOnce placeholder (stringSecrets secrets) config (strings (order.entries secrets))
  notStrings : ∀ n v, secrets.lookup n = some v → v.asStr = none → ∀ order,
    ∃ e, interpolateSecrets order secrets config = .error (.failed e)

section result
variable {secrets : Table} {config : String} {order : Iteration Value}

theorem interpolateSecrets_ok (hall : ∀ n v, secrets.lookup n = some v → v.asStr.isSome) :
    interpolateSecrets order secrets config =
      .ok (interpolate placeholder (strings (order.entries secrets)) config) := by
  rw [interpolateSecrets, foldlM_replaceSecret, if_pos]
  intro e he
  exact hall e.1 e.2 (mem_pairs.mp ((order.perm secrets).mem_iff.mp he))

theorem interpolateSecrets_panicked {n : String} {v : Value} (hv : secrets.lookup n = some v)
    (hstr : v.asStr = none) : interpolateSecrets order secrets config = .error .panicked := by
  rw [interpolateSecrets, foldlM_replaceSecret, if_neg]
  intro hall
  have := hall (n, v) ((order.perm secrets).mem_iff.mpr (mem_pairs.mpr hv))
  simp [hstr] at this

theorem placeholder_ne_empty (n : String) : placeholder n ≠ "" := by
  rw [Ne, ← String.toList_inj]
  simp [placeholder]

/-- Reading the configuration panics on a secret that is not a string, and on nothing else. -/
theorem readAndInterpolate_panicked_iff {Configuration : Type} {toml : Toml Configuration}
    {entries : List DirEntry} {text : String} (hfiles : (configFiles entries).foldlM appendFile "" =
      .ok config) (hsecrets : toml.secrets text = some secrets) :
    readAndInterpolate toml order (some entries) (some text) = .error .panicked ↔
      ∃ n v, secrets.lookup n = some v ∧ v.asStr = none := by
  constructor
  · intro h
    by_contra hnone
    have hall : ∀ n v, secrets.lookup n = some v → v.asStr.isSome := by
      intro n v hv
      by_contra hstr
      exact hnone ⟨n, v, hv, by simpa using hstr⟩
    simp only [readAndInterpolate, Option.elim, hfiles, hsecrets, interpolateSecrets_ok hall, bind,
      Except.bind] at h
    cases hc : toml.configuration
        (interpolate placeholder (strings (order.entries secrets)) config) with
    | none => simp [hc] at h
    | some c =>
      simp only [hc] at h
      split_ifs at h
      cases h
  · intro h
    obtain ⟨n, v, hv, hstr⟩ := h
    simp [readAndInterpolate, hfiles, hsecrets, interpolateSecrets_panicked hv hstr, bind,
      Except.bind]

/-- The text is interpolated at once exactly when every value is a string and, with any of the
other secrets filled in, each placeholder is found where the text has it and nowhere else. -/
theorem interpolated_iff : Interpolated secrets config ↔
    (∀ n v, secrets.lookup n = some v → v.asStr.isSome) ∧
      ∀ n ∈ stringSecrets secrets, ∀ others ⊆ (stringSecrets secrets).keys.toFinset, n ∉ others →
        CutsOwn (patternOf placeholder) (valueOf (stringSecrets secrets))
          (stringSecrets secrets).keys config.toList others n := by
  rw [← atOnce_iff placeholder_ne_empty]
  constructor
  · intro h
    have hall : ∀ n v, secrets.lookup n = some v → v.asStr.isSome := by
      intro n v hv
      by_contra hnone
      have hnone : v.asStr = none := by simpa using hnone
      obtain ⟨e, he⟩ := h.notStrings n v hv hnone ⟨pairs, fun _ => .refl _⟩
      rw [interpolateSecrets_panicked hv hnone] at he
      cases he
    refine ⟨hall, fun entries hperm => ?_⟩
    obtain ⟨l, hl, rfl⟩ := perm_of_strings hall hperm
    exact Iteration.forall_iff (P := fun l => AtOnce placeholder _ config (strings l)) |>.mp
      (fun order => (h.simultaneous hall order).2) l hl
  · intro h
    obtain ⟨hall, hown⟩ := h
    refine ⟨fun _ order => ?_, fun n v hv hnone => ?_⟩
    · have hat := hown _ (strings_perm (order.perm secrets))
      exact ⟨by rw [interpolateSecrets_ok hall, hat.result], hat⟩
    · have := hall n v hv
      simp [hnone] at this

/-- Two secrets, the value of one being the placeholder of the other. -/
def nestedSecrets : Table :=
  putAll ∅ [("b", .string "x"), ("a", .string (placeholder "b"))]

def numberSecrets : Table := AList.singleton "port" (.integer 8080)

def asInserted : Iteration Value := ⟨pairs, fun _ => .refl _⟩

/-- The value of the first secret is replaced again, and a number among the secrets panics. -/
theorem secret_replaced_again :
    interpolateSecrets asInserted nestedSecrets (placeholder "a") = .ok "x" ∧
    ¬ Interpolated nestedSecrets (placeholder "a") ∧
    interpolateSecrets asInserted numberSecrets "" = .error .panicked ∧
    ¬ Interpolated numberSecrets "" := by
  have hx : interpolateSecrets asInserted nestedSecrets (placeholder "a") = .ok "x" := by decide
  have hport : interpolateSecrets asInserted numberSecrets "" = .error .panicked := by decide
  refine ⟨hx, fun h => ?_, hport, fun h => ?_⟩
  · have hall : ∀ n v, nestedSecrets.lookup n = some v → v.asStr.isSome := by
      intro n v hv
      have : (n, v) ∈ [("a", Value.string (placeholder "b")), ("b", .string "x")] := mem_pairs.mpr hv
      simp only [List.mem_cons, Prod.mk.injEq, List.not_mem_nil, or_false] at this
      obtain ⟨-, rfl⟩ | ⟨-, rfl⟩ := this <;> rfl
    rw [(h.simultaneous hall asInserted).1] at hx
    exact absurd hx (by decide)
  · obtain ⟨e, he⟩ := h.notStrings "port" (.integer 8080) rfl rfl asInserted
    rw [hport] at he
    simp at he

end result

end PlaidRuntime.SecretInterpolation
