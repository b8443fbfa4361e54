import PlaidRuntime.EffectProgram
import PlaidRuntime.Fallible
import PlaidRuntime.SecretInterpolation

/-!
# Secrets in files and in Secrets Manager

The tool that uploads the secrets of a file to AWS Secrets Manager and downloads them into a file
(`bin/secrets_manager`). The file is the one that the configuration is interpolated with.
-/
namespace PlaidRuntime.SecretsManager
open EffectProgram Fallible KeyedContent SecretInterpolation Substitution

section requests

structure PlaidSecret where
  name : String
  value : String
  deriving DecidableEq, Repr

inductive SdkError
  | resourceNotFoundException (text : String)
  | resourceExistsException (text : String)
  | other (text : String)
  deriving DecidableEq, Repr

def SdkError.text : SdkError → String
  | .resourceNotFoundException text => text
  | .resourceExistsException text => text
  | .other text => text

/-- A secret is asked for by its name or by its ARN. -/
inductive SecretId
  | name (name : String)
  | arn (arn : String)
  deriving DecidableEq, Repr

structure SecretListEntry where
  name : Option String
  arn : Option String
  deriving DecidableEq, Repr

structure ListSecretsOutput where
  secretList : Option (List SecretListEntry)
  nextToken : Option String
  deriving DecidableEq, Repr

structure GetSecretValueOutput where
  arn : Option String
  secretString : Option String
  deriving DecidableEq, Repr

inductive Request
  | readToString (filename : String)
  | pathExists (filename : String)
  | writeFile (filename content : String)
  | eprintln (line : String)
  | listSecrets (namePrefix : String) (nextToken : Option String)
  | getSecretValue (secretId : SecretId)
  | createSecret (name kmsKeyId secretString : String)
  | updateSecret (secretId kmsKeyId secretString : String)

abbrev Reply : Request → Type
  | .readToString _ => Option String
  | .pathExists _ => Bool
  | .writeFile _ _ => Option Unit
  | .eprintln _ => Unit
  | .listSecrets _ _ => Except SdkError ListSecretsOutput
  | .getSecretValue _ => Except SdkError GetSecretValueOutput
  | .createSecret _ _ _ => Except SdkError Unit
  | .updateSecret _ _ _ => Except SdkError Unit

/-- `endless` is a listing with more pages than the fuel lets through. -/
inductive Stop
  | panicked
  | endless
  deriving DecidableEq, Repr

abbrev Code := ExceptT Stop (Prog Request Reply)

def ask (e : Request) : Code (Reply e) := ExceptT.lift (Prog.perform e)

end requests

section names
variable (instanceName deployment : String)

/-- `toml_name_to_secret_name`. -/
def tomlNameToSecretName (name : String) : String :=
  "plaid-" ++ deployment ++ "-" ++ instanceName ++ "-" ++ name

def stripPrefix (pre s : String) : Option String :=
  if pre.toList.isPrefixOf s.toList then some (String.ofList (s.toList.drop pre.toList.length)) else none

/-- `strip_secret_name`; it panics on a name without the prefix. -/
def stripSecretName (s : String) : Option String :=
  stripPrefix ("plaid-" ++ deployment ++ "-" ++ instanceName ++ "-") s

/-- What the download asks for, without the last dash. -/
def namePrefix : String := "plaid-" ++ deployment ++ "-" ++ instanceName

end names

section programs

variable (toml : TomlText) (order : Iteration Value) (kmsKeyId : String) (overwrite : Bool)

def createSecret (secret : PlaidSecret) : Code Unit := do
  match ← ask (.createSecret secret.name kmsKeyId secret.value) with
  | .ok _ => return
  | .error (.resourceExistsException _) => return
  | .error _ => throw .panicked

variable (instanceName deployment : String)

end programs

section service

structure World where
  secrets : AList fun _ : String => String
  files : AList fun _ : String => String
  stderr : List String

/-- From a token on, a listing comes in these pages. -/
inductive Pages (page : Option String → List String × Option String) :
    Option String → List (List String) → Prop
  | last {token : Option String} {names : List String} (h : page token = (names, none)) :
      Pages page token [names]
  | more {token : Option String} {next : String} {names : List String} {rest : List (List String)}
      (h : page token = (names, some next)) (after : Pages page (some next) rest) :
      Pages page token (names :: rest)

/-- What is left open about Secrets Manager: how it makes up ARNs, and how it cuts into pages the
listing of the secrets whose names begin with some text. -/
structure Service where
  arnOf : String → String
  arnOf_injective : Function.Injective arnOf
  page : (AList fun _ : String => String) → String → Option String → List String × Option String
  lists : ∀ secrets pre, ∃ pages, Pages (page secrets pre) none pages ∧
    pages.flatten.Perm (secrets.keys.filter fun n => pre.toList.isPrefixOf n.toList)

variable (sv : Service)

def Service.find (secrets : AList fun _ : String => String) : SecretId → Option (String × String)
  | .name n => (secrets.lookup n).map fun v => (n, v)
  | .arn a => (pairs secrets).find? fun e => sv.arnOf e.1 = a

/-- The answers when nothing fails. -/
def answer (w : World) : (e : Request) → Option (Reply e × World)
  | .readToString f => some (w.files.lookup f, w)
  | .pathExists f => some ((w.files.lookup f).isSome, w)
  | .writeFile f content => some (some (), { w with files := w.files.insert f content })
  | .eprintln line => some ((), { w with stderr := w.stderr ++ [line] })
  | .listSecrets pre token =>
    let (names, next) := sv.page w.secrets pre token
    some (.ok ⟨some (names.map fun n => ⟨some n, some (sv.arnOf n)⟩), next⟩, w)
  | .getSecretValue id =>
    match sv.find w.secrets id with
    | some (n, v) => some (.ok ⟨some (sv.arnOf n), some v⟩, w)
    | none => some (.error (.resourceNotFoundException "ResourceNotFoundException"), w)
  | .createSecret n _ v =>
    match w.secrets.lookup n with
    | some _ => some (.error (.resourceExistsException "ResourceExistsException"), w)
    | none => some (.ok (), { w with secrets := w.secrets.insert n v })
  | .updateSecret a _ v =>
    match sv.find w.secrets (.arn a) with
    | some (n, _) => some (.ok (), { w with secrets := w.secrets.insert n v })
    | none => some (.error (.resourceNotFoundException "ResourceNotFoundException"), w)

end service

section running
variable {α β : Type} {handle : Prog.Handler Request Reply World} {w w' : World}

end running

section upload
variable {sv : Service} {kmsKeyId : String} {overwrite : Bool} {w w' u : World}

/-- The value of one secret after an upload; with `overwrite` a line says so where it is not the
one of the file. -/
def Stored (overwrite : Bool) (w w' : World) (s : PlaidSecret) : Prop :=
  w'.secrets.lookup s.name =
      some (if overwrite then s.value else (w.secrets.lookup s.name).getD s.value) ∨
    overwrite = true ∧ w'.secrets.lookup s.name = w.secrets.lookup s.name ∧ w'.stderr ≠ w.stderr

structure Uploaded (overwrite : Bool) (secrets : List PlaidSecret) (w w' : World) : Prop where
  files : w'.files = w.files
  stderr : w.stderr <+: w'.stderr
  others : ∀ n ∉ secrets.map PlaidSecret.name, w'.secrets.lookup n = w.secrets.lookup n
  stored : ∀ s ∈ secrets, Stored overwrite w w' s

/-- What has been stored stays when secrets of other names are uploaded. -/
theorem Uploaded.cons {s : PlaidSecret} {secrets : List PlaidSecret} (h : Uploaded overwrite [s] w u)
    (hrest : Uploaded overwrite secrets u w') (hnew : s.name ∉ secrets.map PlaidSecret.name) :
    Uploaded overwrite (s :: secrets) w w' where
  files := hrest.files.trans h.files
  stderr := h.stderr.trans hrest.stderr
  others := by
    intro n hn
    rw [List.map_cons, List.mem_cons, not_or] at hn
    rw [hrest.others n hn.2, h.others n (by simpa using hn.1)]
  stored := by
    intro s' hs'
    have hlines : ∀ v : World, w.stderr <+: v.stderr → v.stderr <+: w'.stderr → v.stderr ≠ w.stderr →
        w'.stderr ≠ w.stderr := by
      intro v hv hv' hne heq
      rw [heq] at hv'
      exact hne (hv'.eq_of_length_le hv.length_le)
    obtain rfl | hs' := List.mem_cons.mp hs'
    · obtain hstored | ⟨hover, hkept, hline⟩ := h.stored s' (List.mem_singleton_self s')
      · exact .inl ((hrest.others _ hnew).trans hstored)
      · exact .inr ⟨hover, (hrest.others _ hnew).trans hkept, hlines u h.stderr hrest.stderr hline⟩
    · have hne : s'.name ≠ s.name := by
        intro heq
        exact hnew (heq ▸ List.mem_map_of_mem hs')
      have hbefore := h.others s'.name (by simpa using hne)
      obtain hstored | ⟨hover, hkept, hline⟩ := hrest.stored s' hs'
      · rw [hbefore] at hstored
        exact .inl hstored
      · refine .inr ⟨hover, hkept.trans hbefore, fun heq => hline ?_⟩
        have hle := hrest.stderr
        rw [heq] at hle ⊢
        exact h.stderr.eq_of_length_le hle.length_le

end upload

section tables
variable {instanceName deployment : String}

theorem stripPrefix_eq_some {pre s k : String} : stripPrefix pre s = some k ↔ s = pre ++ k := by
  rw [stripPrefix, ← String.toList_inj, String.toList_append]
  constructor
  · intro h
    split_ifs at h with hpre
    cases h
    obtain ⟨rest, hrest⟩ := List.isPrefixOf_iff_prefix.mp hpre
    rw [← hrest, List.drop_left, String.toList_ofList]
  · intro h
    have hpre : pre.toList.isPrefixOf s.toList := List.isPrefixOf_iff_prefix.mpr ⟨_, h.symm⟩
    rw [if_pos hpre, h, List.drop_left, String.ofList_toList]

theorem stripSecretName_eq_some {n k : String} :
    stripSecretName instanceName deployment n = some k ↔
      n = tomlNameToSecretName instanceName deployment k :=
  stripPrefix_eq_some

theorem tomlNameToSecretName_injective :
    Function.Injective (tomlNameToSecretName instanceName deployment) := by
  intro k k' h
  have hstrip := stripSecretName_eq_some.mpr h
  rw [stripSecretName_eq_some.mpr rfl] at hstrip
  exact Option.some.inj hstrip

/-- A table of a file has been uploaded. -/
structure TableUploaded (overwrite : Bool) (instanceName deployment : String) (table : Table)
    (w w' : World) : Prop where
  files : w'.files = w.files
  stderr : w.stderr <+: w'.stderr
  strings : ∀ k v, table.lookup k = some v → v.asStr.isSome
  others : ∀ n, (∀ k ∈ table, n ≠ tomlNameToSecretName instanceName deployment k) →
    w'.secrets.lookup n = w.secrets.lookup n
  stored : ∀ k v, table.lookup k = some (.string v) →
    Stored overwrite w w' ⟨tomlNameToSecretName instanceName deployment k, v⟩

variable {sv : Service} {kmsKeyId : String} {overwrite : Bool} {w w' : World} {toml : TomlText}
  {order : Iteration Value}

end tables

section download
variable {α β : Type} {sv : Service} {w t : World} {instanceName deployment : String} {toml : TomlText}

theorem eval_bind {x : Code α} {f : α → Code β} {a : α}
    (h : x.run.eval (answer sv) w = some (.ok a, t)) :
    (x >>= f).run.eval (answer sv) w = (f a).run.eval (answer sv) t := by
  have hbind : (x >>= f).run = (x.run >>= ExceptT.bindCont f : Prog Request Reply (Except Stop β)) := rfl
  rw [hbind, Prog.eval_bind, h]
  rfl

end download

section roundtrip
variable {w w' : World} {instanceName deployment : String} {toml : TomlText} {overwrite : Bool}

theorem TableUploaded.lookup {table : Table}
    (h : TableUploaded overwrite instanceName deployment table w w') (k : String)
    (hline : overwrite = true → w'.stderr = w.stderr) :
    (w'.secrets.lookup (tomlNameToSecretName instanceName deployment k)).map Value.string =
      if overwrite then (table.lookup k).or
        ((w.secrets.lookup (tomlNameToSecretName instanceName deployment k)).map .string)
      else ((w.secrets.lookup (tomlNameToSecretName instanceName deployment k)).map Value.string).or
        (table.lookup k) := by
  cases hk : table.lookup k with
  | none =>
    have hother : ∀ k' ∈ table, tomlNameToSecretName instanceName deployment k ≠
        tomlNameToSecretName instanceName deployment k' := by
      intro k' hk' heq
      rw [← tomlNameToSecretName_injective heq] at hk'
      exact AList.lookup_eq_none.mp hk hk'
    rw [h.others _ hother, Option.none_or, Option.or_none, ite_self]
  | some v =>
    obtain ⟨s, hs⟩ := Option.isSome_iff_exists.mp (h.strings k v hk)
    obtain rfl := asStr_eq_some.mp hs
    obtain hstored | ⟨hover, -, hne⟩ := h.stored k s hk
    · rw [hstored]
      cases overwrite with
      | true => rfl
      | false =>
        cases w.secrets.lookup (tomlNameToSecretName instanceName deployment k) <;> rfl
    · exact absurd (hline hover) hne

end roundtrip
end PlaidRuntime.SecretsManager
