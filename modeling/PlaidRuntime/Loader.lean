import PlaidRuntime.ApiFunctions
import PlaidRuntime.CacheBackends
import PlaidRuntime.Fallible
import PlaidRuntime.ModuleSigning
import PlaidRuntime.StorageHost

/-!
# Loading the modules

`load` (`loader/mod.rs`) reads the module directory, checks, compiles and configures every file,
counts what each module has stored, and files the modules by log type and by name.
-/
namespace PlaidRuntime.Loader
open Fallible KeyedContent GuestMemory ApiFunctions StorageHost
open CacheBackends (LimitedAmount)
open ModuleSigning (Sshcerts ModuleSigningConfiguration ReadDir checkModuleSignatures letters twoOfThree
  twoSigners)

abbrev Texts := AList fun _ : String => String
abbrev Data := AList fun _ : String => Bytes

inductive Errors
  | invalidFileType (expected received : String)
  | compileError (e : String)
  | signingError (e : String)
  | notEnoughValidSignatures (expected received : ℕ)
  | fileError (e : String)
  | missingFunction (name : String)
  | storageError (e : String)
  deriving DecidableEq, Repr

def Errors.ofSigning : ModuleSigning.Errors → Errors
  | .invalidFileType expected received => .invalidFileType expected received
  | .signingError e => .signingError e
  | .notEnoughValidSignatures valid required => .notEnoughValidSignatures valid required
  | .fileError e => .fileError e

def Errors.display : Errors → String
  | .invalidFileType expected received =>
    s!"Invalid file type '{received}': expected a {expected} file "
  | .compileError error => s!"Wasm compilation error: {error}"
  | .signingError error => s!"SshCerts error: {error}"
  | .notEnoughValidSignatures expected received =>
    s!"Expected {expected} valid signatures but only received {received}"
  | .fileError error => s!"IO error: {error}"
  | .missingFunction name => s!"Module imports unknown host function: {name}"
  | .storageError e => s!"Plaid encountered a storage error during module load: {e}"

/-- Refuses an amount of zero anywhere. -/
def deserializeLimitedAmount (raw : LimitedAmount) : Except String LimitedAmount :=
  if raw.default = 0 then .error "`default` cannot be zero"
  else match (pairs raw.logType).find? fun e => e.2 = 0 with
    | some e => .error ("`log_type." ++ e.1 ++ "` cannot be zero")
    | none =>
      match (pairs raw.moduleOverrides).find? fun e => e.2 = 0 with
      | some e => .error ("`module_overrides." ++ e.1 ++ "` cannot be zero")
      | none => .ok raw

structure LimitableAmount where
  default : LimitValue
  logType : AList fun _ : String => LimitValue
  moduleOverrides : AList fun _ : String => LimitValue

structure Signing (PublicKey : Type) extends ModuleSigningConfiguration PublicKey where
  panicOnInvalidSignature : Bool

structure Configuration (PublicKey : Type) where
  moduleDir : String
  logTypeOverrides : Texts
  computationAmount : LimitedAmount
  memoryPageCount : LimitedAmount
  storageSize : LimitableAmount
  secrets : AList fun _ : String => Texts
  universalAccessoryData : Option Texts
  accessoryDataLogTypeOverrides : AList fun _ : String => Texts
  accessoryDataFileOverrides : AList fun _ : String => Texts
  persistentResponseSize : AList fun _ : String => ℕ
  testMode : Bool
  testModeExemptions : List String
  moduleSigning : Option (Signing PublicKey)
  panicOnModuleLoadFailure : Bool

/-- An entry of the module directory, and what reading it gives. -/
structure ModuleFile where
  fileName : String
  bytes : Except String Bytes

/-- The compiler: `newModule` compiles for an engine that meters up to a computation limit and
allows so many pages. -/
structure Wasmer (Compiled : Type) where
  newModule : ℕ → ℕ → Bytes → Except String Compiled
  imports : Compiled → List Import

/-- `persistentResponse` is the size allowed; there is no response yet. -/
structure PlaidModule (Compiled : Type) where
  name : String
  logtype : String
  module : Compiled
  computationLimit : ℕ
  pageLimit : ℕ
  storageCurrent : ℕ
  storageLimit : LimitValue
  accessoryData : Option Data
  secrets : Option Data
  persistentResponse : Option ℕ
  testMode : Bool

structure PlaidModules (Compiled : Type) where
  channels : AList fun _ : String => List (PlaidModule Compiled)
  modules : AList fun _ : String => PlaidModule Compiled

section limits

/-- The resolution of `LimitedAmount.limit`, for a limit that can be unlimited. -/
def getModulePersistentStorageLimit (limitAmount : LimitableAmount) (filename logType : String) :
    LimitValue :=
  match limitAmount.moduleOverrides.lookup filename with
  | some amount => amount
  | none =>
    match limitAmount.logType.lookup logType with
    | some amount => amount
    | none => limitAmount.default

def getModuleComputationLimit (limitAmount : LimitedAmount) (filename logType : String) : ℕ :=
  limitAmount.limit filename logType

def u32Max : ℕ := 2 ^ 32 - 1

def getModulePageCount (limitAmount : LimitedAmount) (filename logType : String) : ℕ :=
  let pageCount := limitAmount.limit filename logType
  if u32Max < pageCount then u32Max else pageCount

theorem getModulePageCount_eq (limitAmount : LimitedAmount) (filename logType : String) :
    getModulePageCount limitAmount filename logType =
      min (limitAmount.limit filename logType) u32Max := by
  simp only [getModulePageCount]
  split_ifs <;> omega

theorem find_zero {c : AList fun _ : String => ℕ} :
    ((pairs c).find? fun e => e.2 = 0) = none ↔ ∀ k n, c.lookup k = some n → 0 < n := by
  rw [List.find?_eq_none]
  constructor
  · intro h k n hk
    have hne := h (k, n) (mem_pairs.mpr hk)
    simp only [decide_eq_true_eq] at hne
    omega
  · intro h e he
    have hpos := h e.1 e.2 (mem_pairs.mp he)
    simp only [decide_eq_true_eq]
    omega

/-- What is accepted is unchanged, and no module is given an amount of zero. -/
theorem deserializeLimitedAmount_ok {raw amount : LimitedAmount} :
    deserializeLimitedAmount raw = .ok amount ↔ amount = raw ∧ raw.Positive := by
  unfold deserializeLimitedAmount
  constructor
  · intro h
    split_ifs at h with hd
    cases hl : (pairs raw.logType).find? fun e => e.2 = 0 with
    | some e => simp [hl] at h
    | none =>
      cases hm : (pairs raw.moduleOverrides).find? fun e => e.2 = 0 with
      | some e => simp [hl, hm] at h
      | none =>
        simp only [hl, hm, Except.ok.injEq] at h
        exact ⟨h.symm, ⟨by omega, find_zero.mp hl, find_zero.mp hm⟩⟩
  · intro h
    obtain ⟨rfl, hd, hl, hm⟩ := h
    rw [if_neg (by omega), find_zero.mpr hl, find_zero.mpr hm]

end limits

section memory

structure MemoryType where
  minimum : ℕ
  maximum : Option ℕ
  deriving DecidableEq, Repr

def adjustMemory (limit : ℕ) (requested : MemoryType) : MemoryType :=
  if requested.maximum.isNone then { requested with maximum := some limit } else requested

def validateMemory (limit : ℕ) (ty : MemoryType) : Except String Unit :=
  if limit < ty.minimum then .error "Minimum exceeds the allowed memory limit"
  else match ty.maximum with
    | some max => if limit < max then .error "Maximum exceeds the allowed memory limit" else .ok ()
    | none => .error "Maximum unset"

/-- The type of the memory that the base tunables are asked to create. -/
def createMemory (limit : ℕ) (ty : MemoryType) : Except String MemoryType :=
  let adjusted := adjustMemory limit ty
  (validateMemory limit adjusted).map fun _ => adjusted

/-- A memory is created with a maximum, within the limit. -/
theorem createMemory_ok {limit : ℕ} {ty created : MemoryType} (h : createMemory limit ty = .ok created) :
    created.minimum ≤ limit ∧ ∃ max, created.maximum = some max ∧ max ≤ limit := by
  simp only [createMemory, validateMemory] at h
  cases hm : (adjustMemory limit ty).maximum with
  | none => split_ifs at h <;> simp [hm, Except.map] at h
  | some max =>
    simp only [hm] at h
    split_ifs at h with hmin hmax <;> simp only [Except.map, Except.ok.injEq, reduceCtorEq] at h
    subst h
    exact ⟨by omega, max, hm, by omega⟩

end memory

section loading
variable {PublicKey SshSignature Fingerprint Compiled : Type} [DecidableEq Fingerprint]
  (feats : Features) (ssh : Sshcerts PublicKey SshSignature Fingerprint) (readDir : ReadDir)
  (wasmer : Wasmer Compiled) (config : Configuration PublicKey)

/-- `str::ends_with`. -/
def endsWith (s pat : String) : Bool := pat.toList.isSuffixOf s.toList

/-- The path of an entry of a directory. -/
def pathOf (dir fileName : String) : String :=
  if dir.isEmpty || endsWith dir "/" then dir ++ fileName else dir ++ "/" ++ fileName

def readAndParseModules (path : ModuleFile) : Except Errors (String × Bytes) :=
  if endsWith path.fileName ".wasm" then
    match path.bytes with
    | .ok moduleBytes => .ok (path.fileName, moduleBytes)
    | .error e => .error (.fileError e)
  else .error (.invalidFileType ".wasm" path.fileName)

def toBytes (texts : Texts) : Data := mapValues asBytes texts

def readAndConfigureSecrets (secretsConfiguration : AList fun _ : String => Texts) :
    AList fun _ : String => Data :=
  mapValues toBytes secretsConfiguration

/-- Overrides are written over what is there; without any the data stay as they are. -/
def overlay (accessoryData : Option Data) (overrides : Option Texts) : Option Data :=
  match overrides with
  | some overrides => some (putAll (accessoryData.getD ∅) (pairs (toBytes overrides)))
  | none => accessoryData

def moduleAccessoryData (filename logtype : String) : Option Data :=
  let accessoryData := config.universalAccessoryData.map toBytes
  let accessoryData := overlay accessoryData (config.accessoryDataLogTypeOverrides.lookup logtype)
  overlay accessoryData (config.accessoryDataFileOverrides.lookup filename)

/-- The part of the name before the first `_`. -/
def firstSegment (filename : String) : String :=
  String.ofList (filename.toList.takeWhile fun c => c ≠ '_')

def logTypeOf (filename : String) : String :=
  match config.logTypeOverrides.lookup filename with
  | some type_ => type_
  | none => firstSegment filename

def checkImports (imports : List Import) : Except Errors Unit :=
  imports.forM fun i =>
    if isBindgen i.name then .ok ()
    else if isKnownApiFunction feats i.name then .ok ()
    else .error (.missingFunction i.name)

def compile (filename : String) (moduleBytes : Bytes) (logType : String) (testMode : Bool) :
    Except Errors (PlaidModule Compiled) := do
  let computationLimit := getModuleComputationLimit config.computationAmount filename logType
  let pageLimit := getModulePageCount config.memoryPageCount filename logType
  let storageLimit := getModulePersistentStorageLimit config.storageSize filename logType
  let module ← (wasmer.newModule computationLimit pageLimit moduleBytes).mapError .compileError
  checkImports feats (wasmer.imports module)
  return {
    name := filename
    logtype := logType
    module
    computationLimit
    pageLimit
    storageCurrent := 0
    storageLimit
    accessoryData := none
    secrets := none
    persistentResponse := none
    testMode }

/-- A module that cannot be loaded: the process panics, or the module is skipped. -/
structure Failure where
  panics : Bool
  text : String

def checkSigned (filename : String) (moduleBytes : Bytes) : Except Failure Unit :=
  match config.moduleSigning with
  | none => .ok ()
  | some signing =>
    (checkModuleSignatures ssh signing.toModuleSigningConfiguration readDir filename
      moduleBytes).mapError fun e => ⟨signing.panicOnInvalidSignature,
        s!"Module [{filename}] failed signature verification: {(Errors.ofSigning e).display}"⟩

def loadFile (path : ModuleFile) : Except Failure (PlaidModule Compiled) := do
  let (filename, moduleBytes) ← (readAndParseModules path).mapError fun e =>
    ⟨config.panicOnModuleLoadFailure,
      s!"Failed to parse module at [{pathOf config.moduleDir path.fileName}]: {e.display}"⟩
  checkSigned ssh readDir config filename moduleBytes
  let type_ := logTypeOf config filename
  let testMode := config.testMode && !config.testModeExemptions.contains filename
  let module ← (compile feats wasmer config filename moduleBytes type_ testMode).mapError fun e =>
    ⟨config.panicOnModuleLoadFailure, s!"Module [{filename}] failed to load: {e.display}"⟩
  return { module with
    persistentResponse := config.persistentResponseSize.lookup filename
    secrets := (readAndConfigureSecrets config.secrets).lookup type_
    accessoryData := moduleAccessoryData config filename type_ }

def skipOrPanic {α : Type} : Except Failure α → Except String (Option α)
  | .ok a => .ok (some a)
  | .error f => if f.panics then .error f.text else .ok none

/-- A bad entry of the directory is always skipped. -/
def loadEntry : Except String ModuleFile → Except String (Option (PlaidModule Compiled))
  | .error _ => .ok none
  | .ok path => skipOrPanic (loadFile feats ssh readDir wasmer config path)

def countStored (size : String → Except String ℕ) (module : PlaidModule Compiled) :
    Except Failure (PlaidModule Compiled) :=
  match (size module.name).mapError Errors.storageError with
  | .ok bytes => .ok { module with storageCurrent := bytes }
  | .error e => .error ⟨config.panicOnModuleLoadFailure,
      s!"Module [{module.name}] failed to look up namespace byte size: {e.display}"⟩

/-- The lookups run concurrently; `finish` is the order in which they come back. -/
def populateStorageSizes (finish : List (PlaidModule Compiled) → List (PlaidModule Compiled))
    (size : String → Except String ℕ) (modules : List (PlaidModule Compiled)) :
    Except String (List (PlaidModule Compiled)) := do
  let counted ← modules.mapM fun module => skipOrPanic (countStored config size module)
  return finish counted.reduceOption

/-- Without a storage there is nothing to count. -/
def withStorageSizes (finish : List (PlaidModule Compiled) → List (PlaidModule Compiled))
    (storage : Option (String → Except String ℕ)) (modules : List (PlaidModule Compiled)) :
    Except String (List (PlaidModule Compiled)) :=
  match storage with
  | some size => populateStorageSizes config finish size modules
  | none => .ok modules

def register (modules : PlaidModules Compiled) (module : PlaidModule Compiled) :
    PlaidModules Compiled where
  channels := push modules.channels module.logtype module
  modules := modules.modules.insert module.name module

def load (finish : List (PlaidModule Compiled) → List (PlaidModule Compiled))
    (storage : Option (String → Except String ℕ)) (directory : List (Except String ModuleFile)) :
    Except String (PlaidModules Compiled) := do
  let loaded ← directory.mapM (loadEntry feats ssh readDir wasmer config)
  let loadedModules ← withStorageSizes config finish storage loaded.reduceOption
  return loadedModules.foldl register ⟨∅, ∅⟩

section checks
variable {feats ssh readDir wasmer config}

theorem lookup_overlay (accessoryData : Option Data) (overrides : Option Texts) (key : String) :
    (overlay accessoryData overrides).bind (fun data => data.lookup key) =
      ((overrides.bind fun texts => texts.lookup key).map asBytes).or
        (accessoryData.bind fun data => data.lookup key) := by
  unfold overlay
  cases overrides with
  | none => simp
  | some texts =>
    simp only [Option.bind_some, lookup_putAll_pairs, toBytes, lookup_mapValues]
    cases accessoryData <;> simp

/-- What a module finds under a key: the value for its file, else the one for its log type, else the
universal one. -/
def accessoryValue (config : Configuration PublicKey) (filename logtype key : String) :
    Option String :=
  ((config.accessoryDataFileOverrides.lookup filename).bind fun texts => texts.lookup key).or
    (((config.accessoryDataLogTypeOverrides.lookup logtype).bind fun texts => texts.lookup key).or
      (config.universalAccessoryData.bind fun texts => texts.lookup key))

def secretValue (config : Configuration PublicKey) (logtype key : String) : Option String :=
  (config.secrets.lookup logtype).bind fun texts => texts.lookup key

theorem lookup_moduleAccessoryData (filename logtype key : String) :
    (moduleAccessoryData config filename logtype).bind (fun data => data.lookup key) =
      (accessoryValue config filename logtype key).map asBytes := by
  simp only [moduleAccessoryData, lookup_overlay, accessoryValue, Option.map_or]
  congr 2
  cases config.universalAccessoryData <;> simp [toBytes, lookup_mapValues]

theorem lookup_secrets (logtype key : String) :
    ((readAndConfigureSecrets config.secrets).lookup logtype).bind (fun data => data.lookup key) =
      (secretValue config logtype key).map asBytes := by
  rw [readAndConfigureSecrets, lookup_mapValues, secretValue]
  cases config.secrets.lookup logtype <;> simp [toBytes, lookup_mapValues]

/-- The module has been configured as the configuration says for its name and log type. -/
structure Configured (config : Configuration PublicKey) (m : PlaidModule Compiled) : Prop where
  logtype : m.logtype = (config.logTypeOverrides.lookup m.name).getD (firstSegment m.name)
  computationLimit : m.computationLimit = config.computationAmount.limit m.name m.logtype
  pageLimit : m.pageLimit = min (config.memoryPageCount.limit m.name m.logtype) u32Max
  storageLimit : m.storageLimit = ((config.storageSize.moduleOverrides.lookup m.name).or
    (config.storageSize.logType.lookup m.logtype)).getD config.storageSize.default
  accessoryData : ∀ key, m.accessoryData.bind (fun data => data.lookup key) =
    (accessoryValue config m.name m.logtype key).map asBytes
  secrets : ∀ key, m.secrets.bind (fun data => data.lookup key) =
    (secretValue config m.logtype key).map asBytes
  persistentResponse : m.persistentResponse = config.persistentResponseSize.lookup m.name
  testMode : m.testMode = true ↔ config.testMode = true ∧ m.name ∉ config.testModeExemptions

/-- The file holds these bytes, is authorised, and compiles to a module whose imports are known. -/
structure Passes (feats : Features) (ssh : Sshcerts PublicKey SshSignature Fingerprint)
    (readDir : ReadDir) (wasmer : Wasmer Compiled) (config : Configuration PublicKey)
    (path : ModuleFile) (bytes : Bytes) (module : Compiled) : Prop where
  wasm : endsWith path.fileName ".wasm" = true
  read : path.bytes = .ok bytes
  signed : ∀ signing ∈ config.moduleSigning, checkModuleSignatures ssh
    signing.toModuleSigningConfiguration readDir path.fileName bytes = .ok ()
  compiled : wasmer.newModule
    (config.computationAmount.limit path.fileName (logTypeOf config path.fileName))
    (getModulePageCount config.memoryPageCount path.fileName (logTypeOf config path.fileName))
    bytes = .ok module
  imports : ∀ i ∈ wasmer.imports module,
    isBindgen i.name = true ∨ isKnownApiFunction feats i.name = true

theorem readAndParseModules_ok {path : ModuleFile} {r : String × Bytes} :
    readAndParseModules path = .ok r ↔
      endsWith path.fileName ".wasm" = true ∧ path.bytes = .ok r.2 ∧ r.1 = path.fileName := by
  unfold readAndParseModules
  constructor
  · intro h
    split_ifs at h with hw
    cases hb : path.bytes with
    | error e => simp [hb] at h
    | ok bytes =>
      simp only [hb, Except.ok.injEq] at h
      subst h
      exact ⟨hw, rfl, rfl⟩
  · intro h
    obtain ⟨hw, hb, hn⟩ := h
    rw [if_pos hw, hb, ← hn]

theorem checkSigned_ok {filename : String} {bytes : Bytes} :
    checkSigned ssh readDir config filename bytes = .ok () ↔
      ∀ signing ∈ config.moduleSigning, checkModuleSignatures ssh
        signing.toModuleSigningConfiguration readDir filename bytes = .ok () := by
  unfold checkSigned
  cases config.moduleSigning with
  | none => simp
  | some signing => simp [mapError_ok]

theorem checkImports_ok {imports : List Import} :
    checkImports feats imports = .ok () ↔
      ∀ i ∈ imports, isBindgen i.name = true ∨ isKnownApiFunction feats i.name = true := by
  rw [checkImports, forM_ok]
  refine forall₂_congr fun i _ => ?_
  by_cases hb : isBindgen i.name = true
  · simp [hb]
  · by_cases hk : isKnownApiFunction feats i.name = true <;> simp [hb, hk]

theorem getModulePersistentStorageLimit_eq (amount : LimitableAmount) (filename logType : String) :
    getModulePersistentStorageLimit amount filename logType =
      ((amount.moduleOverrides.lookup filename).or (amount.logType.lookup logType)).getD
        amount.default := by
  unfold getModulePersistentStorageLimit
  cases amount.moduleOverrides.lookup filename <;> cases amount.logType.lookup logType <;> rfl

/-- The module that `load_file` gives for a compiled module. -/
def configure (config : Configuration PublicKey) (filename : String) (module : Compiled) :
    PlaidModule Compiled where
  name := filename
  logtype := logTypeOf config filename
  module
  computationLimit := config.computationAmount.limit filename (logTypeOf config filename)
  pageLimit := getModulePageCount config.memoryPageCount filename (logTypeOf config filename)
  storageCurrent := 0
  storageLimit :=
    getModulePersistentStorageLimit config.storageSize filename (logTypeOf config filename)
  accessoryData := moduleAccessoryData config filename (logTypeOf config filename)
  secrets := (readAndConfigureSecrets config.secrets).lookup (logTypeOf config filename)
  persistentResponse := config.persistentResponseSize.lookup filename
  testMode := config.testMode && !config.testModeExemptions.contains filename

theorem configure_configured (filename : String) (module : Compiled) :
    Configured config (configure config filename module) where
  logtype := by
    unfold configure logTypeOf
    cases config.logTypeOverrides.lookup filename <;> rfl
  computationLimit := rfl
  pageLimit := getModulePageCount_eq _ _ _
  storageLimit := getModulePersistentStorageLimit_eq _ _ _
  accessoryData := lookup_moduleAccessoryData _ _
  secrets := lookup_secrets _
  persistentResponse := rfl
  testMode := by simp [configure]

theorem loadFile_ok {path : ModuleFile} {m : PlaidModule Compiled} :
    loadFile feats ssh readDir wasmer config path = .ok m ↔
      ∃ bytes module, Passes feats ssh readDir wasmer config path bytes module ∧
        m = configure config path.fileName module := by
  simp only [loadFile, compile, mapError_bind, bind_ok, mapError_ok, readAndParseModules_ok]
  constructor
  · intro h
    obtain ⟨⟨filename, bytes⟩, ⟨hw, hb, rfl⟩, ⟨⟩, hs, _, ⟨module, hc, ⟨⟩, hi, hm⟩, hr⟩ := h
    cases hm
    cases hr
    exact ⟨bytes, module, ⟨hw, hb, checkSigned_ok.mp hs, hc, checkImports_ok.mp hi⟩, rfl⟩
  · intro h
    obtain ⟨bytes, module, hp, rfl⟩ := h
    exact ⟨(path.fileName, bytes), ⟨hp.wasm, hp.read, rfl⟩, (), checkSigned_ok.mpr hp.signed, _,
      ⟨module, hp.compiled, (), checkImports_ok.mpr hp.imports, rfl⟩, rfl⟩

end checks

section registry
variable {feats ssh readDir wasmer config}
  {finish : List (PlaidModule Compiled) → List (PlaidModule Compiled)}
  {storage : Option (String → Except String ℕ)} {directory : List (Except String ModuleFile)}
  {modules : PlaidModules Compiled}

def fileNames (directory : List (Except String ModuleFile)) : List String :=
  directory.filterMap fun entry => entry.toOption.map ModuleFile.fileName

/-- What the storage holds for a module; nothing without a storage. -/
def Stored (storage : Option (String → Except String ℕ)) (name : String) (bytes : ℕ) : Prop :=
  match storage with
  | some size => size name = .ok bytes
  | none => bytes = 0

theorem skipOrPanic_some {α : Type} {r : Except Failure α} {a : α} :
    skipOrPanic r = .ok (some a) ↔ r = .ok a := by
  cases r with
  | ok b => simp [skipOrPanic]
  | error f =>
    simp only [skipOrPanic]
    split_ifs <;> simp

theorem skipOrPanic_none {α : Type} {r : Except Failure α} (h : skipOrPanic r = .ok none) :
    ∃ f, r = .error f ∧ f.panics = false := by
  unfold skipOrPanic at h
  cases r with
  | ok b => simp at h
  | error f =>
    refine ⟨f, rfl, ?_⟩
    cases hp : f.panics with
    | false => rfl
    | true => simp [hp] at h

/-- The module counted, when the lookup succeeds. -/
theorem countStored_ok {size : String → Except String ℕ} {m m' : PlaidModule Compiled} :
    countStored config size m = .ok m' ↔
      ∃ bytes, size m.name = .ok bytes ∧ m' = { m with storageCurrent := bytes } := by
  unfold countStored
  cases size m.name with
  | ok bytes => simp [Except.mapError, eq_comm]
  | error e => simp [Except.mapError]

/-- Counting keeps every module whose lookup succeeds, in some order. -/
theorem withStorageSizes_ok (hfinish : ∀ l, (finish l).Perm l) {ms loaded : List (PlaidModule Compiled)}
    (hms : ∀ m ∈ ms, m.storageCurrent = 0)
    (h : withStorageSizes config finish storage ms = .ok loaded) :
    (∃ names, (loaded.map PlaidModule.name).Perm names ∧ names.Sublist (ms.map PlaidModule.name)) ∧
      ∀ m, m ∈ loaded ↔ Stored storage m.name m.storageCurrent ∧
        { m with storageCurrent := 0 } ∈ ms := by
  cases storage with
  | none =>
    cases h
    refine ⟨⟨_, List.Perm.refl _, List.Sublist.refl _⟩, fun m => ⟨fun hm => ?_, fun hm => ?_⟩⟩
    · have h0 := hms m hm
      exact ⟨h0, by rwa [← h0]⟩
    · have h0 : m.storageCurrent = 0 := hm.1
      rw [← h0] at hm
      exact hm.2
  | some size =>
    simp only [withStorageSizes, populateStorageSizes, bind_ok] at h
    obtain ⟨counted, hcounted, hl⟩ := h
    cases hl
    have hperm := hfinish counted.reduceOption
    have hsub : (counted.reduceOption.map PlaidModule.name).Sublist
        (ms.filterMap fun m => some m.name) := by
      refine sublist_of_mapM (fun m m' hm => ?_) hcounted
      obtain ⟨bytes, -, rfl⟩ := countStored_ok.mp (skipOrPanic_some.mp hm)
      rfl
    refine ⟨⟨_, hperm.map _, hsub.trans (by simp)⟩, fun m => ?_⟩
    rw [hperm.mem_iff, List.reduceOption_mem_iff, mem_of_mapM hcounted]
    constructor
    · intro hm
      obtain ⟨m₀, hm₀, hm⟩ := hm
      obtain ⟨n, hn, rfl⟩ := countStored_ok.mp (skipOrPanic_some.mp hm)
      exact ⟨hn, by rw [← hms m₀ hm₀]; exact hm₀⟩
    · intro hm
      exact ⟨_, hm.2, skipOrPanic_some.mpr (countStored_ok.mpr ⟨_, hm.1, rfl⟩)⟩

/-- The modules that `load` files, before they are filed. -/
theorem load_modules (hfinish : ∀ l, (finish l).Perm l)
    (h : load feats ssh readDir wasmer config finish storage directory = .ok modules) :
    ∃ loaded : List (PlaidModule Compiled), modules = loaded.foldl register ⟨∅, ∅⟩ ∧
      (∃ names, (loaded.map PlaidModule.name).Perm names ∧ names.Sublist (fileNames directory)) ∧
      ∀ m, m ∈ loaded ↔ Stored storage m.name m.storageCurrent ∧ ∃ path, .ok path ∈ directory ∧
        ∃ bytes module, Passes feats ssh readDir wasmer config path bytes module ∧
          { m with storageCurrent := 0 } = configure config path.fileName module := by
  simp only [load, bind_ok] at h
  obtain ⟨entries, hentries, loaded, hloaded, hmodules⟩ := h
  have hnames : (entries.reduceOption.map PlaidModule.name).Sublist (fileNames directory) := by
    refine sublist_of_mapM (fun entry m hm => ?_) hentries
    cases entry with
    | error e => cases hm
    | ok path =>
      obtain ⟨_, _, -, rfl⟩ := loadFile_ok.mp (skipOrPanic_some.mp hm)
      rfl
  have hmem : ∀ m, m ∈ entries.reduceOption ↔ ∃ path, .ok path ∈ directory ∧ ∃ bytes module,
      Passes feats ssh readDir wasmer config path bytes module ∧
      m = configure config path.fileName module := by
    intro m
    rw [List.reduceOption_mem_iff, mem_of_mapM hentries]
    constructor
    · intro hm
      obtain ⟨entry, hentry, hm⟩ := hm
      cases entry with
      | error e => cases hm
      | ok path => exact ⟨path, hentry, loadFile_ok.mp (skipOrPanic_some.mp hm)⟩
    · intro hm
      obtain ⟨path, hpath, hm⟩ := hm
      exact ⟨.ok path, hpath, skipOrPanic_some.mpr (loadFile_ok.mpr hm)⟩
  have hzero : ∀ m ∈ entries.reduceOption, m.storageCurrent = 0 := by
    intro m hm
    obtain ⟨_, _, _, _, _, rfl⟩ := (hmem m).mp hm
    rfl
  obtain ⟨⟨names, hperm, hsub⟩, hcounted⟩ := withStorageSizes_ok hfinish hzero hloaded
  refine ⟨loaded, (Except.ok.inj hmodules).symm, ⟨names, hperm, hsub.trans hnames⟩, fun m => ?_⟩
  rw [hcounted, hmem]

theorem foldl_register (l : List (PlaidModule Compiled)) (s : PlaidModules Compiled) :
    l.foldl register s = ⟨l.foldl (fun c m => push c m.logtype m) s.channels,
      putAll s.modules (l.map fun m => (m.name, m))⟩ := by
  induction l generalizing s with
  | nil => rfl
  | cons m l ih => exact (ih _).trans rfl

/-- The signatures of a file have been looked at, and it was refused for them. -/
def Refused (ssh : Sshcerts PublicKey SshSignature Fingerprint) (readDir : ReadDir)
    (config : Configuration PublicKey) (path : ModuleFile) : Prop :=
  endsWith path.fileName ".wasm" = true ∧ ∃ bytes signing, path.bytes = .ok bytes ∧
    signing ∈ config.moduleSigning ∧ checkModuleSignatures ssh
      signing.toModuleSigningConfiguration readDir path.fileName bytes ≠ .ok ()

theorem checkSigned_error {filename : String} {bytes : Bytes} {f : Failure}
    (h : checkSigned ssh readDir config filename bytes = .error f) :
    ∃ signing ∈ config.moduleSigning, checkModuleSignatures ssh
      signing.toModuleSigningConfiguration readDir filename bytes ≠ .ok () ∧
        f.panics = signing.panicOnInvalidSignature := by
  unfold checkSigned at h
  cases hm : config.moduleSigning with
  | none => simp [hm] at h
  | some signing =>
    rw [hm] at h
    obtain ⟨e, he, rfl⟩ := mapError_error.mp h
    exact ⟨signing, rfl, by simp [he], rfl⟩

/-- A file fails for its signatures or otherwise, and each kind has its own flag. -/
theorem loadFile_error {path : ModuleFile} {f : Failure}
    (h : loadFile feats ssh readDir wasmer config path = .error f) :
    f.panics = config.panicOnModuleLoadFailure ∨ Refused ssh readDir config path ∧
      ∃ signing ∈ config.moduleSigning, f.panics = signing.panicOnInvalidSignature := by
  simp only [loadFile, bind_error, mapError_error] at h
  obtain ⟨e, -, rfl⟩ | ⟨⟨filename, bytes⟩, hread, h⟩ := h
  · exact .inl rfl
  · obtain ⟨hwasm, hbytes, rfl⟩ := readAndParseModules_ok.mp (mapError_ok.mp hread)
    obtain h | ⟨u, -, h⟩ := h
    · obtain ⟨signing, hsigning, hrefused, hpanics⟩ := checkSigned_error h
      exact .inr ⟨⟨hwasm, bytes, signing, hbytes, hsigning, hrefused⟩, signing, hsigning, hpanics⟩
    · obtain ⟨e, -, rfl⟩ | ⟨m, -, h⟩ := h
      · exact .inl rfl
      · cases h

theorem countStored_error {size : String → Except String ℕ} {m : PlaidModule Compiled} {f : Failure}
    (h : countStored config size m = .error f) : f.panics = config.panicOnModuleLoadFailure := by
  unfold countStored at h
  split at h
  · cases h
  · cases h
    rfl

/-- Where every failure panics, what `skip_or_panic` lets through has succeeded. -/
theorem ok_of_panics {α : Type} {r : Except Failure α} {o : Option α} (h : skipOrPanic r = .ok o)
    (hr : ∀ f, r = .error f → f.panics = true) : ∃ a, r = .ok a ∧ o = some a := by
  cases o with
  | some a => exact ⟨a, skipOrPanic_some.mp h, rfl⟩
  | none =>
    obtain ⟨f, hf, hnot⟩ := skipOrPanic_none h
    rw [hr f hf] at hnot
    cases hnot

/-- Where load failures panic, a file that is not registered was refused for its signatures. -/
theorem load_or_refused (hpanic : config.panicOnModuleLoadFailure = true)
    (h : load feats ssh readDir wasmer config finish storage directory = .ok modules)
    {path : ModuleFile} (hpath : .ok path ∈ directory) :
    ((∃ bytes module, Passes feats ssh readDir wasmer config path bytes module) ∧
      ∃ n, Stored storage path.fileName n) ∨ Refused ssh readDir config path := by
  simp only [load, bind_ok] at h
  obtain ⟨entries, hentries, loaded, hloaded, -⟩ := h
  obtain ⟨o, ho⟩ := exists_mapM_ok.mp ⟨entries, hentries⟩ _ hpath
  cases hfile : loadFile feats ssh readDir wasmer config path with
  | error f =>
    obtain hload | ⟨hrefused, -⟩ := loadFile_error hfile
    · have hskip : skipOrPanic (loadFile feats ssh readDir wasmer config path) = .ok o := ho
      obtain ⟨m, hm, -⟩ := ok_of_panics hskip fun f' hf' => by
        rw [hfile] at hf'
        cases hf'
        rw [hload, hpanic]
      rw [hfile] at hm
      cases hm
    · exact .inr hrefused
  | ok m =>
    obtain ⟨bytes, module, hp, rfl⟩ := loadFile_ok.mp hfile
    refine .inl ⟨⟨bytes, module, hp⟩, ?_⟩
    cases storage with
    | none => exact ⟨0, rfl⟩
    | some size =>
      simp only [withStorageSizes, populateStorageSizes, bind_ok] at hloaded
      obtain ⟨counted, hcounted, -⟩ := hloaded
      have hsome : loadEntry feats ssh readDir wasmer config (.ok path) =
          .ok (some (configure config path.fileName module)) := by
        rw [loadEntry, hfile]
        rfl
      have hmem := List.reduceOption_mem_iff.mpr ((mem_of_mapM hentries).mpr ⟨_, hpath, hsome⟩)
      obtain ⟨o, ho⟩ := exists_mapM_ok.mp ⟨counted, hcounted⟩ _ hmem
      obtain ⟨m, hm, -⟩ := ok_of_panics ho fun f hf => by rw [countStored_error hf, hpanic]
      obtain ⟨n, hn, -⟩ := countStored_ok.mp hm
      exact ⟨n, hn⟩

/-- Where invalid signatures panic, no file was refused for its signatures. -/
theorem load_not_refused
    (hpanic : ∀ signing ∈ config.moduleSigning, signing.panicOnInvalidSignature = true)
    (h : load feats ssh readDir wasmer config finish storage directory = .ok modules)
    {path : ModuleFile} (hpath : .ok path ∈ directory) : ¬Refused ssh readDir config path := by
  rintro ⟨hwasm, bytes, signing, hbytes, hsigning, hrefused⟩
  simp only [load, bind_ok] at h
  obtain ⟨entries, hentries, -⟩ := h
  obtain ⟨o, ho⟩ := exists_mapM_ok.mp ⟨entries, hentries⟩ _ hpath
  have hskip : skipOrPanic (loadFile feats ssh readDir wasmer config path) = .ok o := ho
  have hread : readAndParseModules path = .ok (path.fileName, bytes) :=
    readAndParseModules_ok.mpr ⟨hwasm, hbytes, rfl⟩
  cases hsigned : checkSigned ssh readDir config path.fileName bytes with
  | ok u => exact hrefused (checkSigned_ok.mp hsigned signing hsigning)
  | error f =>
    obtain ⟨signing', hsigning', -, hpanics⟩ := checkSigned_error hsigned
    have hfile : loadFile feats ssh readDir wasmer config path = .error f := by
      simp only [loadFile, bind_error, mapError_error]
      exact .inr ⟨_, mapError_ok.mpr hread, .inl hsigned⟩
    rw [hfile, skipOrPanic, if_pos (hpanics.trans (hpanic signing' hsigning'))] at hskip
    cases hskip

theorem eq_of_fileName {path path' : ModuleFile} (hnames : (fileNames directory).Nodup)
    (h : .ok path ∈ directory) (h' : .ok path' ∈ directory) (he : path.fileName = path'.fileName) :
    path = path' := by
  induction directory with
  | nil => cases h
  | cons entry directory ih =>
    have hin : ∀ p : ModuleFile, .ok p ∈ directory → p.fileName ∈ fileNames directory := fun p hp =>
      List.mem_filterMap.mpr ⟨.ok p, hp, rfl⟩
    cases entry with
    | error e =>
      exact ih hnames (by simpa using h) (by simpa using h')
    | ok p =>
      obtain ⟨hnot, hrest⟩ := List.nodup_cons.mp hnames
      obtain hp | hp := List.mem_cons.mp h <;> obtain hp' | hp' := List.mem_cons.mp h'
      · exact Except.ok.inj (hp.trans hp'.symm)
      · exact absurd (Except.ok.inj hp ▸ he ▸ hin _ hp') hnot
      · exact absurd (Except.ok.inj hp' ▸ he ▸ hin _ hp) hnot
      · exact ih hrest hp hp'

/-- The registry holds the files that can be loaded, each configured under its name, and a channel
holds the modules of its log type, each once. -/
structure Registry (feats : Features) (ssh : Sshcerts PublicKey SshSignature Fingerprint)
    (readDir : ReadDir) (wasmer : Wasmer Compiled) (config : Configuration PublicKey)
    (storage : Option (String → Except String ℕ)) (directory : List (Except String ModuleFile))
    (modules : PlaidModules Compiled) : Prop where
  loaded : ∀ path, .ok path ∈ directory → ((∃ m, modules.modules.lookup path.fileName = some m) ↔
    (∃ bytes module, Passes feats ssh readDir wasmer config path bytes module) ∧
      ∃ n, Stored storage path.fileName n)
  configured : ∀ name m, modules.modules.lookup name = some m → m.name = name ∧
    Configured config m ∧ Stored storage name m.storageCurrent ∧ ∃ path bytes,
      .ok path ∈ directory ∧ path.fileName = name ∧
        Passes feats ssh readDir wasmer config path bytes m.module
  channel : ∀ logtype m, m ∈ (modules.channels.lookup logtype).getD [] ↔
    m.logtype = logtype ∧ modules.modules.lookup m.name = some m
  distinct : ∀ logtype ms, modules.channels.lookup logtype = some ms →
    ms ≠ [] ∧ (ms.map PlaidModule.name).Nodup
  complete : config.panicOnModuleLoadFailure = true → ∀ path, .ok path ∈ directory →
    (∃ m, modules.modules.lookup path.fileName = some m) ∨ Refused ssh readDir config path
  signed : (∀ signing ∈ config.moduleSigning, signing.panicOnInvalidSignature = true) →
    ∀ path, .ok path ∈ directory → ¬Refused ssh readDir config path

/-- Filing keeps every module, when their names differ. -/
theorem register_spec {loaded : List (PlaidModule Compiled)}
    (hnames : (loaded.map PlaidModule.name).Nodup) :
    (∀ name m, (loaded.foldl register ⟨∅, ∅⟩).modules.lookup name = some m ↔
      m ∈ loaded ∧ m.name = name) ∧
    ∀ logtype, (loaded.foldl register ⟨∅, ∅⟩).channels.lookup logtype =
      if logtype ∈ loaded.map PlaidModule.logtype then
        some (loaded.filter fun m => decide (m.logtype = logtype))
      else none := by
  rw [foldl_register]
  refine ⟨fun name m => ?_, fun logtype => lookup_group PlaidModule.logtype loaded logtype⟩
  have hkeys : ((loaded.map fun m => (m.name, m)).map Prod.fst).Nodup := by
    rwa [List.map_map, show Prod.fst ∘ (fun m : PlaidModule Compiled => (m.name, m)) =
      PlaidModule.name from rfl]
  constructor
  · intro h
    obtain hm | hm := lookup_putAll h
    · obtain ⟨m', hm', heq⟩ := List.mem_map.mp hm
      cases heq
      exact ⟨hm', rfl⟩
    · cases hm.1
  · intro h
    exact lookup_putAll_of_mem hkeys (List.mem_map.mpr ⟨m, h.1, by rw [h.2]⟩)

/-- What `load` returns, for a directory that lists no name twice. -/
theorem load_registers (hfinish : ∀ l, (finish l).Perm l) (hnames : (fileNames directory).Nodup)
    (h : load feats ssh readDir wasmer config finish storage directory = .ok modules) :
    Registry feats ssh readDir wasmer config storage directory modules := by
  obtain ⟨loaded, rfl, ⟨names, hperm, hsub⟩, hmem⟩ := load_modules hfinish h
  have hnodup : (loaded.map PlaidModule.name).Nodup := hperm.nodup_iff.mpr (hnames.sublist hsub)
  obtain ⟨hmodules, hchannels⟩ := register_spec hnodup
  have hloaded : ∀ path, .ok path ∈ directory →
      ((∃ bytes module, Passes feats ssh readDir wasmer config path bytes module) ∧
        ∃ n, Stored storage path.fileName n) →
      ∃ m, (loaded.foldl register ⟨∅, ∅⟩).modules.lookup path.fileName = some m := by
    intro path hpath hok
    obtain ⟨⟨bytes, module, hp⟩, n, hn⟩ := hok
    refine ⟨{ configure config path.fileName module with storageCurrent := n }, ?_⟩
    rw [hmodules, hmem]
    exact ⟨⟨hn, path, hpath, bytes, module, hp, rfl⟩, rfl⟩
  have hconfigured : ∀ name m, (loaded.foldl register ⟨∅, ∅⟩).modules.lookup name = some m →
      m.name = name ∧ Configured config m ∧ Stored storage name m.storageCurrent ∧ ∃ path bytes,
        .ok path ∈ directory ∧ path.fileName = name ∧
          Passes feats ssh readDir wasmer config path bytes m.module := by
    intro name m hm
    obtain ⟨hin, rfl⟩ := (hmodules name m).mp hm
    obtain ⟨hstored, path, hpath, bytes, module, hp, heq⟩ := (hmem m).mp hin
    have hname : m.name = path.fileName := congrArg PlaidModule.name heq
    have hmodule : m.module = module := congrArg PlaidModule.module heq
    have hc : Configured config { m with storageCurrent := 0 } := heq ▸ configure_configured _ _
    exact ⟨rfl, ⟨hc.1, hc.2, hc.3, hc.4, hc.5, hc.6, hc.7, hc.8⟩, hstored, path, bytes, hpath,
      hname.symm, hmodule ▸ hp⟩
  constructor
  case loaded =>
    intro path hpath
    refine ⟨fun hm => ?_, hloaded path hpath⟩
    obtain ⟨m, hm⟩ := hm
    obtain ⟨-, -, hstored, path', bytes, hpath', hname, hp⟩ := hconfigured _ m hm
    rw [← eq_of_fileName hnames hpath' hpath hname]
    exact ⟨⟨bytes, m.module, hp⟩, _, hname ▸ hstored⟩
  case configured => exact hconfigured
  case channel =>
    intro logtype m
    rw [hchannels, hmodules]
    split_ifs with hl
    · simp [and_comm]
    · simp only [Option.getD_none, List.not_mem_nil, and_true, false_iff]
      intro hm
      exact hl (hm.1 ▸ List.mem_map_of_mem hm.2)
  case distinct =>
    intro logtype ms hms
    rw [hchannels] at hms
    split_ifs at hms with hl
    cases hms
    obtain ⟨m, hm, hlogtype⟩ := List.mem_map.mp hl
    refine ⟨List.ne_nil_of_mem (List.mem_filter.mpr ⟨hm, by simpa using hlogtype⟩), ?_⟩
    exact hnodup.sublist (List.filter_sublist.map _)
  case complete =>
    exact fun hpanic path hpath => (load_or_refused hpanic h hpath).imp_left (hloaded path hpath)
  case signed => exact fun hpanic path hpath => load_not_refused hpanic h hpath

end registry
end loading

section sample

/-- The bytes are the imports, one for each byte. -/
def byteWasmer : Wasmer (List Import) where
  newModule _ _ bytes := .ok (bytes.map fun b => if b = 0 then ⟨"env", "storage_get"⟩ else ⟨"env", "abort"⟩)
  imports module := module

def smallLimit : LimitedAmount := ⟨10, ∅, ∅⟩

/-- Every failure panics. -/
def strictConfig : Configuration Char where
  moduleDir := "modules"
  logTypeOverrides := AList.singleton "extra.wasm" "okta"
  computationAmount := ⟨10, AList.singleton "okta" 20, AList.singleton "extra.wasm" 30⟩
  memoryPageCount := smallLimit
  storageSize := ⟨.unlimited, AList.singleton "okta" (.limited 100), ∅⟩
  secrets := AList.singleton "okta" (AList.singleton "token" "s3cret")
  universalAccessoryData := some (putAll ∅ [("region", "eu"), ("team", "core"), ("tier", "gold")])
  accessoryDataLogTypeOverrides :=
    AList.singleton "okta" (putAll ∅ [("region", "us"), ("team", "identity")])
  accessoryDataFileOverrides := AList.singleton "okta_rule.wasm" (AList.singleton "region" "apac")
  persistentResponseSize := AList.singleton "extra.wasm" 64
  testMode := true
  testModeExemptions := ["okta_rule.wasm"]
  moduleSigning := some ⟨twoOfThree, true⟩
  panicOnModuleLoadFailure := true

def ruleDirectory : List (Except String ModuleFile) :=
  [.ok ⟨"okta_rule.wasm", .ok [0, 0]⟩, .error "bad entry", .ok ⟨"extra.wasm", .ok [0, 0]⟩]

def loadedRule : PlaidModule (List Import) :=
  { configure strictConfig "okta_rule.wasm" [⟨"env", "storage_get"⟩, ⟨"env", "storage_get"⟩] with
    storageCurrent := 3 }

def loadedExtra : PlaidModule (List Import) :=
  { configure strictConfig "extra.wasm" [⟨"env", "storage_get"⟩, ⟨"env", "storage_get"⟩] with
    storageCurrent := 3 }

/-- Both are filed under the log type of the first. -/
def oktaRules : PlaidModules (List Import) := register (register ⟨∅, ∅⟩ loadedExtra) loadedRule

theorem loadFile_zeros {fileName : String} (hwasm : endsWith fileName ".wasm" = true)
    (hsigned : checkModuleSignatures letters twoOfThree (fun _ => .ok twoSigners) fileName [0, 0] =
      .ok ()) :
    loadFile ⟨true, true⟩ letters (fun _ => .ok twoSigners) byteWasmer strictConfig
      ⟨fileName, .ok [0, 0]⟩ = .ok (configure strictConfig fileName
        [⟨"env", "storage_get"⟩, ⟨"env", "storage_get"⟩]) := by
  refine loadFile_ok.mpr ⟨[0, 0], _, ⟨hwasm, rfl, fun signing hsigning => ?_, rfl, ?_⟩, rfl⟩
  · cases hsigning
    exact hsigned
  · decide +kernel

theorem load_ruleDirectory :
    load ⟨true, true⟩ letters (fun _ => .ok twoSigners) byteWasmer strictConfig List.reverse
      (some fun _ => .ok 3) ruleDirectory = .ok oktaRules := by
  have hrule := @loadFile_zeros "okta_rule.wasm" (by decide) (by decide +kernel)
  have hextra := @loadFile_zeros "extra.wasm" (by decide) (by decide +kernel)
  simp only [load, ruleDirectory, List.mapM_cons, List.mapM_nil, loadEntry, hrule, hextra]
  rfl

theorem load_registers_sample :
    Registry ⟨true, true⟩ letters (fun _ => .ok twoSigners) byteWasmer strictConfig
      (some fun _ => .ok 3) ruleDirectory oktaRules :=
  load_registers List.reverse_perm (by decide) load_ruleDirectory

end sample

end PlaidRuntime.Loader
