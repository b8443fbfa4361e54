import PlaidRuntime.ModuleLinking
import PlaidRuntime.StlStorage
import PlaidRuntime.WebhookHandlers

/-!
# What a rule reads about itself and its message

The getters of the standard library (`plaid-stl/src/plaid/mod.rs`) over the host functions behind
them (`functions/runtime_data.rs`, `functions/message.rs`, `functions/response.rs`).
-/
namespace PlaidRuntime.RuntimeData
open KeyedContent MachineWord GuestMemory StorageHost StlStorage
open Loader hiding PlaidModule

section host

/-- `generate_string_getter`, for the headers and the query parameters of the message. -/
def getField (field : Data) (memory : Option MemoryView)
    (nameBuf nameLen dataBuffer bufferSize : UInt32) : HostResult :=
  match memory with
  | none => fail .internalApiError none
  | some m =>
    match safelyGetString m nameBuf nameLen with
    | .error e => fail e (some m)
    | .ok name =>
      match field.lookup name with
      | some data => writeBack m data dataBuffer bufferSize
      | none => ⟨.ok 0, some m⟩

/-- `generate_runtime_string_getter`, for the secrets and the accessory data of the module. -/
def getRuntimeField (field : Option Data) (memory : Option MemoryView)
    (nameBuf nameLen dataBuffer bufferSize : UInt32) : HostResult :=
  match field with
  | none => ⟨.ok 0, memory⟩
  | some field => getField field memory nameBuf nameLen dataBuffer bufferSize

/-- The functions behind the getters that take a name. -/
abbrev NamedGetter := Option MemoryView → UInt32 → UInt32 → UInt32 → UInt32 → HostResult

def getSecrets {Compiled : Type} (module : Loader.PlaidModule Compiled) : NamedGetter :=
  getRuntimeField module.secrets

def getAccessoryData {Compiled : Type} (module : Loader.PlaidModule Compiled) : NamedGetter :=
  getRuntimeField module.accessoryData

def getHeaders (message : LogbackMessage.Message) : NamedGetter := getField message.headers

def getQueryParams (message : LogbackMessage.Message) : NamedGetter := getField message.queryParams

/-- `response` is the field of the environment of the execution. -/
def getResponse (response : Option String) (memory : Option MemoryView)
    (responseBuffer responseBufferSize : UInt32) : HostResult :=
  match memory with
  | none => fail .couldNotGetAdequateMemory none
  | some m =>
    match response with
    | some r => writeBack m (asBytes r) responseBuffer responseBufferSize
    | none => ⟨.ok 0, some m⟩

/-- The field of the environment after the call. -/
def setResponse (response : Option String) (memory : Option MemoryView)
    (responseBuffer responseBufferSize : UInt32) : Option String :=
  match memory with
  | none => response
  | some m =>
    match safelyGetString m responseBuffer responseBufferSize with
    | .ok message => some message
    | .error _ => response

end host

section library

/-- The body the getters share: a call for the size, a call for the data, and the data as text. -/
def readString (probe : HostResult) (copy : ℕ → HostResult) (dataPtr : ℕ → UInt32) :
    Except PlaidFunctionError String :=
  let bufferSize := probe.i32
  if bufferSize < 0 then .error (.ofCode bufferSize)
  else
    let copied := copy bufferSize.toNat
    if copied.i32 < 0 then .error (.ofCode copied.i32)
    else if copied.i32 ≠ bufferSize then .error .internalApiError
    else match fromUtf8 (bytesAt copied (dataPtr bufferSize.toNat) bufferSize.toNat) with
      | some s => .ok s
      | none => .error .parametersNotUtf8

/-- A getter of the library, over the host function of the same name. -/
def stlGet (host : NamedGetter) {name : String} (g : Guest "" name []) :
    Except PlaidFunctionError String :=
  readString (host (some g.probe.memory) g.probe.keyPtr (lenOf name) g.probe.dataPtr 0)
    (fun n => host (some (g.second n).memory) (g.second n).keyPtr (lenOf name) (g.second n).dataPtr
      (UInt32.ofNat n))
    fun n => (g.second n).dataPtr

def stlGetResponse (response : Option String) {name : String} (g : Guest "" name []) :
    Except PlaidFunctionError String :=
  readString (getResponse response (some g.probe.memory) g.probe.dataPtr 0)
    (fun n => getResponse response (some (g.second n).memory) (g.second n).dataPtr (UInt32.ofNat n))
    fun n => (g.second n).dataPtr

end library

/-- What a getter makes of the bytes there are: their text, and the empty text of no bytes. -/
def textOf (data : Option Bytes) : Except PlaidFunctionError String :=
  match fromUtf8 (data.getD []) with
  | some s => .ok s
  | none => .error .parametersNotUtf8

theorem fromUtf8_nil : fromUtf8 [] = some "" := fromUtf8_asBytes ""

@[simp]
theorem textOf_map_asBytes (text : Option String) : textOf (text.map asBytes) = .ok (text.getD "") := by
  cases text with
  | none => simp [textOf, fromUtf8_nil]
  | some s => simp [textOf, fromUtf8_asBytes]

/-- Where both calls answer from the same bytes, the rule gets them as text. -/
theorem readString_previousValue {m : MemoryView} {buffer : UInt32} {data : Option Bytes}
    {probe : HostResult} {copy : ℕ → HostResult} {dataPtr : ℕ → UInt32} {second : MemoryView}
    (hsize : heldLength data < 2 ^ 31) (hprobe : probe = previousValue m buffer 0 (.ok data))
    (hcopy : copy (heldLength data) = previousValue second (dataPtr (heldLength data))
      (UInt32.ofNat (heldLength data)) (.ok data))
    (hzero : second.read (dataPtr (heldLength data)).toNat (heldLength data) =
      some (List.replicate (heldLength data) 0)) :
    readString probe copy dataPtr = textOf data := by
  have hlen : probe.i32 = heldLength data := by
    rw [hprobe, previousValue_probe]
    exact asI32_of_lt hsize
  obtain ⟨hret, hbytes⟩ := previousValue_exact hsize hzero
  simp only [readString, hlen, Int.toNat_natCast, hcopy, hret, hbytes, ne_eq, not_true_eq_false,
    if_false]
  rw [if_neg (by omega), if_neg (by omega)]
  rfl

theorem getField_eq {field : Data} {m : MemoryView} {name : String}
    {nameBuf nameLen dataBuffer bufferSize : UInt32}
    (hname : safelyGetString m nameBuf nameLen = .ok name) :
    getField field (some m) nameBuf nameLen dataBuffer bufferSize =
      previousValue m dataBuffer bufferSize (.ok (field.lookup name)) := by
  simp only [getField, hname, previousValue]
  cases field.lookup name <;> rfl

theorem getRuntimeField_eq {field : Option Data} {m : MemoryView} {name : String}
    {nameBuf nameLen dataBuffer bufferSize : UInt32}
    (hname : safelyGetString m nameBuf nameLen = .ok name) :
    getRuntimeField field (some m) nameBuf nameLen dataBuffer bufferSize =
      previousValue m dataBuffer bufferSize (.ok (field.bind fun data => data.lookup name)) := by
  cases field with
  | none => rfl
  | some field => exact getField_eq hname

/-- A getter whose host function answers from the bytes under the name. -/
theorem stlGet_eq {host : NamedGetter} {name : String} {data : Option Bytes} (g : Guest "" name [])
    (hsize : heldLength data < 2 ^ 31)
    (hhost : ∀ m nameBuf nameLen dataBuffer bufferSize,
      safelyGetString m nameBuf nameLen = .ok name →
      host (some m) nameBuf nameLen dataBuffer bufferSize =
        previousValue m dataBuffer bufferSize (.ok data)) :
    stlGet host g = textOf data :=
  readString_previousValue hsize (hhost _ _ _ _ _ (g.probe.key_string g.key_fits))
    (hhost _ _ _ _ _ ((g.second _).key_string g.key_fits)) (g.second _).data_at

section response

theorem stlGetResponse_eq (response : Option String) {name : String} (g : Guest "" name [])
    (hsize : heldLength (response.map asBytes) < 2 ^ 31) :
    stlGetResponse response g = .ok (response.getD "") := by
  have hhost : ∀ m responseBuffer responseBufferSize,
      getResponse response (some m) responseBuffer responseBufferSize =
        previousValue m responseBuffer responseBufferSize (.ok (response.map asBytes)) := by
    intro m responseBuffer responseBufferSize
    cases response <;> rfl
  rw [← textOf_map_asBytes]
  exact readString_previousValue hsize (hhost _ _ _) (hhost _ _ _) (g.second _).data_at

/-- A response that has been set is the one the rule gets afterwards. -/
theorem stlGetResponse_setResponse (response : Option String) {message : String}
    (f : Frame (asBytes "") (asBytes message) [] 0) {name : String} (g : Guest "" name [])
    (hsize : message.utf8ByteSize < 2 ^ 31) :
    stlGetResponse (setResponse response (some f.memory) f.keyPtr (lenOf message)) g = .ok message := by
  have hset : setResponse response (some f.memory) f.keyPtr (lenOf message) = some message := by
    simp only [setResponse, f.key_string hsize]
  rw [hset]
  exact stlGetResponse_eq (some message) g hsize

end response

section module
variable {PublicKey SshSignature Fingerprint Compiled : Type} [DecidableEq Fingerprint]
  {feats : ApiFunctions.Features} {ssh : ModuleSigning.Sshcerts PublicKey SshSignature Fingerprint}
  {readDir : ModuleSigning.ReadDir} {wasmer : Wasmer Compiled} {config : Configuration PublicKey}
  {finish : List (Loader.PlaidModule Compiled) → List (Loader.PlaidModule Compiled)}
  {storage : Option (String → Except String ℕ)} {directory : List (Except String ModuleFile)}
  {modules : PlaidModules Compiled}

/-- A loaded rule reads what the configuration holds for it: its accessory data, those for its file
before those for its log type before the universal ones, and the secrets of its log type. -/
theorem loaded_rule_reads (hfinish : ∀ l, (finish l).Perm l)
    (h : load feats ssh readDir wasmer config finish storage directory = .ok modules)
    {m : Loader.PlaidModule Compiled} (filename logtype : String)
    (hm : modules.modules.lookup filename = some m ∨
      m ∈ (modules.channels.lookup logtype).getD [])
    {key : String} (g : Guest "" key []) :
    ((∀ text, accessoryValue config m.name m.logtype key = some text → text.utf8ByteSize < 2 ^ 31) →
      stlGet (getAccessoryData m) g = .ok ((accessoryValue config m.name m.logtype key).getD "")) ∧
    ((∀ text, secretValue config m.logtype key = some text → text.utf8ByteSize < 2 ^ 31) →
      stlGet (getSecrets m) g = .ok ((secretValue config m.logtype key).getD "")) := by
  obtain ⟨hconfigured, -⟩ := ModuleLinking.filed_checked hfinish h hm
  have hlength : ∀ value : Option String, (∀ text, value = some text → text.utf8ByteSize < 2 ^ 31) →
      heldLength (value.map asBytes) < 2 ^ 31 := by
    intro value hvalue
    cases value with
    | none => simp [heldLength]
    | some text => exact hvalue text rfl
  constructor
  · intro hsize
    rw [← textOf_map_asBytes, ← hconfigured.accessoryData key]
    exact stlGet_eq g (hconfigured.accessoryData key ▸ hlength _ hsize)
      fun _ _ _ _ _ hname => getRuntimeField_eq hname
  · intro hsize
    rw [← textOf_map_asBytes, ← hconfigured.secrets key]
    exact stlGet_eq g (hconfigured.secrets key ▸ hlength _ hsize)
      fun _ _ _ _ _ hname => getRuntimeField_eq hname

/-- The file has data for the region, the log type for the team, and all rules for the tier. -/
theorem loaded_rule_reads_sample :
    stlGet (getAccessoryData loadedRule) (.packed "" "region" [] (by decide)) = .ok "apac" ∧
      stlGet (getAccessoryData loadedRule) (.packed "" "team" [] (by decide)) = .ok "identity" ∧
      stlGet (getAccessoryData loadedRule) (.packed "" "tier" [] (by decide)) = .ok "gold" ∧
      stlGet (getSecrets loadedRule) (.packed "" "token" [] (by decide)) = .ok "s3cret" := by
  have hreads := fun (key : String) (g : Guest "" key []) =>
    loaded_rule_reads List.reverse_perm load_ruleDirectory "okta_rule.wasm" "okta" (.inl rfl) g
  refine ⟨(hreads "region" _).1 fun _ h => ?_, (hreads "team" _).1 fun _ h => ?_,
    (hreads "tier" _).1 fun _ h => ?_, (hreads "token" _).2 fun _ h => ?_⟩ <;>
  · cases h
    decide

end module

section message
open WebhookHandlers

/-- Header `name` of a message that came through a webhook: only those the webhook is configured to
pass on, whatever the case they were sent in. -/
def passedOn (conf : WebhookConfig) (headers : HeaderMap) (name : String) : Option Bytes :=
  if name ∈ conf.headers then headers.get name else none

theorem lookup_passedOn (conf : WebhookConfig) (headers : HeaderMap) {message : LogbackMessage.Message}
    (hnew : message.headers = ∅) (name : String) :
    (insertHeaders conf headers message).headers.lookup name = passedOn conf headers name := by
  rw [lookup_insertHeaders, hnew, passedOn]
  by_cases hmem : name ∈ conf.headers
  · cases hget : headers.get name <;> simp [hmem]
  · simp [hmem]

/-- The headers a rule reads are those of the request, for a message that came through a webhook, by
GET or by POST, and so are the parameters of a GET; a POST has none. -/
theorem webhook_rule_reads (webhook : String) (conf : WebhookConfig) (id : String) (body : Bytes)
    {name : String} (g : Guest "" name []) :
    (∀ headers, heldLength (passedOn conf headers name) < 2 ^ 31 →
      stlGet (getHeaders (postMessage webhook conf headers id body).createDuplicate) g =
        textOf (passedOn conf headers name)) ∧
    (∀ req rule ruleName, heldLength (passedOn conf req.headers name) < 2 ^ 31 →
      stlGet (getHeaders (getMessage webhook conf ruleName rule req id body).createDuplicate) g =
        textOf (passedOn conf req.headers name)) ∧
    (∀ req rule ruleName, heldLength ((req.query.lookup name).map asBytes) < 2 ^ 31 →
      stlGet (getQueryParams (getMessage webhook conf ruleName rule req id body).createDuplicate) g =
        .ok ((req.query.lookup name).getD "")) ∧
    (∀ headers, stlGet (getQueryParams (postMessage webhook conf headers id body).createDuplicate) g =
      .ok "") := by
  refine ⟨fun headers hsize => ?_, fun req rule ruleName hsize => ?_, fun req rule ruleName hsize => ?_,
    fun headers => ?_⟩
  · have hlookup : (postMessage webhook conf headers id body).headers.lookup name =
        passedOn conf headers name := lookup_passedOn conf headers rfl name
    rw [← hlookup] at hsize ⊢
    exact stlGet_eq g hsize fun _ _ _ _ _ hname => getField_eq hname
  · have hlookup : (getMessage webhook conf ruleName rule req id body).headers.lookup name =
        passedOn conf req.headers name := lookup_passedOn conf req.headers rfl name
    rw [← hlookup] at hsize ⊢
    exact stlGet_eq g hsize fun _ _ _ _ _ hname => getField_eq hname
  · have hparams : (getMessage webhook conf ruleName rule req id body).createDuplicate.queryParams =
        queryParams req.query := by
      unfold getMessage
      rw [insertHeaders_eq]
      rfl
    rw [← textOf_map_asBytes, ← lookup_queryParams] at *
    exact stlGet_eq g hsize fun _ _ _ _ _ hname => by
      rw [getQueryParams, hparams]
      exact getField_eq hname
  · have hnone : (postMessage webhook conf headers id body).createDuplicate.queryParams = ∅ := by
      unfold postMessage
      rw [insertHeaders_eq]
      rfl
    have htext := textOf_map_asBytes none
    rw [Option.map_none] at htext
    refine (stlGet_eq g (by decide) fun _ _ _ _ _ hname => ?_).trans htext
    rw [getQueryParams, hnone]
    exact getField_eq hname

def authHook : WebhookConfig where
  logType := "auth"
  headers := ["X-Token"]
  maxBodySize := 8
  getMode := none
  label := none
  logbacksAllowed := .limited 0

theorem webhook_rule_reads_sample :
    stlGet (getHeaders (postMessage "hook" authHook [("x-token", asBytes "k")] "id" []).createDuplicate)
      (.packed "" "X-Token" [] (by decide)) = .ok "k" :=
  ((webhook_rule_reads "hook" authHook "id" [] (.packed "" "X-Token" [] (by decide))).1
    [("x-token", asBytes "k")] (by decide)).trans (textOf_map_asBytes (some "k"))

end message
end PlaidRuntime.RuntimeData
