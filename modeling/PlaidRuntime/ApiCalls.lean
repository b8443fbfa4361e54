import PlaidRuntime.ApiFunctions
import PlaidRuntime.RelyGuarantee
import PlaidRuntime.StlStorage

/-!
# Calls of the APIs

The host functions behind which the APIs stand (`functions/api.rs`), which four macros generate, for
any number of rules that run at the same time; and the functions of the standard library that call
them (`plaid-stl`).
-/
namespace PlaidRuntime.ApiCalls
open EffectProgram LockMonitor RelyGuarantee MachineWord GuestMemory
open ApiFunctions (Features allWithEnv)
open StlStorage (PlaidFunctionError Frame lenOf bytesAt toNat_lenOf)

section table

/-- What one use of the macros generates. -/
structure ApiFunction where
  api : String
  subModule : Option String
  functionName : String
  errorBuffer : Bool
  allowInTestMode : Bool
  deriving DecidableEq, Repr

def allowInTestMode : Bool := true

def disallowInTestMode : Bool := false

def implNewFunction (api functionName : String) (allow : Bool) : ApiFunction :=
  ⟨api, none, functionName, false, allow⟩

def implNewFunctionWithErrorBuffer (api functionName : String) (allow : Bool) : ApiFunction :=
  ⟨api, none, functionName, true, allow⟩

def implNewSubModuleFunctionWithErrorBuffer (api subModule functionName : String) (allow : Bool) :
    ApiFunction :=
  ⟨api, some subModule, functionName, true, allow⟩

def implNewSubModuleFunction (api subModule functionName : String) (allow : Bool) : ApiFunction :=
  ⟨api, some subModule, functionName, false, allow⟩

def functions : List ApiFunction :=
  [implNewFunction "general" "simple_json_post_request" disallowInTestMode,
   implNewFunctionWithErrorBuffer "general" "make_named_request" allowInTestMode,
   implNewFunctionWithErrorBuffer "general" "retrieve_tls_certificate_with_sni" allowInTestMode,
   implNewFunction "github" "add_user_to_repo" disallowInTestMode,
   implNewFunction "github" "remove_user_from_repo" disallowInTestMode,
   implNewFunction "github" "add_user_to_team" disallowInTestMode,
   implNewFunction "github" "remove_user_from_team" disallowInTestMode,
   implNewFunction "github" "update_branch_protection_rule" disallowInTestMode,
   implNewFunction "github" "create_environment_for_repo" disallowInTestMode,
   implNewFunction "github" "configure_secret" disallowInTestMode,
   implNewFunction "github" "create_deployment_branch_protection_rule" disallowInTestMode,
   implNewFunction "github" "trigger_repo_dispatch" disallowInTestMode,
   implNewFunction "github" "check_org_membership_of_user" allowInTestMode,
   implNewFunction "github" "remove_outside_collaborator_from_org" disallowInTestMode,
   implNewFunction "github" "delete_deploy_key" disallowInTestMode,
   implNewFunctionWithErrorBuffer "github" "create_deploy_key" disallowInTestMode,
   implNewFunction "github" "require_signed_commits" disallowInTestMode,
   implNewFunction "github" "add_repo_to_team" disallowInTestMode,
   implNewFunction "github" "remove_repo_from_team" disallowInTestMode,
   implNewFunctionWithErrorBuffer "github" "get_repo_teams" allowInTestMode,
   implNewFunctionWithErrorBuffer "github" "make_graphql_query" allowInTestMode,
   implNewFunctionWithErrorBuffer "github" "make_advanced_graphql_query" allowInTestMode,
   implNewFunctionWithErrorBuffer "github" "fetch_commit" allowInTestMode,
   implNewFunctionWithErrorBuffer "github" "list_files" allowInTestMode,
   implNewFunctionWithErrorBuffer "github" "fetch_file_with_custom_media_type" allowInTestMode,
   implNewFunctionWithErrorBuffer "github" "get_branch_protection_rules" allowInTestMode,
   implNewFunctionWithErrorBuffer "github" "get_branch_protection_ruleset" allowInTestMode,
   implNewFunctionWithErrorBuffer "github" "get_repository_collaborators" allowInTestMode,
   implNewFunctionWithErrorBuffer "github" "search_code" allowInTestMode,
   implNewFunctionWithErrorBuffer "github" "list_seats_in_org_copilot" allowInTestMode,
   implNewFunctionWithErrorBuffer "github" "add_users_to_org_copilot" disallowInTestMode,
   implNewFunctionWithErrorBuffer "github" "remove_users_from_org_copilot" disallowInTestMode,
   implNewFunctionWithErrorBuffer "github" "get_custom_properties_values" allowInTestMode,
   implNewFunctionWithErrorBuffer "github" "check_codeowners_file" allowInTestMode,
   implNewFunctionWithErrorBuffer "github" "get_repo_sbom" allowInTestMode,
   implNewFunction "github" "comment_on_pull_request" disallowInTestMode,
   implNewFunction "github" "pull_request_request_reviewers" disallowInTestMode,
   implNewFunction "github" "submit_pull_request_review" disallowInTestMode,
   implNewFunctionWithErrorBuffer "github" "get_weekly_commit_count" allowInTestMode,
   implNewFunctionWithErrorBuffer "github" "get_reference" allowInTestMode,
   implNewFunction "github" "create_reference" disallowInTestMode,
   implNewFunctionWithErrorBuffer "github" "get_pull_requests" allowInTestMode,
   implNewFunctionWithErrorBuffer "github" "create_pull_request" disallowInTestMode,
   implNewFunctionWithErrorBuffer "github" "create_file" disallowInTestMode,
   implNewFunction "github" "add_labels" disallowInTestMode,
   implNewFunctionWithErrorBuffer "github" "get_user_id_from_username" allowInTestMode,
   implNewFunctionWithErrorBuffer "github" "get_username_from_user_id" allowInTestMode,
   implNewFunctionWithErrorBuffer "github" "get_repo_id_from_repo_name" allowInTestMode,
   implNewFunctionWithErrorBuffer "github" "get_repo_name_from_repo_id" allowInTestMode,
   implNewFunction "github" "add_repo_to_org_secret" disallowInTestMode,
   implNewFunction "github" "remove_repo_from_org_secret" disallowInTestMode,
   implNewFunctionWithErrorBuffer "github" "list_org_secrets_for_repo" allowInTestMode,
   implNewFunction "github" "grant_repo_access_to_org_installation" disallowInTestMode,
   implNewFunction "github" "remove_repo_access_from_org_installation" disallowInTestMode,
   implNewFunctionWithErrorBuffer "github" "get_enterprise_license_status" allowInTestMode,
   implNewFunction "github" "review_fpat_requests_for_org" disallowInTestMode,
   implNewFunctionWithErrorBuffer "github" "list_fpat_requests_for_org" allowInTestMode,
   implNewFunctionWithErrorBuffer "github" "get_repos_for_fpat" allowInTestMode,
   implNewFunctionWithErrorBuffer "cryptography" "aes_128_cbc_encrypt" allowInTestMode,
   implNewFunctionWithErrorBuffer "cryptography" "aes_128_cbc_decrypt" allowInTestMode,
   implNewFunctionWithErrorBuffer "jira" "create_issue" disallowInTestMode,
   implNewFunctionWithErrorBuffer "jira" "get_issue" allowInTestMode,
   implNewFunction "jira" "update_issue" disallowInTestMode,
   implNewFunctionWithErrorBuffer "jira" "get_user" allowInTestMode,
   implNewFunction "jira" "post_comment" disallowInTestMode,
   implNewFunctionWithErrorBuffer "jira" "search_issues" allowInTestMode,
   implNewFunctionWithErrorBuffer "npm" "publish_empty_stub" disallowInTestMode,
   implNewFunctionWithErrorBuffer "npm" "set_team_permission_on_package" disallowInTestMode,
   implNewFunctionWithErrorBuffer "npm" "create_granular_token_for_packages" disallowInTestMode,
   implNewFunctionWithErrorBuffer "npm" "delete_granular_token" disallowInTestMode,
   implNewFunctionWithErrorBuffer "npm" "list_granular_tokens" allowInTestMode,
   implNewFunctionWithErrorBuffer "npm" "delete_package" disallowInTestMode,
   implNewFunctionWithErrorBuffer "npm" "add_user_to_team" disallowInTestMode,
   implNewFunctionWithErrorBuffer "npm" "remove_user_from_team" disallowInTestMode,
   implNewFunctionWithErrorBuffer "npm" "remove_user_from_organization" disallowInTestMode,
   implNewFunctionWithErrorBuffer "npm" "invite_user_to_organization" disallowInTestMode,
   implNewFunctionWithErrorBuffer "npm" "get_org_user_list" allowInTestMode,
   implNewFunctionWithErrorBuffer "npm" "get_org_users_without_2fa" allowInTestMode,
   implNewFunctionWithErrorBuffer "npm" "list_packages_with_team_permission" allowInTestMode,
   implNewFunctionWithErrorBuffer "npm" "get_token_details" allowInTestMode,
   implNewFunction "okta" "remove_user_from_group" disallowInTestMode,
   implNewFunctionWithErrorBuffer "okta" "get_user_data" allowInTestMode,
   implNewFunction "pagerduty" "trigger_incident" disallowInTestMode,
   implNewFunctionWithErrorBuffer "pagerduty" "get_incident_alerts" allowInTestMode,
   implNewFunctionWithErrorBuffer "rustica" "new_mtls_cert" disallowInTestMode,
   implNewFunction "slack" "views_open" allowInTestMode,
   implNewFunctionWithErrorBuffer "slack" "post_message" allowInTestMode,
   implNewFunctionWithErrorBuffer "slack" "update_message" allowInTestMode,
   implNewFunctionWithErrorBuffer "slack" "schedule_message" allowInTestMode,
   implNewFunctionWithErrorBuffer "slack" "delete_scheduled_message" allowInTestMode,
   implNewFunctionWithErrorBuffer "slack" "conversations_history" allowInTestMode,
   implNewFunctionWithErrorBuffer "slack" "get_id_from_email" allowInTestMode,
   implNewFunction "slack" "post_to_arbitrary_webhook" allowInTestMode,
   implNewFunction "slack" "post_to_named_webhook" allowInTestMode,
   implNewFunctionWithErrorBuffer "slack" "get_presence" allowInTestMode,
   implNewFunctionWithErrorBuffer "slack" "get_dnd" allowInTestMode,
   implNewFunctionWithErrorBuffer "slack" "user_info" allowInTestMode,
   implNewFunctionWithErrorBuffer "slack" "create_channel" disallowInTestMode,
   implNewFunction "slack" "invite_to_channel" disallowInTestMode,
   implNewFunction "slack" "remove_from_channel" disallowInTestMode,
   implNewFunction "splunk" "post_hec" allowInTestMode,
   implNewFunctionWithErrorBuffer "yubikey" "verify_otp" allowInTestMode,
   implNewFunctionWithErrorBuffer "web" "issue_jwt" disallowInTestMode,
   implNewSubModuleFunctionWithErrorBuffer "blockchain" "evm" "get_transaction_by_hash"
     allowInTestMode,
   implNewSubModuleFunctionWithErrorBuffer "blockchain" "evm" "get_transaction_receipt"
     allowInTestMode,
   implNewSubModuleFunctionWithErrorBuffer "blockchain" "evm" "send_raw_transaction"
     disallowInTestMode,
   implNewSubModuleFunctionWithErrorBuffer "blockchain" "evm" "get_transaction_count"
     allowInTestMode,
   implNewSubModuleFunctionWithErrorBuffer "blockchain" "evm" "get_balance" allowInTestMode,
   implNewSubModuleFunctionWithErrorBuffer "blockchain" "evm" "estimate_gas" allowInTestMode,
   implNewSubModuleFunctionWithErrorBuffer "blockchain" "evm" "eth_call" allowInTestMode,
   implNewSubModuleFunctionWithErrorBuffer "blockchain" "evm" "gas_price" allowInTestMode,
   implNewSubModuleFunctionWithErrorBuffer "blockchain" "evm" "get_logs" allowInTestMode,
   implNewSubModuleFunctionWithErrorBuffer "blockchain" "evm" "get_block" allowInTestMode,
   implNewSubModuleFunctionWithErrorBuffer "blockchain" "evm" "get_fee_history" allowInTestMode,
   implNewSubModuleFunctionWithErrorBuffer "blockchain" "solana" "send_signed_transaction"
     disallowInTestMode,
   implNewSubModuleFunctionWithErrorBuffer "blockchain" "solana" "get_balance" allowInTestMode,
   implNewSubModuleFunctionWithErrorBuffer "blockchain" "solana" "get_account_info" allowInTestMode,
   implNewSubModuleFunctionWithErrorBuffer "blockchain" "solana" "get_slot" allowInTestMode,
   implNewSubModuleFunctionWithErrorBuffer "blockchain" "solana" "get_latest_blockhash"
     allowInTestMode,
   implNewSubModuleFunctionWithErrorBuffer "blockchain" "solana" "get_transaction_count"
     allowInTestMode,
   implNewSubModuleFunctionWithErrorBuffer "blockchain" "solana" "get_transaction" allowInTestMode,
   implNewSubModuleFunctionWithErrorBuffer "blockchain" "solana" "get_signature_statuses"
     allowInTestMode,
   implNewSubModuleFunctionWithErrorBuffer "blockchain" "solana" "get_block" allowInTestMode,
   implNewSubModuleFunctionWithErrorBuffer "blockchain" "solana" "get_multiple_accounts"
     allowInTestMode,
   implNewSubModuleFunctionWithErrorBuffer "blockchain" "solana" "get_program_accounts"
     allowInTestMode,
   implNewSubModuleFunctionWithErrorBuffer "blockchain" "solana" "get_token_accounts_by_owner"
     allowInTestMode,
   implNewSubModuleFunctionWithErrorBuffer "blockchain" "solana" "get_token_account_balance"
     allowInTestMode,
   implNewSubModuleFunctionWithErrorBuffer "blockchain" "solana" "get_token_supply" allowInTestMode,
   implNewSubModuleFunctionWithErrorBuffer "blockchain" "solana" "get_minimum_balance_for_rent_exemption"
     allowInTestMode,
   implNewSubModuleFunctionWithErrorBuffer "blockchain" "solana" "get_fee_for_message"
     allowInTestMode,
   implNewSubModuleFunctionWithErrorBuffer "blockchain" "solana" "get_recent_prioritization_fees"
     allowInTestMode,
   implNewSubModuleFunctionWithErrorBuffer "blockchain" "solana" "simulate_transaction"
     allowInTestMode,
   implNewSubModuleFunctionWithErrorBuffer "blockchain" "solana" "get_signatures_for_address"
     allowInTestMode,
   implNewFunctionWithErrorBuffer "bloom_filter" "build_with_items" allowInTestMode]

def awsFunctions : List ApiFunction :=
  [implNewSubModuleFunctionWithErrorBuffer "aws" "kms" "generate_mac" disallowInTestMode,
   implNewSubModuleFunction "aws" "kms" "verify_mac" disallowInTestMode,
   implNewSubModuleFunctionWithErrorBuffer "aws" "kms" "sign_arbitrary_message" disallowInTestMode,
   implNewSubModuleFunctionWithErrorBuffer "aws" "kms" "get_public_key" allowInTestMode,
   implNewSubModuleFunctionWithErrorBuffer "aws" "dynamodb" "put_item" disallowInTestMode,
   implNewSubModuleFunctionWithErrorBuffer "aws" "dynamodb" "delete_item" disallowInTestMode,
   implNewSubModuleFunctionWithErrorBuffer "aws" "dynamodb" "query" allowInTestMode,
   implNewSubModuleFunction "aws" "s3" "delete_object" disallowInTestMode,
   implNewSubModuleFunctionWithErrorBuffer "aws" "s3" "get_object_attributes" allowInTestMode,
   implNewSubModuleFunctionWithErrorBuffer "aws" "s3" "get_object" allowInTestMode,
   implNewSubModuleFunctionWithErrorBuffer "aws" "s3" "list_objects" allowInTestMode,
   implNewSubModuleFunctionWithErrorBuffer "aws" "s3" "list_object_versions" allowInTestMode,
   implNewSubModuleFunction "aws" "s3" "put_object" disallowInTestMode,
   implNewSubModuleFunctionWithErrorBuffer "aws" "s3" "put_object_tags" disallowInTestMode]

def gcpFunctions : List ApiFunction :=
  [implNewSubModuleFunctionWithErrorBuffer "gcp" "google_docs" "upload_file" disallowInTestMode,
   implNewSubModuleFunctionWithErrorBuffer "gcp" "google_docs" "copy_file" disallowInTestMode,
   implNewSubModuleFunctionWithErrorBuffer "gcp" "google_docs" "create_folder" disallowInTestMode,
   implNewSubModuleFunctionWithErrorBuffer "gcp" "google_docs" "create_doc_from_markdown"
     disallowInTestMode,
   implNewSubModuleFunctionWithErrorBuffer "gcp" "google_docs" "create_sheet_from_csv"
     disallowInTestMode,
   implNewSubModuleFunctionWithErrorBuffer "gcp" "bigquery" "query_table" allowInTestMode]

def apiFunctions (feats : Features) : List ApiFunction :=
  functions ++ (if feats.aws then awsFunctions else []) ++ (if feats.gcp then gcpFunctions else [])

/-- The name of the function, which is also the one modules import it by. -/
def ApiFunction.name (f : ApiFunction) : String :=
  match f.subModule with
  | none => f.api ++ "_" ++ f.functionName
  | some subModule => f.api ++ "_" ++ subModule ++ "_" ++ f.functionName

/-- The name in the log. The macro for the functions of a submodule that have no buffer leaves the
submodule out. -/
def ApiFunction.logName (f : ApiFunction) : String :=
  if f.errorBuffer then f.name else f.api ++ "_" ++ f.functionName

end table

section host

structure PlaidModule where
  name : String
  testMode : Bool
  deriving DecidableEq, Repr

/-- `Log::HostFunctionCall`. -/
structure FunctionCall where
  module : String
  function : String
  testMode : Bool
  deriving DecidableEq, Repr

inductive ApiError
  | testMode
  | other (text : String)
  deriving DecidableEq, Repr

inductive LoggingError
  | loggingSystemDead
  deriving DecidableEq, Repr

/-- What an API returns: text where there is a buffer for it, otherwise a number of 32 bits. -/
def Data (errorBuffer : Bool) : Type := if errorBuffer then String else UInt32

inductive Request
  | log (entry : FunctionCall)
  | call (module : PlaidModule) (function : ApiFunction) (params : String)

abbrev Reply : Request → Type
  | .log _ => Except LoggingError Unit
  | .call _ f _ => Except ApiError (Data f.errorBuffer)

abbrev Program := Prog Request Reply

/-- A call of a host function by a rule, with the memory of the instance at that moment. -/
structure HostCall (feats : Features) where
  function : ApiFunction
  known : function ∈ apiFunctions feats
  memory : Option MemoryView
  paramsBuffer : UInt32
  paramsBufferLen : UInt32
  retBuffer : UInt32
  retBufferLen : UInt32

variable {feats : Features}

/-- The last part of the generated functions. -/
def giveBack (c : HostCall feats) (memoryView : MemoryView) :
    (errorBuffer : Bool) → Data errorBuffer → HostResult
  | true, (returnData : String) =>
    if c.retBufferLen.toNat < (asBytes returnData).length then
      fail .returnBufferTooSmall (some memoryView)
    else writeBack memoryView (asBytes returnData) c.retBuffer c.retBufferLen
  | false, (returnData : UInt32) => ⟨.ok (asI32 returnData.toNat), some memoryView⟩

def conclude (c : HostCall feats) (memoryView : MemoryView) :
    Except ApiError (Data c.function.errorBuffer) → HostResult
  | .ok returnData => giveBack c memoryView c.function.errorBuffer returnData
  | .error .testMode => fail .testMode (some memoryView)
  | .error (.other _) => fail .internalApiError (some memoryView)

variable (configured : ApiFunction → Bool) (module : PlaidModule) (c : HostCall feats)

/-- What a generated function does once the call is logged; `configured` says which APIs and
submodules there are. -/
def afterLogging : Program HostResult :=
  if c.function.allowInTestMode = false ∧ module.testMode = true then
    .done (fail .testMode c.memory)
  else match c.memory with
    | none => .done (fail .internalApiError none)
    | some memoryView =>
      match safelyGetString memoryView c.paramsBuffer c.paramsBufferLen with
      | .error e => .done (fail e (some memoryView))
      | .ok params =>
        if configured c.function then do
          let result ← Prog.perform (.call module c.function params)
          return conclude c memoryView result
        else .done (fail .apiNotConfigured (some memoryView))

def hostFunction : Program HostResult := do
  let logged ← Prog.perform (.log ⟨module.name, c.function.logName, module.testMode⟩)
  match (logged : Except LoggingError Unit) with
  | .error _ => return fail .internalApiError c.memory
  | .ok _ => afterLogging configured module c

end host

section guest
variable (feats : Features)

/-- A rule decides from what it has got which host function it calls next. -/
abbrev Guest := Prog (HostCall feats) fun _ => HostResult

variable {feats}

/-- How a function of the library reads the number it gets; a negative one is usually an error. -/
inductive NumberShape
  | usual
  /-- `match res { 0 => Ok(()), x => Err(x.into()) }` -/
  | zeroOnly
  /-- `Ok(res != 0)` -/
  | truth
  deriving DecidableEq, Repr

/-- How a function of the library reads the length it gets, with the text in the buffer. -/
inductive TextShape
  | usual
  /-- The number is not looked at. -/
  | unchecked
  /-- Every error is the same one. -/
  | npm
  /-- Every error is `false`. -/
  | verdict
  deriving DecidableEq, Repr

def Shape (errorBuffer : Bool) : Type := if errorBuffer then TextShape else NumberShape

def zeroOnlyFunctions : List String :=
  ["jira_update_issue", "jira_post_comment", "github_create_environment_for_repo",
    "github_create_deployment_branch_protection_rule", "github_configure_secret",
    "github_review_fpat_requests_for_org"]

/-- The shapes of the functions of the library that call this host function; `verify_otp` has a
second one, `verify_otp_detailed`. -/
def ApiFunction.shapes (f : ApiFunction) : (errorBuffer : Bool) → List (Shape errorBuffer)
  | true =>
    if f.api = "npm" then [TextShape.npm]
    else if f.name = "aws_kms_get_public_key" then [TextShape.unchecked]
    else if f.name = "yubikey_verify_otp" then [TextShape.verdict, TextShape.usual]
    else [TextShape.usual]
  | false =>
    if f.name ∈ zeroOnlyFunctions then [NumberShape.zeroOnly]
    else if f.name = "github_check_org_membership_of_user" then [NumberShape.truth]
    else [NumberShape.usual]

/-- A call through the standard library, which passes the parameters as text and, where the host
function returns text, a buffer of zeros. -/
structure StlCall (feats : Features) where
  function : ApiFunction
  known : function ∈ apiFunctions feats
  shape : Shape function.errorBuffer
  shaped : shape ∈ function.shapes function.errorBuffer
  params : String
  returnBufferSize : ℕ
  params_fits : params.utf8ByteSize < 2 ^ 31
  size_fits : returnBufferSize < 2 ^ 31
  frame : Frame (asBytes "") (asBytes params) [] returnBufferSize

def StlCall.hostCall (c : StlCall feats) : HostCall feats :=
  ⟨c.function, c.known, some c.frame.memory, c.frame.keyPtr, lenOf c.params, c.frame.dataPtr,
    UInt32.ofNat c.returnBufferSize⟩

/-- What a function of the library goes on with. What it makes of the number or the text is its
own. -/
inductive Returned
  | code (res : ℤ)
  | bytes (returnBuffer : Bytes)
  | truth (b : Bool)
  deriving DecidableEq

inductive StlError
  | plaid (e : PlaidFunctionError)
  | npmUnknownError
  deriving DecidableEq

def readNumber : NumberShape → ℤ → Except StlError Returned
  | .usual, res => if res < 0 then .error (.plaid (.ofCode res)) else .ok (.code res)
  | .zeroOnly, res => if res = 0 then .ok (.code 0) else .error (.plaid (.ofCode res))
  | .truth, res => .ok (.truth (res ≠ 0))

/-- `returnBuffer n` are the first `n` bytes of the buffer. A word of the guest has 32 bits, so
`res as usize` of a negative number is longer than any buffer. -/
def readText (returnBuffer : ℕ → Bytes) (size : ℕ) : TextShape → ℤ → Except StlError Returned
  | .usual, res =>
    if res < 0 then .error (.plaid (.ofCode res)) else .ok (.bytes (returnBuffer res.toNat))
  | .unchecked, res => .ok (.bytes (returnBuffer (min (res % 2 ^ 32).toNat size)))
  | .npm, res => if res < 0 then .error .npmUnknownError else .ok (.bytes (returnBuffer res.toNat))
  | .verdict, res =>
    if res < 0 then .ok (.truth false)
    else .ok (.truth (fromUtf8 (returnBuffer res.toNat) = some "OK"))

def readBack (returnBuffer : ℕ → Bytes) (size : ℕ) :
    (errorBuffer : Bool) → Shape errorBuffer → ℤ → Except StlError Returned
  | true, (shape : TextShape), res => readText returnBuffer size shape res
  | false, (shape : NumberShape), res => readNumber shape res

def StlCall.finish (c : StlCall feats) (r : HostResult) : Except StlError Returned :=
  readBack (bytesAt r c.frame.dataPtr) c.returnBufferSize c.function.errorBuffer c.shape r.i32

def StlCall.run (c : StlCall feats) : Guest feats (Except StlError Returned) := do
  let r ← Prog.perform c.hostCall
  return c.finish r

/-- The error of the library that has the name of the one of the host. -/
def errorOf : FunctionErrors → PlaidFunctionError
  | .apiNotConfigured => .apiNotConfigured
  | .returnBufferTooSmall => .returnBufferTooSmall
  | .errorCouldNotSerialize => .errorCouldNotSerialize
  | .internalApiError => .internalApiError
  | .parametersNotUtf8 => .parametersNotUtf8
  | .invalidPointer => .invalidPointer
  | .cacheDisabled => .cacheDisabled
  | .couldNotGetAdequateMemory => .couldNotGetAdequateMemory
  | .failedToWriteGuestMemory => .failedToWriteGuestMemory
  | .storageLimitReached => .storageLimitReached
  | .testMode => .testMode
  | .operationNotAllowed => .operationNotAllowed
  | .sharedDbError => .sharedDbError
  | .timeoutElapsed => .timeoutElapsed
  | .failedToLogBack => .failedToLogBack
  | .logbackBudgetExhausted => .logbackBudgetExhausted

/-- What the API has answered, or the error that says why there is no answer to give back. -/
def answerFor (returnBufferSize : ℕ) : (errorBuffer : Bool) →
    Except ApiError (Data errorBuffer) → Except FunctionErrors (Data errorBuffer)
  | true, .ok (text : String) =>
    if returnBufferSize < (asBytes text).length then .error .returnBufferTooSmall else .ok text
  | false, .ok number => .ok number
  | _, .error .testMode => .error .testMode
  | _, .error (.other _) => .error .internalApiError

/-- The number itself, where the function does not take it for an error. -/
def receivedNumber : NumberShape → Except FunctionErrors UInt32 → Except StlError Returned
  | .usual, .error e => .error (.plaid (errorOf e))
  | .usual, .ok number =>
    if asI32 number.toNat < 0 then .error (.plaid (.ofCode (asI32 number.toNat)))
    else .ok (.code (asI32 number.toNat))
  | .zeroOnly, .error e => .error (.plaid (errorOf e))
  | .zeroOnly, .ok number =>
    if asI32 number.toNat = 0 then .ok (.code 0)
    else .error (.plaid (.ofCode (asI32 number.toNat)))
  | .truth, .error _ => .ok (.truth true)
  | .truth, .ok number => .ok (.truth (asI32 number.toNat ≠ 0))

/-- The whole text; where nothing looks at the number, an error reads as a buffer of zeros. -/
def receivedText (returnBufferSize : ℕ) :
    TextShape → Except FunctionErrors String → Except StlError Returned
  | .usual, .error e => .error (.plaid (errorOf e))
  | .usual, .ok text => .ok (.bytes (asBytes text))
  | .unchecked, .error _ => .ok (.bytes (List.replicate returnBufferSize 0))
  | .unchecked, .ok text => .ok (.bytes (asBytes text))
  | .npm, .error _ => .error .npmUnknownError
  | .npm, .ok text => .ok (.bytes (asBytes text))
  | .verdict, .error _ => .ok (.truth false)
  | .verdict, .ok text => .ok (.truth (text = "OK"))

def received (returnBufferSize : ℕ) : (errorBuffer : Bool) → Shape errorBuffer →
    Except FunctionErrors (Data errorBuffer) → Except StlError Returned
  | true, (shape : TextShape), (answer : Except FunctionErrors String) =>
    receivedText returnBufferSize shape answer
  | false, (shape : NumberShape), (answer : Except FunctionErrors UInt32) =>
    receivedNumber shape answer

/-- What the rule gets of an answer. -/
def StlCall.receives (c : StlCall feats)
    (answer : Except FunctionErrors (Data c.function.errorBuffer)) : Except StlError Returned :=
  received c.returnBufferSize c.function.errorBuffer c.shape answer

end guest

section runtime
variable {feats : Features} {T : Type}

inductive Event
  | logged (entry : FunctionCall)
  | called (module : PlaidModule) (function : ApiFunction) (params : String)
      (result : Except ApiError (Data function.errorBuffer))

/-- What an answered request has brought about. -/
def happened : (e : Request) → Reply e → Option Event
  | .log entry, .ok _ => some (.logged entry)
  | .log _, .error _ => none
  | .call m f params, result => some (.called m f params result)

/-- What all rules have brought about, and whether the logging thread is there. -/
structure Runtime (T : Type) where
  logging : Bool
  trace : List (T × Event)

def Runtime.record (s : Runtime T) (t : T) (event : Option Event) : Runtime T :=
  { s with trace := s.trace ++ (event.map fun x => (t, x)).toList }

/-- An API answers in the form the function asks for. -/
inductive Label
  | sent
  | receiverGone
  | answered (result : (errorBuffer : Bool) → Except ApiError (Data errorBuffer))

def reply (t : T) (s : Runtime T) : (e : Request) → Label → Option (Reply e × Runtime T)
  | .log entry, .sent =>
    if s.logging then some (.ok (), s.record t (happened (.log entry) (.ok ()))) else none
  | .log _, .receiverGone => some (.error .loggingSystemDead, { s with logging := false })
  | .call m f params, .answered result =>
    some (result f.errorBuffer, s.record t (happened (.call m f params) (result f.errorBuffer)))
  | _, _ => none

/-- An execution of a rule, or one call through the library. -/
inductive Call (feats : Features)
  | rule (module : PlaidModule) (guest : Guest feats Unit)
  | stl (module : PlaidModule) (c : StlCall feats)

def Call.code (configured : ApiFunction → Bool) :
    Call feats → Program (Option (Except StlError Returned))
  | .rule m guest => do
    guest.interpret (hostFunction configured m)
    return none
  | .stl m c => do
    let r ← c.run.interpret (hostFunction configured m)
    return some r

/-- Executions on any threads, with what each has brought about so far. -/
def system (feats : Features) (configured : ApiFunction → Bool) (T : Type) :
    System Request Reply (Runtime T) Label (Call feats)
      (Option (Except StlError Returned)) (List Event) T where
  code := Call.code configured
  reply := reply
  fresh := []
  note g _ e r _ := g ++ (happened e r).toList

end runtime

section audit
variable {feats : Features} {configured : ApiFunction → Bool} {T : Type}

def entryOf (m : PlaidModule) (f : ApiFunction) : FunctionCall := ⟨m.name, f.logName, m.testMode⟩

/-- What has to hold before a module reaches an API. -/
structure Permitted (feats : Features) (configured : ApiFunction → Bool) (m : PlaidModule)
    (f : ApiFunction) : Prop where
  known : f ∈ apiFunctions feats
  configured : configured f = true
  allowed : m.testMode = true → f.allowInTestMode = true

/-- The call of an API comes directly after its entry in the log. -/
def Justified (feats : Features) (configured : ApiFunction → Bool) (previous : Option Event) :
    Event → Prop
  | .logged _ => True
  | .called m f _ _ => previous = some (.logged (entryOf m f)) ∧ Permitted feats configured m f

def Audited (feats : Features) (configured : ApiFunction → Bool) (events : List Event) : Prop :=
  ∀ before e after, events = before ++ e :: after → Justified feats configured before.getLast? e

theorem Audited.append {events : List Event} {e : Event} (h : Audited feats configured events)
    (he : Justified feats configured events.getLast? e) : Audited feats configured (events ++ [e]) := by
  intro before e' after heq
  obtain rfl | ⟨after, last, rfl⟩ := after.eq_nil_or_concat
  · obtain ⟨rfl, hlast⟩ := List.append_inj' heq rfl
    cases hlast
    exact he
  · have hsplit : events ++ [e] = (before ++ e' :: after) ++ [last] := by simpa using heq
    exact h before e' after (List.append_inj' hsplit rfl).1

variable [DecidableEq T]

/-- What one thread has brought about. -/
def own (t : T) (s : Runtime T) : List Event := (s.trace.filter fun x => x.1 = t).map Prod.snd

theorem own_record_self (t : T) (s : Runtime T) (event : Option Event) :
    own t (s.record t event) = own t s ++ event.toList := by
  cases event <;> simp [own, Runtime.record]

theorem own_record_other {t u : T} (h : u ≠ t) (s : Runtime T) (event : Option Event) :
    own u (s.record t event) = own u s := by
  cases event <;> simp [own, Runtime.record, h.symm]

omit [DecidableEq T] in
theorem reply_trace {t : T} {s s' : Runtime T} {e : Request} {l : Label} {r : Reply e}
    (h : reply t s e l = some (r, s')) : s'.trace = (s.record t (happened e r)).trace := by
  cases e with
  | log entry =>
    cases l with
    | sent =>
      simp only [reply] at h
      split_ifs at h
      cases h
      rfl
    | receiverGone =>
      cases h
      simp [happened, Runtime.record]
    | answered result => cases h
  | call m f params =>
    cases l with
    | sent => cases h
    | receiverGone => cases h
    | answered result =>
      cases h
      rfl

theorem own_of_trace {s s' : Runtime T} (h : s.trace = s'.trace) (t : T) : own t s = own t s' := by
  rw [own, h, own]

def Stands (feats : Features) (configured : ApiFunction → Bool) (t : T) (e : Request)
    (s : Runtime T) : Prop :=
  ∀ (r : Reply e) event, happened e r = some event →
    Justified feats configured (own t s).getLast? event

theorem stands_log (t : T) (entry : FunctionCall) (s : Runtime T) :
    Stands feats configured t (.log entry) s := by
  intro r event h
  cases r with
  | ok u =>
    cases h
    trivial
  | error e => cases h

theorem stands_call {t : T} {s : Runtime T} {m : PlaidModule} {f : ApiFunction} {params : String}
    (hlogged : (own t s).getLast? = some (.logged (entryOf m f)))
    (hm : Permitted feats configured m f) : Stands feats configured t (.call m f params) s := by
  intro r event h
  cases h
  exact ⟨hlogged, hm⟩

/-- What a rule gets of a call through the library, by what the call has brought about. -/
inductive Got (configured : ApiFunction → Bool) (m : PlaidModule) (c : StlCall feats) :
    List Event → Except StlError Returned → Prop
  | unlogged : Got configured m c [] (c.receives (.error .internalApiError))
  | disallowed (hf : c.function.allowInTestMode = false) (hm : m.testMode = true) :
      Got configured m c [.logged (entryOf m c.function)] (c.receives (.error .testMode))
  | notConfigured (hc : configured c.function = false) :
      Got configured m c [.logged (entryOf m c.function)] (c.receives (.error .apiNotConfigured))
  | answered (hm : Permitted feats configured m c.function)
      (result : Except ApiError (Data c.function.errorBuffer)) :
      Got configured m c
        [.logged (entryOf m c.function), .called m c.function c.params result]
        (c.receives (answerFor c.returnBufferSize c.function.errorBuffer result))

/-- How a host function comes to its result. -/
inductive Ending (configured : ApiFunction → Bool) (m : PlaidModule) (c : HostCall feats) :
    List Event → HostResult → Prop
  | unlogged : Ending configured m c [] (fail .internalApiError c.memory)
  | disallowed (hf : c.function.allowInTestMode = false) (hm : m.testMode = true) :
      Ending configured m c [.logged (entryOf m c.function)] (fail .testMode c.memory)
  | noMemory (hmemory : c.memory = none) :
      Ending configured m c [.logged (entryOf m c.function)] (fail .internalApiError none)
  | noParams {memoryView : MemoryView} {e : FunctionErrors} (hmemory : c.memory = some memoryView)
      (hparams : safelyGetString memoryView c.paramsBuffer c.paramsBufferLen = .error e) :
      Ending configured m c [.logged (entryOf m c.function)] (fail e (some memoryView))
  | notConfigured {memoryView : MemoryView} (hmemory : c.memory = some memoryView)
      (hc : configured c.function = false) :
      Ending configured m c [.logged (entryOf m c.function)] (fail .apiNotConfigured (some memoryView))
  | answered {memoryView : MemoryView} {params : String} (hmemory : c.memory = some memoryView)
      (hparams : safelyGetString memoryView c.paramsBuffer c.paramsBufferLen = .ok params)
      (hm : Permitted feats configured m c.function)
      (result : Except ApiError (Data c.function.errorBuffer)) :
      Ending configured m c
        [.logged (entryOf m c.function), .called m c.function params result]
        (conclude c memoryView result)

def Call.Ended (configured : ApiFunction → Bool) (a : Option (Except StlError Returned))
    (g : List Event) : Call feats → Prop
  | .rule _ _ => True
  | .stl m c => ∃ r, a = some r ∧ Got configured m c g r

/-- Every thread stays with its own events and keeps them in order. -/
def auditing (feats : Features) (configured : ApiFunction → Bool) (T : Type) [DecidableEq T] :
    Contract (system feats configured T) where
  Inv s := ∀ t, Audited feats configured (own t s)
  Rely t s s' := own t s' = own t s
  Ready _ _ := True
  At := Stands feats configured
  Ends _ c a g _ := c.Ended configured a g
  rely_refl _ _ := rfl
  rely_trans _ _ _ _ h h' := h'.trans h
  ready_stable _ _ _ _ _ := trivial
  at_stable t e s s' h hat := by
    intro r event hh
    rw [h]
    exact hat r event hh
  ends_stable _ _ _ _ _ _ _ h := h
  ends_ready _ _ _ _ _ _ := trivial

variable {α : Type} {t : T} {Q : α → List Event → Runtime T → Prop} {g : List Event} {s : Runtime T}

theorem safe_request {e : Request} {f : Reply e → Program α} (hat : Stands feats configured t e s)
    (hf : ∀ (r : Reply e) s', own t s' = own t s ++ (happened e r).toList →
      (auditing feats configured T).Safe t Q (f r) (g ++ (happened e r).toList) s') :
    (auditing feats configured T).Safe t Q (.request e f) g s := by
  refine ⟨hat, fun s₁ l r s₂ hrely hinv hreply => ?_⟩
  have htrace := reply_trace hreply
  have hown : own t s₂ = own t s₁ ++ (happened e r).toList :=
    (own_of_trace htrace t).trans (own_record_self t s₁ _)
  have hothers : ∀ u, u ≠ t → own u s₂ = own u s₁ := fun u hu =>
    (own_of_trace htrace u).trans (own_record_other hu s₁ _)
  refine ⟨fun u => ?_, hothers, hf r s₂ (by rw [hown, hrely])⟩
  by_cases hu : u = t
  · subst hu
    rw [hown]
    cases hh : happened e r with
    | none => simpa using hinv u
    | some event => exact (hinv u).append (hrely ▸ hat r event hh)
  · rw [hothers u hu]
    exact hinv u

theorem safe_afterLogging (m : PlaidModule) (c : HostCall feats)
    (hlogged : (own t s).getLast? = some (.logged (entryOf m c.function))) :
    (auditing feats configured T).Safe t
      (fun r g' _ => ∃ events, g' = g ++ events ∧
        Ending configured m c (.logged (entryOf m c.function) :: events) r)
      (afterLogging configured m c) g s := by
  unfold afterLogging
  by_cases htest : c.function.allowInTestMode = false ∧ m.testMode = true
  · rw [if_pos htest]
    exact ⟨[], by simp, .disallowed htest.1 htest.2⟩
  · rw [if_neg htest]
    cases hmemory : c.memory with
    | none => exact ⟨[], by simp, .noMemory hmemory⟩
    | some memoryView =>
      dsimp only
      cases hparams : safelyGetString memoryView c.paramsBuffer c.paramsBufferLen with
      | error e => exact ⟨[], by simp, .noParams hmemory hparams⟩
      | ok params =>
        dsimp only
        split_ifs with hc
        · have hm : Permitted feats configured m c.function :=
            ⟨c.known, hc, fun hm => by
              by_contra hf
              exact htest ⟨by simpa using hf, hm⟩⟩
          refine safe_request (stands_call hlogged hm) fun result s' _ => ?_
          exact ⟨_, rfl, .answered hmemory hparams hm result⟩
        · exact ⟨[], by simp, .notConfigured hmemory (by simpa using hc)⟩

theorem safe_hostFunction (m : PlaidModule) (c : HostCall feats) :
    (auditing feats configured T).Safe t
      (fun r g' _ => ∃ events, g' = g ++ events ∧ Ending configured m c events r)
      (hostFunction configured m c) g s := by
  refine safe_request (stands_log t _ s) fun logged s' hown => ?_
  cases logged with
  | error e => exact ⟨[], rfl, .unlogged⟩
  | ok u =>
    have hlogged : (own t s').getLast? = some (.logged (entryOf m c.function)) := by
      rw [hown]
      exact List.getLast?_concat
    refine (safe_afterLogging m c hlogged).mono fun r g' s'' h => ?_
    obtain ⟨events, rfl, hending⟩ := h
    exact ⟨_, List.append_assoc _ _ _, hending⟩

end audit

section library
variable {feats : Features} {configured : ApiFunction → Bool} {m : PlaidModule}

theorem read_of_le {m : MemoryView} {offset n k : ℕ} {b : Bytes} (h : m.read offset n = some b)
    (hk : k ≤ n) : ∃ b', m.read offset k = some b' := by
  unfold MemoryView.read at h ⊢
  split at h
  · exact ⟨_, if_pos (by omega)⟩
  · cases h

/-- Text that fits the buffer lies in it afterwards. -/
theorem writeBack_fits {m : MemoryView} {buffer : UInt32} {data zeros : Bytes} {size : ℕ}
    (hsize : size < 2 ^ 31) (hbuf : m.read buffer.toNat size = some zeros)
    (hfits : data.length ≤ size) :
    (writeBack m data buffer (UInt32.ofNat size)).i32 = data.length ∧
      bytesAt (writeBack m data buffer (UInt32.ofNat size)) buffer data.length = data := by
  have hlen : asI32 data.length = data.length := asI32_of_lt (by omega)
  obtain ⟨old, hold⟩ := read_of_le hbuf hfits
  obtain ⟨m', hwrite, hread⟩ := MemoryView.write_of_read hold
  unfold writeBack safelyWriteDataBack
  by_cases h0 : UInt32.ofNat size = 0
  · have hzero : size = 0 := by
      rw [← toNat_ofNat_u32 hsize, h0]
      rfl
    have hdata : data = [] := List.length_eq_zero_iff.mp (by omega)
    subst hdata
    rw [if_pos h0]
    exact ⟨hlen, by simp [bytesAt, MemoryView.read_zero hbuf]⟩
  · rw [if_neg h0, if_neg (by rw [toNat_ofNat_u32 hsize]; omega), hwrite]
    exact ⟨hlen, by simp [bytesAt, hread]⟩

theorem ofCode_code (e : FunctionErrors) : PlaidFunctionError.ofCode e.code = errorOf e := by
  cases e <;> rfl

theorem code_bounds (e : FunctionErrors) : -16 ≤ e.code ∧ e.code < 0 := by
  cases e <;> decide

/-- A host function that fails leaves the buffer as it was. -/
theorem readBack_fail {m : MemoryView} {ptr : UInt32} {size : ℕ} (hsize : size < 2 ^ 31)
    (hzero : m.read ptr.toNat size = some (List.replicate size 0)) (errorBuffer : Bool)
    (shape : Shape errorBuffer) (e : FunctionErrors) :
    readBack (bytesAt (fail e (some m)) ptr) size errorBuffer shape (fail e (some m)).i32 =
      received size errorBuffer shape (.error e) := by
  obtain ⟨hlow, hneg⟩ := code_bounds e
  have hcode : (fail e (some m)).i32 = e.code := rfl
  cases errorBuffer with
  | false =>
    cases (shape : NumberShape) with
    | usual => simp only [readBack, readNumber, received, receivedNumber, hcode, hneg, if_true, ofCode_code]
    | zeroOnly =>
      simp only [readBack, readNumber, received, receivedNumber, hcode, hneg.ne, if_false, ofCode_code]
    | truth => simp [readBack, readNumber, received, receivedNumber, hcode, hneg.ne]
  | true =>
    cases (shape : TextShape) with
    | usual => simp only [readBack, readText, received, receivedText, hcode, hneg, if_true, ofCode_code]
    | unchecked =>
      have hlong : min (e.code % 2 ^ 32).toNat size = size := by omega
      have hbytes : bytesAt (fail e (some m)) ptr size = List.replicate size 0 := by
        simp [bytesAt, fail, hzero]
      simp only [readBack, readText, received, receivedText, hcode, hlong, hbytes]
    | npm => simp only [readBack, readText, received, receivedText, hcode, hneg, if_true]
    | verdict => simp only [readBack, readText, received, receivedText, hcode, hneg, if_true]

/-- Text that has been written into the buffer is read back from it. -/
theorem readText_ok {returnBuffer : ℕ → Bytes} {size : ℕ} {text : String} {res : ℤ}
    (hres : res = (asBytes text).length) (hbytes : returnBuffer (asBytes text).length = asBytes text)
    (hsize : size < 2 ^ 31) (hfits : (asBytes text).length ≤ size) (shape : TextShape) :
    readText returnBuffer size shape res = receivedText size shape (.ok text) := by
  have hnot : ¬res < 0 := by omega
  have hnat : res.toNat = (asBytes text).length := by omega
  cases shape with
  | usual => simp only [readText, receivedText, hnot, if_false, hnat, hbytes]
  | unchecked =>
    have hlen : min (res % 2 ^ 32).toNat size = (asBytes text).length := by omega
    simp only [readText, receivedText, hlen, hbytes]
  | npm => simp only [readText, receivedText, hnot, if_false, hnat, hbytes]
  | verdict =>
    have htext : fromUtf8 (asBytes text) = some text := fromUtf8_asBytes text
    simp only [readText, receivedText, hnot, if_false, hnat, hbytes, htext, Option.some.injEq]

theorem readNumber_ok (shape : NumberShape) (number : UInt32) :
    readNumber shape (asI32 number.toNat) = receivedNumber shape (.ok number) := by
  cases shape <;> rfl

theorem finish_fail (c : StlCall feats) (e : FunctionErrors) :
    c.finish (fail e (some c.frame.memory)) = c.receives (.error e) :=
  readBack_fail c.size_fits c.frame.data_at _ _ e

theorem readBack_giveBack (c : StlCall feats) (errorBuffer : Bool) (shape : Shape errorBuffer)
    (data : Data errorBuffer) :
    readBack (bytesAt (giveBack c.hostCall c.frame.memory errorBuffer data) c.frame.dataPtr)
        c.returnBufferSize errorBuffer shape
        (giveBack c.hostCall c.frame.memory errorBuffer data).i32 =
      received c.returnBufferSize errorBuffer shape
        (answerFor c.returnBufferSize errorBuffer (.ok data)) := by
  cases errorBuffer with
  | false => exact readNumber_ok shape data
  | true =>
    have hlen : c.hostCall.retBufferLen.toNat = c.returnBufferSize := toNat_ofNat_u32 c.size_fits
    simp only [giveBack, answerFor, hlen]
    split_ifs with htoo
    · exact readBack_fail c.size_fits c.frame.data_at true shape .returnBufferTooSmall
    · obtain ⟨hi, hb⟩ := writeBack_fits c.size_fits c.frame.data_at (Nat.le_of_not_lt htoo)
      exact readText_ok hi hb c.size_fits (Nat.le_of_not_lt htoo) shape

theorem finish_conclude (c : StlCall feats) (result : Except ApiError (Data c.function.errorBuffer)) :
    c.finish (conclude c.hostCall c.frame.memory result) =
      c.receives (answerFor c.returnBufferSize c.function.errorBuffer result) := by
  match result with
  | .ok data => exact readBack_giveBack c _ c.shape data
  | .error .testMode =>
    have hanswer : answerFor c.returnBufferSize c.function.errorBuffer (.error .testMode) =
        .error .testMode := by
      cases c.function.errorBuffer <;> rfl
    rw [hanswer]
    exact finish_fail c .testMode
  | .error (.other text) =>
    have hanswer : answerFor c.returnBufferSize c.function.errorBuffer (.error (.other text)) =
        .error .internalApiError := by
      cases c.function.errorBuffer <;> rfl
    rw [hanswer]
    exact finish_fail c .internalApiError

/-- The parameters lie where the host function looks for them. -/
theorem Ending.got {c : StlCall feats} {events : List Event} {r : HostResult}
    (h : Ending configured m c.hostCall events r) : Got configured m c events (c.finish r) := by
  have hparams := c.frame.key_string c.params_fits
  cases h with
  | unlogged =>
    rw [show c.hostCall.memory = some c.frame.memory from rfl, finish_fail]
    exact .unlogged
  | disallowed hf hm =>
    rw [show c.hostCall.memory = some c.frame.memory from rfl, finish_fail]
    exact .disallowed hf hm
  | noMemory hmemory => cases hmemory
  | noParams hmemory hbad =>
    cases hmemory
    cases hparams.symm.trans hbad
  | notConfigured hmemory hc =>
    cases hmemory
    rw [finish_fail]
    exact .notConfigured hc
  | answered hmemory hgood hm result =>
    cases hmemory
    cases hparams.symm.trans hgood
    rw [show c.finish (conclude c.hostCall c.frame.memory result) = _ from finish_conclude c result]
    exact .answered hm result

end library

section runs
variable {feats : Features} {configured : ApiFunction → Bool} {T : Type} [DecidableEq T]

theorem safe_code (t : T) (c : Call feats) (s : Runtime T) :
    (auditing feats configured T).Safe t (fun a g _ => c.Ended configured a g) (c.code configured) []
      s := by
  cases c with
  | rule m guest =>
    have hhost : ∀ (c : HostCall feats) (g : List Event) (s : Runtime T), True →
        (auditing feats configured T).Safe t (fun _ _ _ => True) (hostFunction configured m c) g s :=
      fun c g s _ => (safe_hostFunction m c).mono fun _ _ _ _ => trivial
    exact Contract.Safe.bind
      ((Contract.Safe.interpret (I := fun _ _ => True) hhost trivial).mono fun _ _ _ _ => trivial)
  | stl m c =>
    have hcode : (Call.stl m c).code configured =
        hostFunction configured m c.hostCall >>= fun r => .done (some (c.finish r)) :=
      Prog.bind_assoc _ _ _
    rw [hcode]
    refine Contract.Safe.bind ((safe_hostFunction m c.hostCall).mono fun r g s h => ?_)
    obtain ⟨events, rfl, hending⟩ := h
    exact ⟨_, rfl, hending.got⟩

theorem good_run {σ : Config Request Reply (Runtime T) (Call feats)
      (Option (Except StlError Returned)) (List Event) T}
    {as : List (Action Label (Call feats) T)}
    (hr : (system feats configured T).run ⟨⟨true, []⟩, fun _ => none⟩ as = some σ) :
    (auditing feats configured T).Good σ := by
  have hstart : (auditing feats configured T).Good ⟨⟨true, []⟩, fun _ => none⟩ :=
    ⟨fun t before e after h => by simp [own] at h, fun _ => trivial⟩
  exact Contract.good_run (fun t c s _ _ => safe_code t c s) hstart hr

end runs
end PlaidRuntime.ApiCalls
