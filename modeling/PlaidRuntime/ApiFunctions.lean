import PlaidRuntime.KeyedContent

/-!
# The functions a module can import

The table of the host functions (`functions/api.rs`) and how the imports of a module are linked to
them (`functions/mod.rs`).
-/
namespace PlaidRuntime.ApiFunctions
open KeyedContent

/-- The cargo features the table depends on. -/
structure Features where
  aws : Bool
  gcp : Bool

def withEnv : List String :=
  ["fetch_data", "fetch_source", "fetch_data_and_source", "get_accessory_data", "get_secrets",
   "get_headers", "get_query_params", "fetch_random_bytes", "get_response", "set_response",
   "set_error_context", "print_debug_string", "storage_insert", "storage_insert_shared",
   "storage_get", "storage_get_shared", "storage_delete", "storage_delete_shared",
   "storage_list_keys", "storage_list_keys_shared", "cache_insert", "cache_get", "log_back",
   "log_back_unlimited", "npm_publish_empty_stub", "npm_set_team_permission_on_package",
   "npm_create_granular_token_for_packages", "npm_delete_granular_token",
   "npm_list_granular_tokens", "npm_delete_package", "npm_add_user_to_team",
   "npm_remove_user_from_team", "npm_remove_user_from_organization",
   "npm_invite_user_to_organization", "npm_get_org_user_list", "npm_get_org_users_without_2fa",
   "npm_list_packages_with_team_permission", "npm_get_token_details", "okta_remove_user_from_group",
   "okta_get_user_data", "cryptography_aes_128_cbc_encrypt", "cryptography_aes_128_cbc_decrypt",
   "github_add_user_to_repo", "github_remove_user_from_repo", "github_add_user_to_team",
   "github_remove_user_from_team", "github_make_graphql_query",
   "github_make_advanced_graphql_query", "github_fetch_commit", "github_list_files",
   "github_fetch_file_with_custom_media_type", "github_list_fpat_requests_for_org",
   "github_review_fpat_requests_for_org", "github_get_repos_for_fpat",
   "github_get_branch_protection_rules", "github_get_branch_protection_ruleset",
   "github_get_repository_collaborators", "github_get_custom_properties_values",
   "github_check_codeowners_file", "github_update_branch_protection_rule",
   "github_create_environment_for_repo", "github_configure_secret",
   "github_create_deployment_branch_protection_rule", "github_search_code",
   "github_add_users_to_org_copilot", "github_remove_users_from_org_copilot",
   "github_list_seats_in_org_copilot", "github_trigger_repo_dispatch",
   "github_check_org_membership_of_user", "github_comment_on_pull_request",
   "github_delete_deploy_key", "github_create_deploy_key", "github_pull_request_request_reviewers",
   "github_submit_pull_request_review", "github_require_signed_commits",
   "github_get_weekly_commit_count", "github_add_repo_to_team", "github_remove_repo_from_team",
   "github_get_reference", "github_create_reference", "github_get_pull_requests",
   "github_create_pull_request", "github_create_file", "github_get_repo_sbom", "github_add_labels",
   "github_get_user_id_from_username", "github_get_username_from_user_id",
   "github_get_repo_id_from_repo_name", "github_get_repo_name_from_repo_id",
   "github_get_repo_teams", "github_remove_outside_collaborator_from_org",
   "github_add_repo_to_org_secret", "github_remove_repo_from_org_secret",
   "github_list_org_secrets_for_repo", "github_grant_repo_access_to_org_installation",
   "github_remove_repo_access_from_org_installation", "github_get_enterprise_license_status",
   "slack_post_to_named_webhook", "slack_post_to_arbitrary_webhook", "slack_post_message",
   "slack_views_open", "slack_get_id_from_email", "slack_get_presence", "slack_get_dnd",
   "slack_user_info", "slack_create_channel", "slack_invite_to_channel", "slack_update_message",
   "slack_remove_from_channel", "slack_schedule_message", "slack_delete_scheduled_message",
   "slack_conversations_history", "general_simple_json_post_request", "general_make_named_request",
   "general_retrieve_tls_certificate_with_sni", "jira_create_issue", "jira_get_issue",
   "jira_update_issue", "jira_get_user", "jira_post_comment", "jira_search_issues",
   "pagerduty_trigger_incident", "pagerduty_get_incident_alerts", "rustica_new_mtls_cert",
   "yubikey_verify_otp", "splunk_post_hec", "web_issue_jwt",
   "blockchain_evm_get_transaction_by_hash", "blockchain_evm_get_transaction_receipt",
   "blockchain_evm_send_raw_transaction", "blockchain_evm_get_transaction_count",
   "blockchain_evm_get_balance", "blockchain_evm_estimate_gas", "blockchain_evm_eth_call",
   "blockchain_evm_gas_price", "blockchain_evm_get_logs", "blockchain_evm_get_block",
   "blockchain_evm_get_fee_history", "blockchain_solana_send_signed_transaction",
   "blockchain_solana_get_balance", "blockchain_solana_get_account_info",
   "blockchain_solana_get_slot", "blockchain_solana_get_latest_blockhash",
   "blockchain_solana_get_transaction_count", "blockchain_solana_get_transaction",
   "blockchain_solana_get_signature_statuses", "blockchain_solana_get_block",
   "blockchain_solana_get_multiple_accounts", "blockchain_solana_get_program_accounts",
   "blockchain_solana_get_token_accounts_by_owner", "blockchain_solana_get_token_account_balance",
   "blockchain_solana_get_token_supply", "blockchain_solana_get_minimum_balance_for_rent_exemption",
   "blockchain_solana_get_fee_for_message", "blockchain_solana_get_recent_prioritization_fees",
   "blockchain_solana_simulate_transaction", "blockchain_solana_get_signatures_for_address",
   "bloom_filter_build_with_items"]

def withEnvAws : List String :=
  ["aws_kms_generate_mac", "aws_kms_verify_mac", "aws_kms_sign_arbitrary_message",
     "aws_kms_get_public_key", "aws_dynamodb_put_item", "aws_dynamodb_delete_item",
     "aws_dynamodb_query", "aws_s3_delete_object", "aws_s3_get_object",
     "aws_s3_get_object_attributes", "aws_s3_list_objects", "aws_s3_list_object_versions",
     "aws_s3_put_object", "aws_s3_put_object_tags"]

def withEnvGcp : List String :=
  ["gcp_google_docs_upload_file", "gcp_google_docs_copy_file", "gcp_google_docs_create_folder",
     "gcp_google_docs_create_doc_from_markdown", "gcp_google_docs_create_sheet_from_csv",
     "gcp_bigquery_query_table"]

def withoutEnv : List String := ["get_time"]

/-- A function the guest can call, under the name of its entry or of the Rust function. -/
inductive Function
  | newTypedWithEnv (name : String)
  | newTyped (name : String)
  deriving DecidableEq, Repr

structure Import where
  module : String
  name : String
  deriving DecidableEq, Repr

abbrev Exports := AList fun _ : String => Function

inductive LinkError
  | noSuchFunction (name : String)
  deriving DecidableEq, Repr

variable (feats : Features)

def allWithEnv : List String :=
  withEnv ++ (if feats.aws then withEnvAws else []) ++ (if feats.gcp then withEnvGcp else [])

def toApiFunction (name : String) : Option Function :=
  if name ∈ allWithEnv feats then some (.newTypedWithEnv name)
  else if name ∈ withoutEnv then some (.newTyped name)
  else none

def isKnownApiFunction (name : String) : Bool :=
  if name ∈ allWithEnv feats then true else if name ∈ withoutEnv then true else false

/-- `str::starts_with`. -/
def startsWith (s pat : String) : Bool := pat.toList.isPrefixOf s.toList

/-- The names wasm-bindgen uses, up to 0.2.101, to 0.2.104 and from 0.2.105 on. -/
def isBindgen (name : String) : Bool :=
  startsWith name "__wbindgen" || startsWith name "__wbg_wbindgen" ||
    startsWith name "__wbg___wbindgen"

def linkFrom (exports : Exports) : List Import → Except LinkError Exports
  | [] => .ok exports
  | i :: imports =>
    if isBindgen i.name then linkFrom exports imports
    else match toApiFunction feats i.name with
      | some func => linkFrom (exports.insert i.name func) imports
      | none => .error (.noSuchFunction i.name)

def linkFunctionsToModule (imports : List Import) : Except LinkError Exports :=
  linkFrom feats ∅ imports

/-- The intrinsics under the mangled name of `__wbindgen_throw`. -/
def isThrow (name : String) : Bool :=
  startsWith name "__wbg_wbindgenthrow_" || startsWith name "__wbg___wbindgen_throw_"

def createBindgenPlaceholder (imports : List Import) : Exports :=
  imports.foldl
    (fun exports i => if isThrow i.name then exports.insert i.name (.newTyped "fake_wbindgen_throw")
      else exports)
    ((AList.insert "__wbindgen_describe" (.newTyped "fake_wbindgen_describe") ∅).insert
      "__wbindgen_throw" (.newTyped "fake_wbindgen_throw"))

def createBindgenExternrefXform : Exports :=
  (AList.insert "__wbindgen_externref_table_grow" (.newTyped "fake_wbindgen_externref_table_grow")
    ∅).insert "__wbindgen_externref_table_set_null"
      (.newTyped "fake_wbindgen_externref_table_set_null")

/-- The namespaces an instance is created with. -/
abbrev Imports := AList fun _ : String => Exports

def Imports.get (imports : Imports) (i : Import) : Option Function :=
  (imports.lookup i.module).bind fun exports => exports.lookup i.name

def registered (exports : Exports) (imports : List Import) : Imports :=
  ((AList.insert "env" exports ∅).insert "__wbindgen_placeholder__"
    (createBindgenPlaceholder imports)).insert "__wbindgen_externref_xform__"
      createBindgenExternrefXform

section linking
variable {feats}

@[simp]
theorem isKnownApiFunction_iff {name : String} :
    isKnownApiFunction feats name = true ↔ (toApiFunction feats name).isSome = true := by
  unfold isKnownApiFunction toApiFunction
  split_ifs <;> simp

/-- The two macros' tables are one: what is known is what can be linked. -/
theorem linkFrom_ok (exports : Exports) {imports : List Import}
    (h : ∀ i ∈ imports, isBindgen i.name = true ∨ isKnownApiFunction feats i.name = true) :
    ∃ linked, linkFrom feats exports imports = .ok linked ∧ ∀ name, linked.lookup name =
      if isBindgen name = false ∧ name ∈ imports.map Import.name then toApiFunction feats name
      else exports.lookup name := by
  induction imports generalizing exports with
  | nil => exact ⟨exports, rfl, by simp⟩
  | cons i imports ih =>
    obtain ⟨hi, hrest⟩ := List.forall_mem_cons.mp h
    unfold linkFrom
    by_cases hb : isBindgen i.name = true
    · obtain ⟨linked, hl, hlook⟩ := ih exports hrest
      refine ⟨linked, by rw [if_pos hb]; exact hl, fun name => ?_⟩
      rw [hlook name]
      by_cases hn : name = i.name
      · subst hn
        simp [hb]
      · simp [hn]
    · obtain ⟨func, hf⟩ := Option.isSome_iff_exists.mp
        (isKnownApiFunction_iff.mp (hi.resolve_left hb))
      obtain ⟨linked, hl, hlook⟩ := ih (exports.insert i.name func) hrest
      refine ⟨linked, by rw [if_neg hb, hf]; exact hl, fun name => ?_⟩
      rw [hlook name]
      by_cases hn : name = i.name
      · subst hn
        simp [hb, hf]
      · simp [hn]

/-- A module that only imports known functions is linked, and gets each of them under its name. -/
theorem linkFunctionsToModule_ok {imports : List Import}
    (h : ∀ i ∈ imports, isBindgen i.name = true ∨ isKnownApiFunction feats i.name = true) :
    ∃ linked, linkFunctionsToModule feats imports = .ok linked ∧ ∀ name, linked.lookup name =
      if isBindgen name = false ∧ name ∈ imports.map Import.name then toApiFunction feats name
      else none := by
  obtain ⟨linked, hl, hlook⟩ := linkFrom_ok ∅ h
  exact ⟨linked, hl, hlook⟩

theorem lookup_createBindgenPlaceholder {imports : List Import} {name : String}
    (h : name ∈ imports.map Import.name) :
    ((createBindgenPlaceholder imports).lookup name).isSome = true ↔
      name = "__wbindgen_describe" ∨ name = "__wbindgen_throw" ∨ isThrow name = true := by
  have hfold : ∀ (imports : List Import) (exports : Exports), ((imports.foldl
      (fun exports i => if isThrow i.name then exports.insert i.name (.newTyped "fake_wbindgen_throw")
        else exports) exports).lookup name).isSome = true ↔
      (isThrow name = true ∧ name ∈ imports.map Import.name) ∨
        (exports.lookup name).isSome = true := by
    intro imports
    induction imports with
    | nil => simp
    | cons i imports ih =>
      intro exports
      rw [List.foldl_cons, ih]
      by_cases hn : name = i.name
      · subst hn
        by_cases ht : isThrow i.name = true <;> simp [ht]
      · by_cases ht : isThrow i.name = true <;> simp [ht, hn]
  rw [createBindgenPlaceholder, hfold, lookup_insert_if, lookup_insert_if]
  split_ifs with ht hd
  · simp [ht]
  · simp [hd]
  · simp [ht, hd, h]

theorem lookup_createBindgenExternrefXform {name : String} :
    (createBindgenExternrefXform.lookup name).isSome = true ↔
      name = "__wbindgen_externref_table_grow" ∨ name = "__wbindgen_externref_table_set_null" := by
  rw [createBindgenExternrefXform, lookup_insert_if, lookup_insert_if]
  split_ifs with hs hg
  · simp [hs]
  · simp [hg]
  · simp [hs, hg]

/-- Which namespaces are there. -/
theorem get_registered (exports : Exports) (imports : List Import) (i : Import) :
    (registered exports imports).get i =
      if i.module = "__wbindgen_externref_xform__" then createBindgenExternrefXform.lookup i.name
      else if i.module = "__wbindgen_placeholder__" then
        (createBindgenPlaceholder imports).lookup i.name
      else if i.module = "env" then exports.lookup i.name
      else none := by
  rw [Imports.get, registered, lookup_insert_if, lookup_insert_if, lookup_insert_if]
  split_ifs <;> rfl

end linking

end PlaidRuntime.ApiFunctions
