import PlaidRuntime.Loader

/-!
# Instances of the loaded modules

What `prepare_for_execution` (`executor/mod.rs`) does with a module that `load` has returned: the
imports that were checked then are linked now, for every message anew.
-/
namespace PlaidRuntime.ModuleLinking
open KeyedContent ApiFunctions Loader
open ModuleSigning (Sshcerts ReadDir)

inductive ExecutorError
  | linkError (e : LinkError)
  | instantiationError (e : String)
  | memoryError (e : String)
  | noEntrypoint
  | invalidEntrypoint
  deriving DecidableEq, Repr

/-- An instance as far as it is looked at: its memory, and its entrypoint when there is one, which
can have another type than `() -> i32`. -/
structure Instance where
  memory : Except String Unit
  entrypoint : Option Bool

variable {PublicKey SshSignature Fingerprint Compiled : Type} [DecidableEq Fingerprint]
  {feats : Features} {ssh : Sshcerts PublicKey SshSignature Fingerprint} {readDir : ReadDir}
  {wasmer : Wasmer Compiled} {config : Configuration PublicKey}
  {finish : List (PlaidModule Compiled) → List (PlaidModule Compiled)}
  {storage : Option (String → Except String ℕ)} {directory : List (Except String ModuleFile)}
  {modules : PlaidModules Compiled}

def prepareForExecution (feats : Features) (wasmer : Wasmer Compiled)
    (instantiate : Compiled → Imports → Except String Instance) (plaidModule : PlaidModule Compiled) :
    Except ExecutorError Instance := do
  let imports := wasmer.imports plaidModule.module
  let exports ← (linkFunctionsToModule feats imports).mapError .linkError
  let inst ← (instantiate plaidModule.module (registered exports imports)).mapError
    .instantiationError
  inst.memory.mapError .memoryError
  match inst.entrypoint with
  | none => .error .noEntrypoint
  | some false => .error .invalidEntrypoint
  | some true => .ok inst

/-- The imports an instance is given something for: a host function, one of the two functions every
module gets from wasm-bindgen or a mangled `throw`, or one of the two of the table of references. -/
def Provided (i : Import) : Prop :=
  i.module = "env" ∧ isBindgen i.name = false ∨
  i.module = "__wbindgen_placeholder__" ∧
    (i.name = "__wbindgen_describe" ∨ i.name = "__wbindgen_throw" ∨ isThrow i.name = true) ∨
  i.module = "__wbindgen_externref_xform__" ∧
    (i.name = "__wbindgen_externref_table_grow" ∨ i.name = "__wbindgen_externref_table_set_null")

/-- Every module that has been filed was configured, and its imports were checked, when it was
loaded. -/
theorem filed_checked (hfinish : ∀ l, (finish l).Perm l)
    (h : load feats ssh readDir wasmer config finish storage directory = .ok modules)
    {m : PlaidModule Compiled} {name logtype : String}
    (hm : modules.modules.lookup name = some m ∨ m ∈ (modules.channels.lookup logtype).getD []) :
    Configured config m ∧ ∀ i ∈ wasmer.imports m.module,
      isBindgen i.name = true ∨ isKnownApiFunction feats i.name = true := by
  obtain ⟨loaded, rfl, -, hmem⟩ := load_modules hfinish h
  have hin : m ∈ loaded := by
    rw [foldl_register] at hm
    obtain hm | hm := hm
    · obtain hm | hm := lookup_putAll hm
      · obtain ⟨m', hm', heq⟩ := List.mem_map.mp hm
        cases heq
        exact hm'
      · cases hm.1
    · rw [show loaded.foldl (fun c m => push c m.logtype m) ∅ = group PlaidModule.logtype loaded
        from rfl, lookup_group] at hm
      split_ifs at hm
      · exact List.mem_of_mem_filter hm
      · cases hm
  obtain ⟨-, path, -, bytes, module, hp, heq⟩ := (hmem m).mp hin
  have hmodule : m.module = module := congrArg PlaidModule.module heq
  have hc : Configured config { m with storageCurrent := 0 } := heq ▸ configure_configured _ _
  exact ⟨⟨hc.1, hc.2, hc.3, hc.4, hc.5, hc.6, hc.7, hc.8⟩, hmodule ▸ hp.imports⟩

/-- An import of a linked module is there exactly when it is provided. -/
theorem get_isSome_iff {imports : List Import} {exports : Exports}
    (hchecked : ∀ i ∈ imports, isBindgen i.name = true ∨ isKnownApiFunction feats i.name = true)
    (hlook : ∀ name, exports.lookup name =
      if isBindgen name = false ∧ name ∈ imports.map Import.name then toApiFunction feats name
      else none) {i : Import} (hi : i ∈ imports) :
    ((registered exports imports).get i).isSome = true ↔ Provided i := by
  have hname : i.name ∈ imports.map Import.name := List.mem_map_of_mem hi
  rw [get_registered, Provided]
  split_ifs with hx hp he
  · rw [lookup_createBindgenExternrefXform]
    simp [hx]
  · rw [lookup_createBindgenPlaceholder hname]
    simp [hp]
  · rw [hlook]
    by_cases hb : isBindgen i.name = true
    · simp [he, hb]
    · have hknown := isKnownApiFunction_iff.mp ((hchecked i hi).resolve_left hb)
      simp only [Bool.not_eq_true] at hb
      rw [if_pos ⟨hb, hname⟩]
      simp [he, hb, hknown]
  · simp [hx, hp, he]

/-- The link of a loaded module never fails. The host functions come under their own names, and of
the imports just those that are provided can be resolved. A memory is created for it only with a
maximum within the configured number of pages. -/
theorem loaded_modules_link (hfinish : ∀ l, (finish l).Perm l)
    (h : load feats ssh readDir wasmer config finish storage directory = .ok modules)
    {m : PlaidModule Compiled} (name logtype : String)
    (hm : modules.modules.lookup name = some m ∨ m ∈ (modules.channels.lookup logtype).getD [])
    (instantiate : Compiled → Imports → Except String Instance) :
    (∀ e, prepareForExecution feats wasmer instantiate m ≠ .error (.linkError e)) ∧
    (∀ ty created, createMemory m.pageLimit ty = .ok created → created.minimum ≤ m.pageLimit ∧
      ∃ max, created.maximum = some max ∧ max ≤ config.memoryPageCount.limit m.name m.logtype) ∧
    ∃ exports, linkFunctionsToModule feats (wasmer.imports m.module) = .ok exports ∧
      ∀ i ∈ wasmer.imports m.module,
        (((registered exports (wasmer.imports m.module)).get i).isSome = true ↔ Provided i) ∧
        (i.module = "env" → (registered exports (wasmer.imports m.module)).get i =
          if isBindgen i.name then none else toApiFunction feats i.name) := by
  obtain ⟨hconfigured, hchecked⟩ := filed_checked hfinish h hm
  obtain ⟨exports, hlink, hlook⟩ := linkFunctionsToModule_ok hchecked
  refine ⟨fun e he => ?_, fun ty created hcreated => ?_, exports, hlink,
    fun i hi => ⟨get_isSome_iff hchecked hlook hi, fun henv => ?_⟩⟩
  · simp only [prepareForExecution, hlink, Fallible.bind_error, Fallible.mapError_error] at he
    obtain ⟨_, hl, -⟩ | ⟨_, -, he⟩ := he
    · cases hl
    · obtain ⟨_, -, hl⟩ | ⟨inst, -, he⟩ := he
      · cases hl
      · obtain ⟨_, -, hl⟩ | ⟨_, -, he⟩ := he
        · cases hl
        · split at he <;> cases he
  · obtain ⟨hmin, max, hmax, hle⟩ := createMemory_ok hcreated
    refine ⟨hmin, max, hmax, ?_⟩
    rw [hconfigured.pageLimit] at hle
    omega
  · rw [get_registered, henv, hlook]
    by_cases hb : isBindgen i.name = true
    · simp [hb]
    · simp [hb, List.mem_map_of_mem (f := Import.name) hi]

theorem loaded_modules_link_sample :
    ∃ exports, linkFunctionsToModule ⟨true, true⟩ (byteWasmer.imports loadedRule.module) = .ok exports ∧
      (registered exports (byteWasmer.imports loadedRule.module)).get ⟨"env", "storage_get"⟩ =
        toApiFunction ⟨true, true⟩ "storage_get" := by
  obtain ⟨-, -, exports, hlink, hget⟩ := loaded_modules_link List.reverse_perm load_ruleDirectory
    "okta_rule.wasm" "okta" (.inl rfl) fun _ _ => .error ""
  exact ⟨exports, hlink, (hget ⟨"env", "storage_get"⟩ (by decide)).2 rfl⟩

end PlaidRuntime.ModuleLinking
