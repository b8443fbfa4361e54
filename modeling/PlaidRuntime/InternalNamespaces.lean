import PlaidRuntime.MessageCodec
import PlaidRuntime.StorageIsolation

/-!
# Namespaces of the runtime itself

Delayed messages and the state of the data generators are kept in the storage the rules use,
under names of their own. `Storage::new` sees only the names of the shared databases and
refuses those that end in `.wasm` (`storage/mod.rs`).
-/
namespace PlaidRuntime.InternalNamespaces
open EffectProgram StepMachine GuestMemory StorageProvider StorageHost StorageInstance
  StorageIsolation MessageCodec

variable {Loc T Sled Dynamo : Type}

inductive DatabaseConfig (Sled Dynamo : Type)
  | sled (config : Sled)
  | dynamoDb (config : Dynamo)
  | inMemory

structure Config (Sled Dynamo : Type) where
  db : Option (DatabaseConfig Sled Dynamo)
  sharedDbs : Option (AList fun _ : String => SharedDbConfig)

/-- One shared database with its counter. -/
abbrev NamedDb (Loc : Type) := Sigma fun _ : String => SharedDb Loc

section new
variable (counterOf : CounterName → Loc) (requests : ℕ)

/-- `requests` bounds the pages a listing may come in; `none` is a listing with more of them. -/
def initSharedDb (dbName : String) (dbConfig : SharedDbConfig) :
    HostProg Loc (Option (Except StorageError (NamedDb Loc))) :=
  if isWasm dbName then
    return some (.error (.sharedDbError "The name of a shared DB must not end with .wasm"))
  else do
    match ← populateStorageSize dbName (counterOf (.sharedDb dbName)) requests with
    | none => return none
    | some (.error e) =>
      return some (.error (.sharedDbError
        ("Could not count used storage in shared DB: " ++ e.display)))
    | some (.ok ()) => return some (.ok ⟨dbName, dbConfig, counterOf (.sharedDb dbName)⟩)

/-- `join_all`: every database is looked at, also after one of them has failed. -/
def initSharedDbs : List (Sigma fun _ : String => SharedDbConfig) →
    HostProg Loc (Option (List (Except StorageError (NamedDb Loc))))
  | [] => return some []
  | e :: es => do
    match ← initSharedDb counterOf requests e.1 e.2 with
    | none => return none
    | some result =>
      match ← initSharedDbs es with
      | none => return none
      | some results => return some (result :: results)

/-- Collecting results keeps the first error. -/
def collect : List (Except StorageError (NamedDb Loc)) → Except StorageError (List (NamedDb Loc))
  | [] => .ok []
  | .error e :: _ => .error e
  | .ok db :: results =>
    match collect results with
    | .ok dbs => .ok (db :: dbs)
    | .error e => .error e

/-- How the configured backend comes up. -/
def openDatabase (openSled : Sled → Except StorageError Unit) (openDynamo : Dynamo → Except String Unit) :
    Option (DatabaseConfig Sled Dynamo) → Except StorageError Unit
  | some (.sled c) => openSled c
  | some (.dynamoDb c) => (openDynamo c).mapError .storageInitError
  | some .inMemory => .ok ()
  | none => .error .noStorageConfigured

/-- `Storage::new`. -/
def newStorage (openSled : Sled → Except StorageError Unit)
    (openDynamo : Dynamo → Except String Unit) (config : Config Sled Dynamo) :
    HostProg Loc (Option (Except StorageError (Storage Loc))) :=
  match openDatabase openSled openDynamo config.db with
  | .error e => return some (.error e)
  | .ok () =>
    match config.sharedDbs with
    | none => return some (.ok ⟨none⟩)
    | some sharedDbs => do
      match ← initSharedDbs counterOf requests sharedDbs.entries with
      | none => return none
      | some results =>
        match collect results with
        | .ok dbs => return some (.ok ⟨some dbs.toAList⟩)
        | .error e => return some (.error e)

end new

/-- The configuration of the shared database `ns`. -/
def Config.sharedDb (config : Config Sled Dynamo) (ns : String) : Option SharedDbConfig :=
  config.sharedDbs.bind fun dbs => dbs.lookup ns

section accepted
variable {counterOf : CounterName → Loc} {openSled : Sled → Except StorageError Unit}
  {openDynamo : Dynamo → Except String Unit} {config : Config Sled Dynamo} [DecidableEq Loc] {t : T}
  {s s' : HostState Loc T} {os : List Outcome} {requests : ℕ}

theorem initSharedDb_ok {dbName : String} {dbConfig : SharedDbConfig} {db : NamedDb Loc}
    (h : (initSharedDb counterOf requests dbName dbConfig).replay (hostReply t) s os =
      some (some (.ok db), s')) :
    isWasm dbName = false ∧ db = ⟨dbName, dbConfig, counterOf (.sharedDb dbName)⟩ := by
  unfold initSharedDb at h
  split at h
  · obtain ⟨-, hd, -⟩ := Prog.replay_done h
    cases hd
  · rename_i hw
    obtain ⟨os₁, os₂, r, u, -, -, hrest⟩ := Prog.replay_bind h
    match r, hrest with
    | none, hrest =>
      obtain ⟨-, hd, -⟩ := Prog.replay_done hrest
      cases hd
    | some (.error e), hrest =>
      obtain ⟨-, hd, -⟩ := Prog.replay_done hrest
      cases hd
    | some (.ok _), hrest =>
      obtain ⟨-, hd, -⟩ := Prog.replay_done hrest
      cases hd
      exact ⟨Bool.eq_false_iff.mpr hw, rfl⟩

/-- When all databases come up, none has a name of a rule and each has a counter of its own. -/
theorem initSharedDbs_ok {es : List (Sigma fun _ : String => SharedDbConfig)}
    {results : List (Except StorageError (NamedDb Loc))} {dbs : List (NamedDb Loc)}
    (h : (initSharedDbs counterOf requests es).replay (hostReply t) s os = some (some results, s'))
    (hc : collect results = .ok dbs) :
    (∀ e ∈ es, isWasm e.1 = false) ∧
      dbs = es.map (Sigma.map id fun name c => ⟨c, counterOf (.sharedDb name)⟩) := by
  induction es generalizing s s' os results dbs with
  | nil =>
    obtain ⟨-, hd, -⟩ := Prog.replay_done h
    cases hd
    cases hc
    simp
  | cons e es ih =>
    obtain ⟨os₁, os₂, result, u, -, hinit, hrest⟩ := Prog.replay_bind h
    cases result with
    | none =>
      obtain ⟨-, hd, -⟩ := Prog.replay_done hrest
      cases hd
    | some result =>
      obtain ⟨os₃, os₄, results', u', -, hinits, hrest⟩ := Prog.replay_bind hrest
      cases results' with
      | none =>
        obtain ⟨-, hd, -⟩ := Prog.replay_done hrest
        cases hd
      | some results' =>
        obtain ⟨-, hd, -⟩ := Prog.replay_done hrest
        cases hd
        cases result with
        | error err => cases hc
        | ok db =>
          obtain ⟨hw, rfl⟩ := initSharedDb_ok hinit
          rw [collect] at hc
          split at hc
          · rename_i dbs' hc'
            cases hc
            obtain ⟨hws, rfl⟩ := ih hinits hc'
            refine ⟨?_, rfl⟩
            intro e' he'
            rcases List.mem_cons.mp he' with rfl | he'
            · exact hw
            · exact hws e' he'
          · cases hc

/-- What an accepted configuration makes of its shared databases. -/
theorem newStorage_ok {storage : Storage Loc}
    (h : (newStorage counterOf requests openSled openDynamo config).replay (hostReply t) s os =
      some (some (.ok storage), s')) (ns : String) :
    (storage.sharedDbs.bind fun dbs => dbs.lookup ns) =
        ((config.sharedDb ns).map fun c => ⟨c, counterOf (.sharedDb ns)⟩) ∧
      ∀ c, config.sharedDb ns = some c → isWasm ns = false := by
  unfold newStorage at h
  split at h
  · obtain ⟨-, hd, -⟩ := Prog.replay_done h
    cases hd
  · split at h
    · rename_i hnone
      obtain ⟨-, hd, -⟩ := Prog.replay_done h
      cases hd
      simp [Config.sharedDb, hnone]
    · rename_i dbs hsome
      obtain ⟨os₁, os₂, results, u, -, hinits, hrest⟩ := Prog.replay_bind h
      cases results with
      | none =>
        obtain ⟨-, hd, -⟩ := Prog.replay_done hrest
        cases hd
      | some results =>
        dsimp only at hrest
        cases hc : collect results with
        | error e =>
          rw [hc] at hrest
          obtain ⟨-, hd, -⟩ := Prog.replay_done hrest
          cases hd
        | ok dbs' =>
          rw [hc] at hrest
          obtain ⟨-, hd, -⟩ := Prog.replay_done hrest
          cases hd
          obtain ⟨hw, rfl⟩ := initSharedDbs_ok hinits hc
          constructor
          · simp only [Config.sharedDb, hsome, Option.bind_some, AList.lookup_to_alist]
            exact List.dlookup_map₂ ns
          · intro c hlookup
            simp only [Config.sharedDb, hsome, Option.bind_some] at hlookup
            exact hw ⟨ns, c⟩ (AList.mem_lookup_iff.mp hlookup)

end accepted

/-- What the loader hands over: rules named after their `.wasm` files, each with its counter. -/
structure LoadedModules (counterOf : CounterName → Loc) where
  modules : AList fun _ : String => PlaidModule Loc
  wasm : ∀ name ∈ modules, isWasm name = true
  named : ∀ name m, modules.lookup name = some m →
    m.name = name ∧ m.storageCurrent = counterOf (.module name)

section boot
variable [DecidableEq Loc]

/-- Some start of the runtime accepts the configuration and comes up with this storage. -/
def Accepted (counterOf : CounterName → Loc) (openSled : Sled → Except StorageError Unit)
    (openDynamo : Dynamo → Except String Unit) (config : Config Sled Dynamo)
    (storage : Storage Loc) : Prop :=
  ∃ (requests : ℕ) (s s' : HostState Loc Unit) (os : List Outcome),
    (newStorage counterOf requests openSled openDynamo config).replay (hostReply ()) s os =
      some (some (.ok storage), s')

variable {counterOf : CounterName → Loc} {openSled : Sled → Except StorageError Unit}
  {openDynamo : Dynamo → Except String Unit} {config : Config Sled Dynamo} {storage : Storage Loc}

theorem Accepted.sharedDb (h : Accepted counterOf openSled openDynamo config storage) (ns : String) :
    (storage.sharedDbs.bind fun dbs => dbs.lookup ns) =
      ((config.sharedDb ns).map fun c => ⟨c, counterOf (.sharedDb ns)⟩) := by
  obtain ⟨requests, s, s', os, h⟩ := h
  exact (newStorage_ok h ns).1

theorem Accepted.inv (h : Accepted counterOf openSled openDynamo config storage)
    {dbs : AList fun _ : String => SharedDb Loc} (hdbs : storage.sharedDbs = some dbs)
    {ns : String} {db : SharedDb Loc} (hdb : dbs.lookup ns = some db) :
    isWasm ns = false ∧ db.usedStorage = counterOf (.sharedDb ns) := by
  have hlookup := h.sharedDb ns
  obtain ⟨requests, s, s', os, h⟩ := h
  rw [hdbs, Option.bind_some, hdb] at hlookup
  obtain ⟨c, hc, rfl⟩ := Option.map_eq_some_iff.mp hlookup.symm
  exact ⟨(newStorage_ok h ns).2 c hc, rfl⟩

/-- Any accepted storage and any loaded modules make up an instance. -/
def instanceOf (hinj : Function.Injective counterOf) (loaded : LoadedModules counterOf)
    (h : Accepted counterOf openSled openDynamo config storage) : Instance Loc where
  modules := loaded.modules
  storage := some storage
  counterOf := counterOf
  counterOf_injective := hinj
  module_wasm := loaded.wasm
  module_named := loaded.named
  db_not_wasm st dbs hst hdbs name hname := by
    cases hst
    obtain ⟨db, hdb⟩ := Option.isSome_iff_exists.mp (AList.lookup_isSome.mpr hname)
    exact (h.inv hdbs hdb).1
  db_counter st dbs hst hdbs name db hdb := by
    cases hst
    exact (h.inv hdbs hdb).2

/-- The data generators the runtime has. -/
inductive Generator
  | okta
  | github
  deriving DecidableEq

def Generator.getName : Generator → String
  | .okta => "Okta"
  | .github => "GitHub"

def dataGeneratorStoragePrefix : String := "__DATA_GENERATOR"

def getDgStorageNamespace (dgName : String) : String := dataGeneratorStoragePrefix ++ "_" ++ dgName

/-- The namespaces the runtime keeps its own state in. -/
def Internal (ns : String) : Prop :=
  ns = logbackNs ∨ ∃ g : Generator, ns = getDgStorageNamespace g.getName

/-- The request reads or changes entries of the namespace. -/
def Touches (ns : String) : HostRequest Loc → Prop
  | .backend b => b.ns = ns
  | .fetchPage n _ => n = ns
  | _ => False

/-- Whatever has been called before, no storage call of a rule touches the namespace. -/
def OutOfReach (T : Type) (keysToJson : List String → Option String) (inst : Instance Loc)
    (ns : String) : Prop :=
  ∀ (s s' : Served Loc T) (calls : List (Service inst T)) (v : Service inst T),
    run (serve keysToJson) s calls = some s' →
    ∀ e ∈ (v.call.code keysToJson).issued (hostReply v.thread) s'.host v.outcomes, ¬ Touches ns e

theorem internal_not_wasm {ns : String} (h : Internal ns) : isWasm ns = false := by
  rcases h with rfl | ⟨g, rfl⟩
  · decide +kernel
  · cases g <;> decide +kernel

theorem internal_length {ns : String} (h : Internal ns) : ns.utf8ByteSize < 2 ^ 32 := by
  rcases h with rfl | ⟨g, rfl⟩
  · decide +kernel
  · cases g <;> decide +kernel

omit [DecidableEq Loc] in
theorem confined_touches {look change : String → Prop} {meters : String → Loc → Prop} {ns : String}
    {e : HostRequest Loc} (he : Confined look change meters e) (ht : Touches ns e) :
    look ns ∨ change ns := by
  cases e with
  | backend b =>
    cases ht
    cases b with
    | insert n key value => exact Or.inr he
    | delete n key => exact Or.inr he
    | _ => exact Or.inl he
  | fetchPage n first => exact he.elim
  | _ => exact ht.elim

section reach
variable {hinj : Function.Injective counterOf} {loaded : LoadedModules counterOf}
  {h : Accepted counterOf openSled openDynamo config storage}
  {keysToJson : List String → Option String}

theorem instanceOf_sharedDb (ns : String) : (instanceOf hinj loaded h).sharedDb ns =
    ((config.sharedDb ns).map fun c => ⟨c, counterOf (.sharedDb ns)⟩) :=
  h.sharedDb ns

/-- A rule that asks for the empty key of the shared database `ns`. -/
def readCall {inst : Instance Loc} (m : PlaidModule Loc)
    (hm : inst.modules.lookup m.name = some m) (ns : String) : HostCall inst :=
  ⟨m, hm, some ⟨asBytes ns⟩, .getShared 0 (UInt32.ofNat ns.utf8ByteSize) 0 0 0 0⟩

omit [DecidableEq Loc] in
theorem readCall_code {inst : Instance Loc} {m : PlaidModule Loc}
    {hm : inst.modules.lookup m.name = some m} {ns : String} {db : SharedDb Loc}
    (hns : ns.utf8ByteSize < 2 ^ 32) (hdb : inst.sharedDb ns = some db)
    (hp : m.name ∈ db.config.r ∨ m.name ∈ db.config.rw) :
    (readCall m hm ns).code keysToJson = getCommon ns "" ⟨asBytes ns⟩ 0 0 := by
  obtain ⟨st, hst, hdb⟩ := Option.bind_eq_some_iff.mp hdb
  obtain ⟨dbs, hdbs, hdb⟩ := Option.bind_eq_some_iff.mp hdb
  have hname : safelyGetString ⟨asBytes ns⟩ 0 (UInt32.ofNat ns.utf8ByteSize) = .ok ns := by
    apply safelyGetString_of_read
    have hsize : (UInt32.ofNat ns.utf8ByteSize).toNat = (asBytes ns).length := by
      rw [length_asBytes, UInt32.toNat_ofNat_of_lt' hns]
    rw [hsize]
    exact MemoryView.read_all ⟨asBytes ns⟩
  have hkey : safelyGetString ⟨asBytes ns⟩ 0 0 = .ok "" := by
    apply safelyGetString_of_read
    simp [MemoryView.read]
    rfl
  have hcan : canRead ⟨m, some st, some ⟨asBytes ns⟩⟩ db = true := by
    simpa [canRead] using hp
  simp only [readCall, HostCall.code, HostCall.env, hst]
  rw [getShared, sharedCall_some hdbs, withString_ok hname, withDb_permitted hdb hcan,
    withString_ok hkey]

/-- The internal namespaces are out of reach as long as no loaded rule is listed for a shared
database that has one of their names. -/
theorem internal_out_of_reach_iff [Inhabited T] (hinj : Function.Injective counterOf)
    (loaded : LoadedModules counterOf) (h : Accepted counterOf openSled openDynamo config storage)
    (keysToJson : List String → Option String) :
    (∀ ns, Internal ns → OutOfReach T keysToJson (instanceOf hinj loaded h) ns) ↔
      ∀ ns c, Internal ns → config.sharedDb ns = some c →
        ∀ name ∈ loaded.modules, name ∉ c.r ∧ name ∉ c.rw := by
  constructor
  · intro hout ns c hns hc name hname
    by_contra hlisted
    have hp : name ∈ c.r ∨ name ∈ c.rw := by
      by_contra hnone
      exact hlisted (not_or.mp hnone)
    obtain ⟨m, hm⟩ := Option.isSome_iff_exists.mp (AList.lookup_isSome.mpr hname)
    obtain rfl := (loaded.named name m hm).1
    have hdb : (instanceOf hinj loaded h).sharedDb ns = some ⟨c, counterOf (.sharedDb ns)⟩ := by
      rw [instanceOf_sharedDb, hc, Option.map_some]
    have hcode : (readCall m hm ns : HostCall (instanceOf hinj loaded h)).code keysToJson = _ :=
      readCall_code (internal_length hns) hdb hp
    have hidle : HostState Loc T := ⟨fun _ => ∅, fun _ => 0, fun _ => none, fun _ => false⟩
    refine hout ns hns ⟨hidle, []⟩ ⟨hidle, []⟩ [] ⟨default, readCall m hm ns, [.ok]⟩ rfl
      (.backend (.get ns "")) ?_ rfl
    rw [hcode]
    exact List.mem_cons_self ..
  · intro hnot ns hns s s' calls v _ e he ht
    have hconfined := Prog.issued_of_uses (v.call.code_confined keysToJson) he
    have hsees : (instanceOf hinj loaded h).Sees v.call.module.name ns := by
      rcases confined_touches hconfined ht with hr | hw
      · exact hr.sees
      · exact hw.mayRead.sees
    have hloaded : v.call.module.name ∈ loaded.modules :=
      AList.lookup_isSome.mp (Option.isSome_of_mem v.call.loaded)
    rcases hsees with rfl | ⟨db, hdb, hlisted⟩
    · have hwasm := loaded.wasm _ hloaded
      simp [internal_not_wasm hns] at hwasm
    · rw [instanceOf_sharedDb] at hdb
      obtain ⟨c, hc, rfl⟩ := Option.map_eq_some_iff.mp hdb
      have hnone := hnot ns c hns hc _ hloaded
      exact hlisted.elim hnone.1 hnone.2

end reach

end boot

section example_run

/-- One shared database that `rule.wasm` may write to. -/
def oneDb (name : String) : Config Unit Unit :=
  ⟨some .inMemory, some (AList.singleton name ⟨.unlimited, [], ["rule.wasm"]⟩)⟩

def oneDbStorage (name : String) : Storage CounterName :=
  ⟨some (AList.singleton name ⟨⟨.unlimited, [], ["rule.wasm"]⟩, .sharedDb name⟩)⟩

def emptyHost : HostState CounterName Unit :=
  ⟨fun _ => ∅, fun _ => 0, fun _ => none, fun _ => false⟩

theorem oneDb_accepted {name : String} (h : isWasm name = false) :
    Accepted id Except.ok Except.ok (oneDb name) (oneDbStorage name) := by
  refine ⟨1, emptyHost, { emptyHost with counter := Function.update emptyHost.counter (.sharedDb name) 0 },
    [.okPage [] none, .ok], ?_⟩
  simp [newStorage, openDatabase, oneDb, AList.singleton, initSharedDbs, initSharedDb, h,
    populateStorageSize]
  rfl

def oneRule : LoadedModules (id : CounterName → CounterName) where
  modules := AList.singleton "rule.wasm" ⟨"rule.wasm", 1, .module "rule.wasm", .unlimited⟩
  wasm name h := by
    have hn : name = "rule.wasm" := by simpa [AList.mem_keys] using h
    rw [hn]
    decide
  named name m h := by
    have hn : name = "rule.wasm" := by
      simpa [AList.mem_keys] using AList.lookup_isSome.mp (Option.isSome_of_mem h)
    subst hn
    cases h
    exact ⟨rfl, rfl⟩

abbrev oneDbInstance (name : String) (h : isWasm name = false) : Instance CounterName :=
  instanceOf Function.injective_id oneRule (oneDb_accepted h)

theorem internal_out_of_reach_board :
    OutOfReach Unit (fun _ => none) (oneDbInstance "board" (by decide)) logbackNs ∧
      OutOfReach Unit (fun _ => none) (oneDbInstance "board" (by decide))
        (getDgStorageNamespace Generator.okta.getName) := by
  have hfree := (internal_out_of_reach_iff (T := Unit) Function.injective_id oneRule
    (@oneDb_accepted "board" (by decide)) fun _ => none).mpr
  have hnames : ∀ ns c, Internal ns → (oneDb "board").sharedDb ns = some c →
      ∀ name ∈ oneRule.modules, name ∉ c.r ∧ name ∉ c.rw := by
    intro ns c hns hc
    have hne : ns ≠ "board" := by
      rcases hns with rfl | ⟨g, rfl⟩
      · decide +kernel
      · cases g <;> decide +kernel
    have hnone : (oneDb "board").sharedDb ns = none := by
      simp only [Config.sharedDb, oneDb, Option.bind_some, AList.lookup_eq_none]
      simpa [AList.mem_keys] using hne
    rw [hnone] at hc
    cases hc
  exact ⟨hfree hnames _ (Or.inl rfl), hfree hnames _ (Or.inr ⟨.okta, rfl⟩)⟩

/-- A rule writes the bytes of its choice among the delayed messages. -/
def forgeCall : Service (oneDbInstance logbackNs (by decide)) Unit :=
  ⟨(), ⟨⟨"rule.wasm", 1, .module "rule.wasm", .unlimited⟩, rfl,
    some ⟨asBytes "logback_internalk" ++ [7]⟩, .insertShared 0 16 16 1 17 1 0 0⟩, [.ok]⟩

/-- A shared database with the name of the delayed messages is accepted. -/
theorem shared_logback_forged :
    ¬ OutOfReach Unit (fun _ => none) (oneDbInstance logbackNs (by decide)) logbackNs ∧
    ∃ u, run (serve fun _ => none) ⟨emptyHost, []⟩ [forgeCall] = some u ∧
      (u.host.store logbackNs).lookup "k" = some [7] := by
  constructor
  · intro h
    refine h ⟨emptyHost, []⟩ ⟨emptyHost, []⟩ [] ⟨(), readCall forgeCall.call.module rfl logbackNs, [.ok]⟩
      rfl (.backend (.get logbackNs "")) ?_ rfl
    have hcode := @readCall_code CounterName (fun _ => none)
      (oneDbInstance logbackNs (by decide)) forgeCall.call.module rfl logbackNs
      ⟨⟨.unlimited, [], ["rule.wasm"]⟩, .sharedDb logbackNs⟩ (by decide) rfl (Or.inr (by decide))
    rw [hcode]
    exact List.mem_cons_self ..
  · have hrun : ((run (serve fun _ => none) ⟨emptyHost, []⟩ [forgeCall]).map fun u =>
        (u.host.store logbackNs).lookup "k") = some (some [7]) := by
      decide +kernel
    obtain ⟨u, hu, hlookup⟩ := Option.map_eq_some_iff.mp hrun
    exact ⟨u, hu, hlookup⟩

end example_run
end PlaidRuntime.InternalNamespaces
