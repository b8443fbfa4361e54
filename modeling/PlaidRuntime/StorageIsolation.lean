import PlaidRuntime.StorageMetering

/-!
# Namespace isolation

A rule changes only its own namespace and the shared databases it may write to, and what
its calls answer depends only on the namespaces it may read.
-/
namespace PlaidRuntime.StorageInstance
open EffectProgram GuestMemory StorageProvider StorageHost

variable {Loc : Type} {inst : Instance Loc}

/-- The shared database `ns` as the instance knows it. -/
def Instance.sharedDb (inst : Instance Loc) (ns : String) : Option (SharedDb Loc) :=
  inst.storage.bind fun st => st.sharedDbs.bind fun dbs => dbs.lookup ns

/-- The counter `loc` meters the namespace `ns`. -/
def Instance.Meters (inst : Instance Loc) (ns : String) (loc : Loc) : Prop :=
  ∃ limit, inst.Owns ns loc limit

/-- The namespaces a module may see at all. -/
def Instance.Sees (inst : Instance Loc) (name ns : String) : Prop :=
  ns = name ∨
    ∃ db, inst.sharedDb ns = some db ∧ (name ∈ db.config.r ∨ name ∈ db.config.rw)

namespace HostCall

/-- The functions on the caller's own namespace. -/
def isPrivate (c : HostCall inst) : Bool :=
  match c.function with
  | .insert _ _ _ _ _ _ => true
  | .get _ _ _ _ => true
  | .listKeys _ _ _ _ => true
  | .delete _ _ _ _ => true
  | _ => false

/-- A private function on the caller's namespace, or a shared function on a database that
lists the caller in `rw`. -/
def MayWrite (c : HostCall inst) (ns : String) : Prop :=
  if c.isPrivate then ns = c.module.name
  else ∃ db, inst.sharedDb ns = some db ∧ c.module.name ∈ db.config.rw

def MayRead (c : HostCall inst) (ns : String) : Prop :=
  if c.isPrivate then ns = c.module.name
  else ∃ db, inst.sharedDb ns = some db ∧
    (c.module.name ∈ db.config.r ∨ c.module.name ∈ db.config.rw)

theorem MayWrite.mayRead {c : HostCall inst} {ns : String} (h : c.MayWrite ns) : c.MayRead ns := by
  unfold MayWrite at h
  split at h
  · rename_i hp
    simpa only [MayRead, hp, if_true] using h
  · rename_i hp
    obtain ⟨db, hdb, hrw⟩ := h
    simp only [MayRead, hp]
    exact ⟨db, hdb, Or.inr hrw⟩

theorem MayRead.sees {c : HostCall inst} {ns : String} (h : c.MayRead ns) :
    inst.Sees c.module.name ns := by
  unfold MayRead at h
  split at h
  · exact Or.inl h
  · exact Or.inr h

theorem canWrite_iff {c : HostCall inst} {db : SharedDb Loc} :
    canWrite c.env db = true ↔ c.module.name ∈ db.config.rw := by
  simp [canWrite, env]

theorem canRead_iff {c : HostCall inst} {db : SharedDb Loc} :
    canRead c.env db = true ↔ c.module.name ∈ db.config.r ∨ c.module.name ∈ db.config.rw := by
  simp [canRead, env]

section permissions
variable {c : HostCall inst} {st : Storage Loc} {dbs : AList fun _ : String => SharedDb Loc}
  {ns : String} {db : SharedDb Loc}

theorem mayWrite_own (hf : c.isPrivate = true) : c.MayWrite c.module.name := by
  simp [MayWrite, hf]

theorem mayWrite_shared (hf : c.isPrivate = false) (hst : inst.storage = some st)
    (hdbs : st.sharedDbs = some dbs) (hdb : dbs.lookup ns = some db)
    (hp : canWrite c.env db = true) : c.MayWrite ns := by
  have hlookup : inst.sharedDb ns = some db := by simp [Instance.sharedDb, hst, hdbs, hdb]
  simp only [MayWrite, hf, Bool.false_eq_true, if_false]
  exact ⟨db, hlookup, canWrite_iff.mp hp⟩

theorem mayRead_shared (hf : c.isPrivate = false) (hst : inst.storage = some st)
    (hdbs : st.sharedDbs = some dbs) (hdb : dbs.lookup ns = some db)
    (hp : canRead c.env db = true) : c.MayRead ns := by
  have hlookup : inst.sharedDb ns = some db := by simp [Instance.sharedDb, hst, hdbs, hdb]
  simp only [MayRead, hf, Bool.false_eq_true, if_false]
  exact ⟨db, hlookup, canRead_iff.mp hp⟩

theorem meters_own : inst.Meters c.module.name c.module.storageCurrent :=
  ⟨c.module.storageLimit, Or.inl ⟨c.module, c.loaded, rfl, rfl⟩⟩

theorem meters_shared (hst : inst.storage = some st) (hdbs : st.sharedDbs = some dbs)
    (hdb : dbs.lookup ns = some db) : inst.Meters ns db.usedStorage :=
  ⟨db.config.sizeLimit, Or.inr ⟨st, dbs, db, hst, hdbs, hdb, rfl, rfl⟩⟩

end permissions

/-- Each of the eight functions keeps to what its caller may read and write. -/
theorem code_confined (keysToJson : List String → Option String) (c : HostCall inst) :
    (c.code keysToJson).Uses (Confined c.MayRead c.MayWrite inst.Meters) := by
  unfold HostCall.code
  cases hf : c.function with
  | insert kb kl vb vl db dl =>
    have hp : c.isPrivate = true := by simp [isPrivate, hf]
    have hw := mayWrite_own hp
    apply privateCall_uses
    exact fun m => withString_uses fun key => withMemory_uses fun value =>
      insertCommon_confined hw.mayRead hw meters_own
  | insertShared nb nl kb kl vb vl db dl =>
    have hp : c.isPrivate = false := by simp [isPrivate, hf]
    apply sharedCall_uses
    intro st dbs m hst hdbs
    apply withString_uses fun ns => withDb_uses _
    intro ns db hdb hcan
    have hw := mayWrite_shared hp hst hdbs hdb hcan
    exact withString_uses fun key => withMemory_uses fun value =>
      insertCommon_confined hw.mayRead hw (meters_shared hst hdbs hdb)
  | get kb kl db dl =>
    have hp : c.isPrivate = true := by simp [isPrivate, hf]
    have hr := (mayWrite_own hp).mayRead
    apply privateCall_uses
    exact fun m => withString_uses fun key => getCommon_confined hr
  | getShared nb nl kb kl db dl =>
    have hp : c.isPrivate = false := by simp [isPrivate, hf]
    apply sharedCall_uses
    intro st dbs m hst hdbs
    apply withString_uses fun ns => withDb_uses _
    intro ns db hdb hcan
    exact withString_uses fun key => getCommon_confined (mayRead_shared hp hst hdbs hdb hcan)
  | listKeys pb pl db dl =>
    have hp : c.isPrivate = true := by simp [isPrivate, hf]
    have hr := (mayWrite_own hp).mayRead
    apply privateCall_uses
    exact fun m => withString_uses fun keyPrefix => listKeysCommon_confined hr
  | listKeysShared nb nl pb pl db dl =>
    have hp : c.isPrivate = false := by simp [isPrivate, hf]
    apply sharedCall_uses
    intro st dbs m hst hdbs
    apply withString_uses fun ns => withDb_uses _
    intro ns db hdb hcan
    exact withString_uses fun keyPrefix =>
      listKeysCommon_confined (mayRead_shared hp hst hdbs hdb hcan)
  | delete kb kl db dl =>
    have hp : c.isPrivate = true := by simp [isPrivate, hf]
    have hw := mayWrite_own hp
    apply privateCall_uses
    exact fun m => withString_uses fun key => deleteCommon_confined hw.mayRead hw meters_own
  | deleteShared nb nl kb kl db dl =>
    have hp : c.isPrivate = false := by simp [isPrivate, hf]
    apply sharedCall_uses
    intro st dbs m hst hdbs
    apply withString_uses fun ns => withString_uses fun key => withDb_uses _
    intro ns key db hdb hcan
    have hw := mayWrite_shared hp hst hdbs hdb hcan
    exact deleteCommon_confined hw.mayRead hw (meters_shared hst hdbs hdb)

end HostCall
end PlaidRuntime.StorageInstance

namespace PlaidRuntime.StorageIsolation
open EffectProgram StepMachine KeyedContent GuestMemory StorageProvider StorageHost StorageInstance
  StorageMetering

variable {Loc T : Type} [DecidableEq Loc] {inst : Instance Loc}

/-- A call as it is served: by which thread, and how its requests turn out. -/
structure Service (inst : Instance Loc) (T : Type) where
  thread : T
  call : HostCall inst
  outcomes : List Outcome

/-- The host state and the answers given so far, the latest first. -/
structure Served (Loc T : Type) where
  host : HostState Loc T
  answers : List HostResult

/-- Calls are served one after the other. -/
def serve (keysToJson : List String → Option String) (s : Served Loc T) (v : Service inst T) :
    Option (Served Loc T) :=
  ((v.call.code keysToJson).replay (hostReply v.thread) s.host v.outcomes).map fun r =>
    ⟨r.2, r.1 :: s.answers⟩

variable {keysToJson : List String → Option String}

theorem serve_inv {s s' : Served Loc T} {v : Service inst T}
    (h : serve keysToJson s v = some s') :
    ∃ r, (v.call.code keysToJson).replay (hostReply v.thread) s.host v.outcomes =
      some (r, s'.host) ∧ s'.answers = r :: s.answers := by
  obtain ⟨⟨r, host⟩, hr, he⟩ := Option.map_eq_some_iff.mp h
  cases he
  exact ⟨r, hr, rfl⟩

section writes
variable {look change : String → Prop} {ns : String} {e : HostRequest Loc} {t : T}
  {s s' : HostState Loc T} {o : Outcome} {r : HostReply e}

/-- A request confined to other namespaces keeps the entries and the counter of this one. -/
theorem confined_frame (he : Confined look change inst.Meters e) (hns : ¬ change ns)
    (hr : hostReply t s e o = some (r, s')) :
    s'.store ns = s.store ns ∧ ∀ loc, inst.Meters ns loc → s'.counter loc = s.counter loc := by
  constructor
  · apply store_frame _ _ hr
    · rintro key value rfl
      exact hns he
    · rintro key rfl
      exact hns he
  · intro loc ⟨limit, hown⟩
    apply counter_frame _ _ hr
    · rintro v rfl
      obtain ⟨n, hn, limit', hown'⟩ := he
      have hsame := hown.namespace_unique hown'
      exact hns (hsame ▸ hn)
    · rintro n rfl
      exact he

end writes

/-- What a sequence of calls changes, some call of it was allowed to change. -/
theorem changes_permitted {s s' : Served Loc T} {calls : List (Service inst T)} {ns : String}
    (hr : run (serve keysToJson) s calls = some s')
    (hns : ∀ v ∈ calls, ¬ v.call.MayWrite ns) :
    s'.host.store ns = s.host.store ns ∧
      ∀ loc, inst.Meters ns loc → s'.host.counter loc = s.host.counter loc := by
  induction calls generalizing s with
  | nil =>
    cases hr
    exact ⟨rfl, fun _ _ => rfl⟩
  | cons v calls ih =>
    obtain ⟨u, hv, hrest⟩ := Option.bind_eq_some_iff.mp hr
    obtain ⟨r, hreplay, -⟩ := serve_inv hv
    have hkept : u.host.store ns = s.host.store ns ∧
        ∀ loc, inst.Meters ns loc → u.host.counter loc = s.host.counter loc := by
      refine Prog.replay_invariant (J := fun t : HostState Loc T => t.store ns = s.host.store ns ∧
        ∀ loc, inst.Meters ns loc → t.counter loc = s.host.counter loc) ?_
        (v.call.code_confined keysToJson) ⟨rfl, fun _ _ => rfl⟩ hreplay
      intro t e o r t' he ht hreply
      obtain ⟨hstore, hcounter⟩ := confined_frame he (hns v (List.mem_cons_self ..)) hreply
      exact ⟨hstore.trans ht.1, fun loc hloc => (hcounter loc hloc).trans (ht.2 loc hloc)⟩
    obtain ⟨hstore, hcounter⟩ := ih hrest fun w hw => hns w (List.mem_cons_of_mem v hw)
    exact ⟨hstore.trans hkept.1, fun loc hloc => (hcounter loc hloc).trans (hkept.2 loc hloc)⟩

/-- Two host states look the same to a module: the same entries and the same counters, with
their locks, in every namespace it may see. -/
structure Agree (inst : Instance Loc) (name : String) (s s' : HostState Loc T) : Prop where
  entries : ∀ ns, inst.Sees name ns → SameEntries (s.store ns) (s'.store ns)
  counter : ∀ ns, inst.Sees name ns → ∀ loc, inst.Meters ns loc → s.counter loc = s'.counter loc
  holder : ∀ ns, inst.Sees name ns → ∀ loc, inst.Meters ns loc → s.holder loc = s'.holder loc
  poisoned : ∀ ns, inst.Sees name ns → ∀ loc, inst.Meters ns loc → s.poisoned loc = s'.poisoned loc

/-- One request allowed to the module does not tell the two states apart. -/
theorem confined_related {c : HostCall inst} {t : T} {s s' u : HostState Loc T}
    {e : HostRequest Loc} {o : Outcome} {r : HostReply e}
    (he : Confined c.MayRead c.MayWrite inst.Meters e) (h : Agree inst c.module.name s s')
    (hr : hostReply t s e o = some (r, u)) :
    ∃ u', hostReply t s' e o = some (r, u') ∧ Agree inst c.module.name u u' := by
  have updated : ∀ {β : Type} {f f' : Loc → β} (loc : Loc) (v : β),
      (∀ ns, inst.Sees c.module.name ns → ∀ l, inst.Meters ns l → f l = f' l) →
      ∀ ns, inst.Sees c.module.name ns → ∀ l, inst.Meters ns l →
        Function.update f loc v l = Function.update f' loc v l := by
    intro β f f' loc v hf ns hns l hl
    by_cases hll : l = loc
    · subst hll
      simp
    · simpa [hll] using hf ns hns l hl
  have seen : ∀ {n loc}, c.MayWrite n ∧ inst.Meters n loc →
      s.counter loc = s'.counter loc ∧ s.holder loc = s'.holder loc ∧
        s.poisoned loc = s'.poisoned loc := by
    intro n loc ⟨hn, hloc⟩
    have hs := hn.mayRead.sees
    exact ⟨h.counter n hs loc hloc, h.holder n hs loc hloc, h.poisoned n hs loc hloc⟩
  cases e with
  | backend b =>
    have hb : inst.Sees c.module.name b.ns := by
      cases b with
      | insert n key value => exact (HostCall.MayWrite.mayRead he).sees
      | delete n key => exact (HostCall.MayWrite.mayRead he).sees
      | _ => exact HostCall.MayRead.sees he
    obtain ⟨⟨r', store⟩, hb', heq⟩ := Option.map_eq_some_iff.mp hr
    cases heq
    obtain ⟨store', hreply, hsame⟩ := backendReply_related h.entries hb hb'
    refine ⟨{ s' with store := store' }, ?_, hsame, h.counter, h.holder, h.poisoned⟩
    simp only [hostReply, hreply, Option.map_some]
  | lock loc =>
    obtain ⟨n, hn⟩ := he
    obtain ⟨-, hholder, hpoisoned⟩ := seen hn
    obtain ⟨rfl, ⟨hp, rfl, rfl⟩ | ⟨hp, hfree, rfl, rfl⟩⟩ := reply_lock hr
    · exact ⟨s', by simp [hostReply, ← hpoisoned, hp], h⟩
    · refine ⟨{ s' with holder := Function.update s'.holder loc (some t) }, ?_, h.entries, h.counter,
        updated loc (some t) h.holder, h.poisoned⟩
      simp [hostReply, ← hpoisoned, hp, ← hholder, hfree]
  | unlock loc =>
    cases o <;> cases hr
    exact ⟨_, rfl, h.entries, h.counter, updated loc none h.holder, h.poisoned⟩
  | readCounter loc =>
    obtain ⟨n, hn⟩ := he
    cases o <;> cases hr
    rw [(seen hn).1]
    exact ⟨s', rfl, h⟩
  | writeCounter loc v =>
    cases o <;> cases hr
    exact ⟨_, rfl, h.entries, updated loc v h.counter, h.holder, h.poisoned⟩
  | subU64 a b =>
    cases o <;> cases hr
    exact ⟨s', rfl, h⟩
  | fetchPage n first => exact he.elim
  | populate loc bytes => exact he.elim

/-- The calls of one module answer alike on two states that look the same to it. -/
theorem answers_agree {name : String} {s₁ s₂ u₁ : Served Loc T} {calls : List (Service inst T)}
    (hname : ∀ v ∈ calls, v.call.module.name = name) (hs : Agree inst name s₁.host s₂.host)
    (ha : s₁.answers = s₂.answers) (hr : run (serve keysToJson) s₁ calls = some u₁) :
    ∃ u₂, run (serve keysToJson) s₂ calls = some u₂ ∧ u₂.answers = u₁.answers ∧
      Agree inst name u₁.host u₂.host := by
  induction calls generalizing s₁ s₂ with
  | nil =>
    cases hr
    exact ⟨s₂, rfl, ha.symm, hs⟩
  | cons v calls ih =>
    obtain ⟨t₁, hv, hrest⟩ := Option.bind_eq_some_iff.mp hr
    obtain ⟨r, hreplay, hanswers⟩ := serve_inv hv
    have hv' := hname v (List.mem_cons_self ..)
    subst hv'
    obtain ⟨host, hreplay', hagree⟩ : ∃ host, (v.call.code keysToJson).replay
        (hostReply v.thread) s₂.host v.outcomes = some (r, host) ∧
        Agree inst v.call.module.name t₁.host host := by
      apply Prog.replay_related _ (v.call.code_confined keysToJson) hs hreplay
      intro s s' e o r t he h hreply
      exact confined_related he h hreply
    have hserve : serve keysToJson s₂ v = some ⟨host, r :: s₂.answers⟩ := by
      simp only [serve, hreplay', Option.map_some]
    have hsame : t₁.answers = (⟨host, r :: s₂.answers⟩ : Served Loc T).answers := by
      rw [hanswers, ha]
    obtain ⟨u₂, hrun, hu, hagree'⟩ :=
      ih (fun w hw => hname w (List.mem_cons_of_mem v hw)) hagree hsame hrest
    refine ⟨u₂, ?_, hu, hagree'⟩
    rw [run, hserve, Option.bind_some]
    exact hrun

/-- Namespaces are isolated: a namespace changes only through calls that may write to it, and
the answers to a module depend only on what it may see. -/
theorem namespaces_isolated (inst : Instance Loc) (keysToJson : List String → Option String) :
    (∀ (s s' : Served Loc T) (calls : List (Service inst T)) (ns : String),
      run (serve keysToJson) s calls = some s' →
      (s'.host.store ns ≠ s.host.store ns ∨
        ∃ loc, inst.Meters ns loc ∧ s'.host.counter loc ≠ s.host.counter loc) →
      ∃ v ∈ calls, v.call.MayWrite ns) ∧
    ∀ (name : String) (s₁ s₂ u₁ : Served Loc T) (calls : List (Service inst T)),
      (∀ v ∈ calls, v.call.module.name = name) → Agree inst name s₁.host s₂.host →
      s₁.answers = s₂.answers → run (serve keysToJson) s₁ calls = some u₁ →
      ∃ u₂, run (serve keysToJson) s₂ calls = some u₂ ∧ u₂.answers = u₁.answers ∧
        Agree inst name u₁.host u₂.host := by
  constructor
  · intro s s' calls ns hr hchanged
    by_contra hnone
    push Not at hnone
    obtain ⟨hstore, hcounter⟩ := changes_permitted hr hnone
    rcases hchanged with h | ⟨loc, hloc, h⟩
    · exact h hstore
    · exact h (hcounter loc hloc)
  · intro name s₁ s₂ u₁ calls hname hs ha hr
    exact answers_agree hname hs ha hr

section example_run

def writerModule : PlaidModule CounterName :=
  ⟨"a.wasm", 1, .module "a.wasm", .limited 10⟩

def readerModule : PlaidModule CounterName :=
  ⟨"b.wasm", 1, .module "b.wasm", .unlimited⟩

/-- Two rules and one shared database `board`. -/
def rulesSharing (board : SharedDbConfig) : Instance CounterName where
  modules := ⟨[⟨"a.wasm", writerModule⟩, ⟨"b.wasm", readerModule⟩], by simp⟩
  storage := some ⟨some (AList.singleton "board" ⟨board, .sharedDb "board"⟩)⟩
  counterOf := id
  counterOf_injective := Function.injective_id
  module_wasm name h := by
    have hn : name = "a.wasm" ∨ name = "b.wasm" := by simpa [AList.mem_keys, AList.keys] using h
    rcases hn with rfl | rfl <;> decide
  module_named name m h := by
    have hn : name = "a.wasm" ∨ name = "b.wasm" := by
      simpa [AList.mem_keys, AList.keys] using AList.lookup_isSome.mp (Option.isSome_of_mem h)
    rcases hn with rfl | rfl <;> cases h <;> exact ⟨rfl, rfl⟩
  db_not_wasm st dbs hst hdbs name h := by
    cases hst
    cases hdbs
    have hn : name = "board" := by simpa [AList.mem_keys] using h
    rw [hn]
    decide
  db_counter st dbs hst hdbs name db h := by
    cases hst
    cases hdbs
    have hn : name = "board" := by
      simpa [AList.mem_keys] using AList.lookup_isSome.mp (Option.isSome_of_mem h)
    subst hn
    cases h
    rfl

/-- One of the rules writes to the database, the other reads it. -/
abbrev twoRules : Instance CounterName := rulesSharing ⟨.limited 20, ["b.wasm"], ["a.wasm"]⟩

/-- The memory holds `board`, then the key `k` and the value byte. -/
def boardMemory : MemoryView := ⟨"boardk".toUTF8.toList ++ [7, 0]⟩

def writeBoard : Service twoRules Unit :=
  ⟨(), ⟨writerModule, rfl, some boardMemory, .insertShared 0 5 5 1 6 1 7 1⟩,
    List.replicate 7 .ok⟩

def readBoard : Service twoRules Unit :=
  ⟨(), ⟨readerModule, rfl, some boardMemory, .getShared 0 5 5 1 7 1⟩, [.ok]⟩

def hostWith (own : Content) : Served CounterName Unit :=
  ⟨⟨Function.update (fun _ => ∅) "a.wasm" own, fun _ => 0, fun _ => none, fun _ => false⟩, []⟩

/-- The writer changes `board`, and the reader does not notice what the writer keeps to
itself. -/
theorem namespaces_isolated_board :
    (∃ v ∈ [writeBoard], v.call.MayWrite "board") ∧
    ∃ u₁ u₂, run (serve fun _ => none) (hostWith ∅) [readBoard] = some u₁ ∧
      run (serve fun _ => none) (hostWith (AList.singleton "x" [1])) [readBoard] = some u₂ ∧
      u₂.answers = u₁.answers := by
  have hwrite : (run (serve fun _ => none) (hostWith ∅) [writeBoard]).map
      (fun u => (u.host.store "board").lookup "k") = some (some [7]) := by
    decide +kernel
  have hread : ((run (serve fun _ => none) (hostWith ∅) [readBoard]).map
      fun u => u.answers.map HostResult.i32) = some [0] := by
    decide +kernel
  obtain ⟨u, hu, hboard⟩ := Option.map_eq_some_iff.mp hwrite
  obtain ⟨u₁, hu₁, -⟩ := Option.map_eq_some_iff.mp hread
  obtain ⟨permitted, agreeing⟩ := namespaces_isolated (T := Unit) twoRules fun _ => none
  have hchanged : u.host.store "board" ≠ (hostWith ∅).host.store "board" := by
    intro h
    rw [h] at hboard
    cases hboard
  refine ⟨permitted _ u _ "board" hu (Or.inl hchanged), ?_⟩
  have hsees : ¬ twoRules.Sees "b.wasm" "a.wasm" := by
    rintro (h | ⟨db, h, -⟩)
    · exact absurd h (by decide)
    · cases h
  have hagree : Agree twoRules "b.wasm" (hostWith ∅).host (hostWith (AList.singleton "x" [1])).host :=
    { entries ns hns := by
        have hne : ns ≠ "a.wasm" := fun h => hsees (h ▸ hns)
        simp [hostWith, SameEntries, hne]
      counter _ _ _ _ := rfl
      holder _ _ _ _ := rfl
      poisoned _ _ _ _ := rfl }
  obtain ⟨u₂, hu₂, hanswers, -⟩ := agreeing "b.wasm" _ _ u₁ [readBoard]
    (by simp [readBoard, readerModule]) hagree rfl hu₁
  exact ⟨u₁, u₂, hu₁, hu₂, hanswers⟩

end example_run
end PlaidRuntime.StorageIsolation
