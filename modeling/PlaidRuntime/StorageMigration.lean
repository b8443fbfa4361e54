import PlaidRuntime.StorageProvider

/-!
# Migrating a namespace

`apply_migration` (`storage/mod.rs`) lists a namespace and then moves its entries one by one
to their new keys and values.
-/
namespace PlaidRuntime.StorageMigration
open EffectProgram KeyedContent GuestMemory StorageProvider

abbrev BackendProg := Prog BackendRequest BackendReply

def storageInsert (ns key : String) (value : Bytes) :
    BackendProg (Except StorageError (Option Bytes)) :=
  .perform (BackendRequest.insert ns key value)

def storageDelete (ns key : String) : BackendProg (Except StorageError (Option Bytes)) :=
  .perform (BackendRequest.delete ns key)

def storageFetchAll (ns : String) : BackendProg (Except StorageError Listing) :=
  .perform (BackendRequest.fetchAll ns none)

/-- The loop over the listed entries; an error ends it. -/
def migrateEntries (ns : String) (f : String → Bytes → String × Bytes) :
    Listing → BackendProg (Except StorageError Unit)
  | [] => return .ok ()
  | (_, none) :: data => migrateEntries ns f data
  | (key, some value) :: data => do
    let (newKey, newValue) := f key value
    match ← storageDelete ns key with
    | .error e => return .error e
    | .ok _ =>
      match ← storageInsert ns newKey newValue with
      | .error e => return .error e
      | .ok _ => migrateEntries ns f data

def applyMigration (ns : String) (f : String → Bytes → String × Bytes) :
    BackendProg (Except StorageError Unit) := do
  match ← storageFetchAll ns with
  | .error e => return .error e
  | .ok data => migrateEntries ns f data

/-- A backend that never fails and lists the namespace as `all`. -/
def Reliable (all : Listing) : Prog.Handler BackendRequest BackendReply Store :=
  fun store b r store' => backendReply store b
    (match b with
      | .fetchAll _ _ => .okEntries all
      | .listKeys _ _ => .okKeys (all.map Prod.fst)
      | _ => .ok) = some (r, store')

/-- The listed entries that have a value. -/
def listedEntries (all : Listing) : List (String × Bytes) :=
  all.filterMap fun e => e.2.map fun value => (e.1, value)

/-- The new keys of the entries are pairwise distinct. -/
def NewKeysDistinct (f : String → Bytes → String × Bytes) (c : Content) : Prop :=
  ∀ k v k' v', c.lookup k = some v → c.lookup k' = some v' → k ≠ k' → (f k v).1 ≠ (f k' v').1

/-- The content is exactly the image of the old one. -/
def IsImage (f : String → Bytes → String × Bytes) (old new : Content) : Prop :=
  ∀ x w, new.lookup x = some w ↔ ∃ k v, old.lookup k = some v ∧ f k v = (x, w)

section listing
variable {all : Listing} {c : Content}

theorem listedEntries_perm (h : all.Perm (allEntries c none)) :
    (listedEntries all).Perm (c.entries.map fun e => (e.1, e.2)) := by
  have hp := h.filterMap fun e => e.2.map fun value => (e.1, value)
  have he : (allEntries c none).filterMap (fun e => e.2.map fun value => (e.1, value)) =
      c.entries.map fun e => (e.1, e.2) := by
    simp [allEntries_none, List.filterMap_map, List.filterMap_eq_map']
  rwa [he] at hp

theorem mem_listedEntries (h : all.Perm (allEntries c none)) (x : String) (v : Bytes) :
    c.lookup x = some v ↔ (x, v) ∈ listedEntries all := by
  rw [(listedEntries_perm h).mem_iff, ← Option.mem_def, AList.mem_lookup_iff]
  simp

theorem listedEntries_keys_nodup (h : all.Perm (allEntries c none)) :
    ((listedEntries all).map Prod.fst).Nodup := by
  have hp := (listedEntries_perm h).map Prod.fst
  have hk : (c.entries.map fun e => (e.1, e.2)).map Prod.fst = c.keys := by
    simp [AList.keys, List.keys]
  rw [hp.nodup_iff, hk]
  exact c.keys_nodup

theorem newKeys_pairwise (h : all.Perm (allEntries c none)) {f : String → Bytes → String × Bytes}
    (hf : NewKeysDistinct f c) :
    (listedEntries all).Pairwise fun a b => (f a.1 a.2).1 ≠ (f b.1 b.2).1 := by
  have hk := List.pairwise_map.mp (listedEntries_keys_nodup h)
  apply hk.imp_of_mem
  intro a b ha hb hne
  exact hf _ _ _ _ ((mem_listedEntries h _ _).mpr ha) ((mem_listedEntries h _ _).mpr hb) hne

end listing

section exec
variable {all data : Listing} {ns key : String} {value : Bytes} {α : Type}
  {f : String → Bytes → String × Bytes} {store store' : Store} {a : α}

theorem exec_delete {next : Except StorageError (Option Bytes) → BackendProg α} :
    Prog.Exec (Reliable all) (storageDelete ns key >>= next) store a store' ↔
      Prog.Exec (Reliable all) (next (.ok ((store ns).lookup key)))
        (Function.update store ns ((store ns).erase key)) a store' := by
  rw [storageDelete, Prog.perform_bind, Prog.exec_request_iff]
  simp [Reliable, backendReply]

theorem exec_insert {next : Except StorageError (Option Bytes) → BackendProg α} :
    Prog.Exec (Reliable all) (storageInsert ns key value >>= next) store a store' ↔
      Prog.Exec (Reliable all) (next (.ok ((store ns).lookup key)))
        (Function.update store ns ((store ns).insert key value)) a store' := by
  rw [storageInsert, Prog.perform_bind, Prog.exec_request_iff]
  simp [Reliable, backendReply]

theorem exec_fetchAll {next : Except StorageError Listing → BackendProg α}
    (h : all.Perm (allEntries (store ns) none)) :
    Prog.Exec (Reliable all) (storageFetchAll ns >>= next) store a store' ↔
      Prog.Exec (Reliable all) (next (.ok all)) store a store' := by
  rw [storageFetchAll, Prog.perform_bind, Prog.exec_request_iff]
  simp [Reliable, backendReply, List.isPerm_iff.mpr h]

/-- Without failures the loop replaces the listed entries in the order of the listing. -/
theorem migrateEntries_exec {r : Except StorageError Unit} :
    Prog.Exec (Reliable all) (migrateEntries ns f data) store r store' ↔
      r = .ok () ∧ store' = Function.update store ns (replaceAll f (store ns) (listedEntries data)) := by
  induction data generalizing store with
  | nil =>
    rw [migrateEntries, Prog.pure_eq_done, Prog.exec_done_iff]
    simp [listedEntries, replaceAll]
  | cons e data ih =>
    rcases e with ⟨key, _ | value⟩
    · rw [migrateEntries, ih]
      simp [listedEntries]
    · rw [migrateEntries, exec_delete, exec_insert, ih]
      simp [listedEntries, replaceAll, replace]

end exec

/-- The migration of a namespace under a backend that does not fail, for every order in
which it lists the entries: it always completes, it touches no other namespace, and it
leaves the image of the old content exactly when no entry moves onto the old key of an
entry listed after it. -/
theorem applyMigration_image_iff {store : Store} {ns : String} {all : Listing}
    {f : String → Bytes → String × Bytes} (hall : all.Perm (allEntries (store ns) none))
    (hf : NewKeysDistinct f (store ns)) :
    ∃ new : Content,
      (∀ r store', Prog.Exec (Reliable all) (applyMigration ns f) store r store' ↔
        r = .ok () ∧ store' = Function.update store ns new) ∧
      (IsImage f (store ns) new ↔ NoClash f (listedEntries all)) := by
  refine ⟨replaceAll f (store ns) (listedEntries all), fun r store' => ?_, ?_⟩
  · rw [applyMigration, exec_fetchAll hall]
    exact migrateEntries_exec
  · have hiff := replaceAll_eq_image_iff (mem_listedEntries hall) (listedEntries_keys_nodup hall)
      (newKeys_pairwise hall hf)
    rw [← hiff]
    simp only [IsImage, mem_listedEntries hall, Prod.exists]

/-- Two entries, the first of which is renamed to the key of the second. -/
def chainContent : Content := (AList.singleton "b" [2]).insert "a" [1]

def chainRename (key : String) (value : Bytes) : String × Bytes :=
  (if key = "a" then "b" else if key = "b" then "c" else key, value)

theorem chainRename_distinct : NewKeysDistinct chainRename chainContent := by
  have hkeys : ∀ k v, chainContent.lookup k = some v → k = "a" ∨ k = "b" := by
    intro k v h
    have hm : k ∈ chainContent := AList.lookup_isSome.mp (by rw [h]; rfl)
    simpa [chainContent, AList.mem_keys] using hm
  intro k v k' v' h h' hne
  rcases hkeys k v h with rfl | rfl <;> rcases hkeys k' v' h' with rfl | rfl <;>
    simp_all [chainRename]

theorem chain_rename_loses_entry :
    NewKeysDistinct chainRename chainContent ∧
    ∃ after, Prog.Exec (Reliable [("a", some [1]), ("b", some [2])]) (applyMigration "ns" chainRename)
      (fun _ => chainContent) (.ok ()) after ∧
      ¬ IsImage chainRename chainContent (after "ns") := by
  refine ⟨chainRename_distinct, Function.update (fun _ => chainContent) "ns"
    (replaceAll chainRename chainContent [("a", [1]), ("b", [2])]), ?_, ?_⟩
  · rw [applyMigration, exec_fetchAll (by decide)]
    exact migrateEntries_exec.mpr ⟨rfl, rfl⟩
  · intro himage
    have hb := (himage "b" [1]).mpr ⟨"a", [1], by decide, by decide⟩
    revert hb
    decide

/-- Listed the other way round the same renaming is carried out in full. -/
theorem chain_rename_reversed :
    NewKeysDistinct chainRename chainContent ∧
    ∃ after, Prog.Exec (Reliable [("b", some [2]), ("a", some [1])]) (applyMigration "ns" chainRename)
      (fun _ => chainContent) (.ok ()) after ∧ IsImage chainRename chainContent (after "ns") := by
  obtain ⟨new, hexec, hiff⟩ := @applyMigration_image_iff (fun _ => chainContent) "ns"
    [("b", some [2]), ("a", some [1])] chainRename (by decide) chainRename_distinct
  refine ⟨chainRename_distinct, _, (hexec _ _).mpr ⟨rfl, rfl⟩, ?_⟩
  rw [Function.update_self]
  exact hiff.mpr (by decide)

/-- No entry moves onto the old key of another one. -/
def AvoidsOldKeys (f : String → Bytes → String × Bytes) (c : Content) : Prop :=
  ∀ k v, c.lookup k = some v → ∀ k' ∈ c, k' ≠ k → (f k v).1 ≠ k'

/-- Every old entry is still there, moved or not. -/
def KeepsEntries (f : String → Bytes → String × Bytes) (old new : Content) : Prop :=
  ∀ k v, old.lookup k = some v → new.lookup k = some v ∨ new.lookup (f k v).1 = some (f k v).2

/-- The calls of a migration are the listing, then a delete and an insert for each entry. The
last of `os` was one of the inserts. -/
def EndsAtInsert (os : List Outcome) : Prop := 1 < os.length ∧ os.length % 2 = 1

instance (os : List Outcome) : Decidable (EndsAtInsert os) := inferInstanceAs (Decidable (_ ∧ _))

section failure
variable {c : Content} {all data : Listing} {ns key : String} {value : Bytes} {α : Type}
  {f : String → Bytes → String × Bytes} {store store' : Store} {os : List Outcome} {a : α}
  {e : StorageError}

theorem noClash_of_avoids (h : all.Perm (allEntries c none)) (hf : AvoidsOldKeys f c) :
    NoClash f (listedEntries all) := by
  have hk := List.pairwise_map.mp (listedEntries_keys_nodup h)
  apply hk.imp_of_mem
  intro a b ha hb hne
  have hmem : b.1 ∈ c := AList.lookup_isSome.mp (by rw [(mem_listedEntries h _ _).mpr hb]; rfl)
  exact hf _ _ ((mem_listedEntries h _ _).mpr ha) _ hmem (Ne.symm hne)

/-- A delete either fails and changes nothing or takes its entry out. -/
theorem replay_delete {next : Except StorageError (Option Bytes) → BackendProg α}
    (h : (storageDelete ns key >>= next).replay backendReply store os = some (a, store')) :
    ∃ o rest, os = o :: rest ∧
      ((∃ e, (next (.error e)).replay backendReply store rest = some (a, store')) ∨
        (next (.ok ((store ns).lookup key))).replay backendReply
          (Function.update store ns ((store ns).erase key)) rest = some (a, store')) := by
  rw [storageDelete, Prog.perform_bind] at h
  obtain ⟨o, rest, r, t, rfl, hr, hrest⟩ := Prog.replay_request h
  refine ⟨o, rest, rfl, ?_⟩
  cases o with
  | ok =>
    cases hr
    exact Or.inr hrest
  | fails e =>
    cases hr
    exact Or.inl ⟨e, hrest⟩
  | _ => cases hr

theorem replay_insert {next : Except StorageError (Option Bytes) → BackendProg α}
    (h : (storageInsert ns key value >>= next).replay backendReply store os = some (a, store')) :
    ∃ o rest, os = o :: rest ∧
      ((∃ e, (next (.error e)).replay backendReply store rest = some (a, store')) ∨
        (next (.ok ((store ns).lookup key))).replay backendReply
          (Function.update store ns ((store ns).insert key value)) rest = some (a, store')) := by
  rw [storageInsert, Prog.perform_bind] at h
  obtain ⟨o, rest, r, t, rfl, hr, hrest⟩ := Prog.replay_request h
  refine ⟨o, rest, rfl, ?_⟩
  cases o with
  | ok =>
    cases hr
    exact Or.inr hrest
  | fails e =>
    cases hr
    exact Or.inl ⟨e, hrest⟩
  | _ => cases hr

/-- A loop that ends early has replaced the entries before the one it stopped at, and has
taken that one out exactly when the failed call was its insert. -/
theorem migrateEntries_failed
    (h : (migrateEntries ns f data).replay backendReply store os = some (.error e, store')) :
    ∃ before x after, listedEntries data = before ++ x :: after ∧
      ((os.length = 2 * before.length + 1 ∧
          store' = Function.update store ns (replaceAll f (store ns) before)) ∨
        (os.length = 2 * before.length + 2 ∧
          store' = Function.update store ns ((replaceAll f (store ns) before).erase x.1))) := by
  induction data generalizing store os with
  | nil =>
    obtain ⟨-, hr, -⟩ := Prog.replay_done h
    cases hr
  | cons entry data ih =>
    rcases entry with ⟨key, _ | value⟩
    · obtain ⟨before, x, after, hl, hcase⟩ := ih h
      exact ⟨before, x, after, by simpa [listedEntries] using hl, hcase⟩
    · rw [migrateEntries] at h
      have hlisted : listedEntries ((key, some value) :: data) = (key, value) :: listedEntries data := by
        simp [listedEntries]
      obtain ⟨o, rest, rfl, ⟨e', hdone⟩ | h⟩ := replay_delete h
      · obtain ⟨rfl, -, rfl⟩ := Prog.replay_done hdone
        exact ⟨[], (key, value), _, hlisted, Or.inl ⟨rfl, by simp [replaceAll]⟩⟩
      · obtain ⟨o', rest, rfl, ⟨e', hdone⟩ | h⟩ := replay_insert h
        · obtain ⟨rfl, -, rfl⟩ := Prog.replay_done hdone
          exact ⟨[], (key, value), _, hlisted, Or.inr ⟨rfl, by simp [replaceAll]⟩⟩
        · obtain ⟨before, x, after, hl, hcase⟩ := ih h
          refine ⟨(key, value) :: before, x, after, by rw [hlisted, hl]; rfl, ?_⟩
          simpa [replaceAll, replace, Nat.mul_add, add_right_comm] using hcase

/-- What is left of the entries where the loop stopped. -/
theorem keepsEntries_of_between {c' : Content} {before after : List (String × Bytes)}
    {x : String × Bytes} (h : Between f c' before (x :: after))
    (hl : ∀ k v, c.lookup k = some v ↔ (k, v) ∈ before ++ x :: after) : KeepsEntries f c c' := by
  intro k v hkv
  rcases List.mem_append.mp ((hl k v).mp hkv) with hb | hb
  · exact Or.inr ((h _ _).mpr (Or.inl ⟨_, hb, rfl⟩))
  · exact Or.inl ((h k v).mpr (Or.inr hb))

/-- The entry that was taken out is nowhere. -/
theorem not_keepsEntries_of_erased {c' : Content} {before after : List (String × Bytes)}
    {x : String × Bytes} (h : Between f c' before (x :: after))
    (hl : ∀ k v, c.lookup k = some v ↔ (k, v) ∈ before ++ x :: after)
    (hf : NewKeysDistinct f c) (hold : AvoidsOldKeys f c)
    (hkeys : ((before ++ x :: after).map Prod.fst).Nodup) :
    ¬ KeepsEntries f c (c'.erase x.1) := by
  intro hkeep
  have hx : c.lookup x.1 = some x.2 := (hl _ _).mpr (by simp)
  rcases hkeep _ _ hx with hsame | hmoved
  · rw [AList.lookup_erase] at hsame
    cases hsame
  · by_cases hk : (f x.1 x.2).1 = x.1
    · rw [hk, AList.lookup_erase] at hmoved
      cases hmoved
    · rw [AList.lookup_erase_ne hk] at hmoved
      rcases (h _ _).mp hmoved with ⟨b, hb, hfb⟩ | hleft
      · -- an image found there would be that of an earlier entry
        have hbc : c.lookup b.1 = some b.2 := (hl _ _).mpr (List.mem_append_left _ hb)
        have hne : b.1 ≠ x.1 := by
          intro heq
          rw [List.map_append, List.nodup_append] at hkeys
          exact hkeys.2.2 b.1 (List.mem_map_of_mem hb) x.1 (by simp) heq
        exact hf _ _ _ _ hbc hx hne (congrArg Prod.fst hfb)
      · have hmem : (f x.1 x.2).1 ∈ c :=
          AList.lookup_isSome.mp (by rw [(hl _ _).mpr (List.mem_append_right _ hleft)]; rfl)
        exact hold _ _ hx _ hmem hk rfl

/-- A migration that fails keeps every entry, under its old or its new key, unless the call
that failed is an insert. -/
theorem failed_migration_keeps_entries_iff (hf : NewKeysDistinct f (store ns))
    (hold : AvoidsOldKeys f (store ns))
    (h : (applyMigration ns f).replay backendReply store os = some (.error e, store')) :
    KeepsEntries f (store ns) (store' ns) ↔ ¬ EndsAtInsert os := by
  rw [applyMigration, storageFetchAll, Prog.perform_bind] at h
  obtain ⟨o, rest, r, t, rfl, hr, hrest⟩ := Prog.replay_request h
  obtain ⟨rfl, ⟨all, rfl, hall⟩ | ⟨e', rfl⟩⟩ := fetchAll_reply hr
  · obtain ⟨before, x, after, hl, hcase⟩ := migrateEntries_failed hrest
    have hlist : ∀ k v, (t ns).lookup k = some v ↔ (k, v) ∈ before ++ x :: after := by
      rw [← hl]
      exact mem_listedEntries hall
    have hkeys := listedEntries_keys_nodup hall
    have hnew := newKeys_pairwise hall hf
    have hclash := noClash_of_avoids hall hold
    rw [hl] at hkeys hnew hclash
    have hstart : Between f (t ns) [] (before ++ x :: after) := by simpa [Between] using hlist
    have hb := hstart.replaceAll hkeys (List.pairwise_append.mp hnew).1 hclash
    rcases hcase with ⟨hlen, rfl⟩ | ⟨hlen, rfl⟩
    · rw [Function.update_self]
      exact iff_of_true (keepsEntries_of_between hb hlist)
        (by simp only [EndsAtInsert, List.length_cons]; omega)
    · rw [Function.update_self]
      exact iff_of_false (not_keepsEntries_of_erased hb hlist hf hold hkeys)
        (by simp only [EndsAtInsert, List.length_cons]; omega)
  · obtain ⟨rfl, -, rfl⟩ := Prog.replay_done hrest
    exact iff_of_true (fun k v hkv => Or.inl hkv) (by simp [EndsAtInsert])

end failure

/-- A renaming that moves every entry away from the old keys. -/
def suffixRename (key : String) (value : Bytes) : String × Bytes := (key ++ "/v2", value)

theorem suffixRename_fits :
    NewKeysDistinct suffixRename chainContent ∧ AvoidsOldKeys suffixRename chainContent := by
  have hkeys : ∀ k ∈ chainContent, k = "a" ∨ k = "b" := by
    intro k hm
    simpa [chainContent, AList.mem_keys] using hm
  have hkeys' : ∀ k v, chainContent.lookup k = some v → k = "a" ∨ k = "b" :=
    fun k v h => hkeys k (AList.lookup_isSome.mp (by rw [h]; rfl))
  constructor
  · intro k v k' v' h h' hne
    rcases hkeys' k v h with rfl | rfl <;> rcases hkeys' k' v' h' with rfl | rfl <;>
      simp_all [suffixRename]
  · intro k v h k' hm hne
    rcases hkeys' k v h with rfl | rfl <;> rcases hkeys k' hm with rfl | rfl <;>
      simp_all [suffixRename]

/-- The insert of the first entry fails: the entry is gone. -/
theorem failed_insert_loses_entry :
    NewKeysDistinct suffixRename chainContent ∧ AvoidsOldKeys suffixRename chainContent ∧
    ∃ after, (applyMigration "ns" suffixRename).replay backendReply (fun _ => chainContent)
      [.okEntries [("a", some [1]), ("b", some [2])], .ok, .fails (.access "throttled")] =
        some (.error (.access "throttled"), after) ∧
      ¬ KeepsEntries suffixRename chainContent (after "ns") := by
  refine ⟨suffixRename_fits.1, suffixRename_fits.2, _, rfl, ?_⟩
  intro hkeep
  have ha := hkeep "a" [1] (by decide)
  revert ha
  decide

/-- The delete of the second entry fails: the first one has moved, the second one stays. -/
theorem failed_delete_keeps_entries :
    ∃ after, (applyMigration "ns" suffixRename).replay backendReply (fun _ => chainContent)
      [.okEntries [("a", some [1]), ("b", some [2])], .ok, .ok, .fails (.access "throttled")] =
        some (.error (.access "throttled"), after) ∧
      KeepsEntries suffixRename chainContent (after "ns") := by
  obtain ⟨after, hrun⟩ : ∃ after, (applyMigration "ns" suffixRename).replay backendReply
      (fun _ => chainContent)
      [.okEntries [("a", some [1]), ("b", some [2])], .ok, .ok, .fails (.access "throttled")] =
        some (.error (.access "throttled"), after) := ⟨_, rfl⟩
  have hiff := @failed_migration_keeps_entries_iff "ns" suffixRename (fun _ => chainContent) after
    _ _ suffixRename_fits.1 suffixRename_fits.2 hrun
  exact ⟨after, hrun, hiff.mpr (by decide)⟩

end PlaidRuntime.StorageMigration
