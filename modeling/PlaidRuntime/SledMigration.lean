import PlaidRuntime.EffectProgram
import PlaidRuntime.KeyedContent
import PlaidRuntime.SledStore

/-!
# Copying a sled database to DynamoDB

The tool `sled_ddb_migrator` writes every entry of every tree into one table, under the name of
the tree as namespace.
-/
namespace PlaidRuntime.SledMigration
open EffectProgram Prog GuestMemory KeyedContent SledStore

/-- Rows are identified by namespace and key. -/
abbrev Row := String × String

abbrev Table := AList fun _ : Row => Bytes

inductive Request
  | treeNames
  | openTree (name : Bytes)
  | iter (name : Bytes)
  | putItem (row : Row) (value : Bytes)

abbrev Reply : Request → Type
  | .treeNames => List Bytes
  | .openTree _ => Except String Unit
  | .iter _ => List (Except String (Bytes × Bytes))
  | .putItem _ _ => Except String Unit

abbrev Code (α : Type) := Prog Request Reply α

def treeNames : Code (List Bytes) := perform Request.treeNames
def openTree (name : Bytes) : Code (Except String Unit) := perform (Request.openTree name)
def iter (name : Bytes) : Code (List (Except String (Bytes × Bytes))) := perform (Request.iter name)

def putItem (row : Row) (value : Bytes) : Code (Except String Unit) :=
  perform (Request.putItem row value)

/-- How the tool stops early. -/
inductive Stop
  | error (e : String)
  | panic (message : String)
  deriving DecidableEq, Repr

def migrateItems (ns : String) : List (Except String (Bytes × Bytes)) → Code (Except Stop Unit)
  | [] => return .ok ()
  | .error _ :: _ => return .error (.panic "Failed to get key/value from tree")
  | .ok (key, value) :: items =>
    match fromUtf8 key with
    | none => return .error (.panic "Failed to parse key")
    | some keyStr => do
      match ← putItem (ns, keyStr) value with
      | .error e => return .error (.error e)
      | .ok () => migrateItems ns items

def migrateTree (ns : String) (name : Bytes) : Code (Except Stop Unit) := do
  let items ← iter name
  migrateItems ns items

/-- The loop over the names of all trees. -/
def migrateNamed : List Bytes → Code (Except Stop Unit)
  | [] => return .ok ()
  | treeName :: names =>
    if treeName = [] then migrateNamed names
    else match fromUtf8 treeName with
    | none => return .error (.panic "Failed to parse tree name")
    | some nameStr =>
      if nameStr = "__sled__default" then migrateNamed names
      else do
        match ← openTree treeName with
        | .error _ => return .error (.panic ("Failed to open tree " ++ nameStr))
        | .ok () =>
          match ← migrateTree nameStr treeName with
          | .error stop => return .error stop
          | .ok () => migrateNamed names

def migrate : Code (Except Stop Unit) := do
  match ← migrateTree "default" defaultTreeName with
  | .error stop => return .error stop
  | .ok () =>
    let names ← treeNames
    migrateNamed names

structure World where
  db : Db
  table : Table

/-- Every read and write succeeds; names and entries are listed in any order. -/
def handle : Handler Request Reply World
  | w, .treeNames, names, w' => names.Perm w.db.trees.keys ∧ w' = w
  | w, .openTree name, r, w' => r = .ok () ∧ w' = { w with db := w.db.openTree name }
  | w, .iter name, items, w' =>
    (∃ es : List (Σ _ : Bytes, Bytes), es.Perm (w.db.tree name).entries ∧
      items = es.map fun e => .ok (e.1, e.2)) ∧ w' = w
  | w, .putItem row value, r, w' => r = .ok () ∧ w' = { w with table := w.table.insert row value }

/-- Names and keys are UTF-8. -/
structure Utf8 (db : Db) : Prop where
  names : ∀ name ∈ db.trees, ∃ s, fromUtf8 name = some s
  keys : ∀ name, ∀ key ∈ db.tree name, ∃ s, fromUtf8 key = some s

/-- Every pair of a tree and a key has a row of its own with its value, under the name of the
tree if it has one, and there are no other rows. -/
structure Preserves (db : Db) (table : Table) (row : Bytes × Bytes → Row) : Prop where
  own : ∀ name key name' key', key ∈ db.tree name → key' ∈ db.tree name' →
    row (name, key) = row (name', key') → name = name' ∧ key = key'
  stored : ∀ name key value, (db.tree name).lookup key = some value →
    table.lookup (row (name, key)) = some value
  named : ∀ name key s, key ∈ db.tree name → name ≠ defaultTreeName → fromUtf8 name = some s →
    (row (name, key)).1 = s
  keyed : ∀ name key s, key ∈ db.tree name → fromUtf8 key = some s → (row (name, key)).2 = s
  only : ∀ r value, table.lookup r = some value →
    ∃ name key, (db.tree name).lookup key = some value ∧ row (name, key) = r

/-- No key is both in the default tree and in a tree named "default", and a tree without a name
holds nothing. -/
structure NoCollision (db : Db) : Prop where
  default : ∀ key ∈ db.tree defaultTreeName, key ∉ db.tree (asBytes "default")
  nameless : ∀ key, key ∉ db.tree []

/-- The namespace of a tree. -/
def namespaceOf (name : Bytes) : String :=
  if name = defaultTreeName then "default" else (fromUtf8 name).getD ""

def rowOf (name key : Bytes) : Row := (namespaceOf name, (fromUtf8 key).getD "")

def rowsOf (name : Bytes) (es : List (Σ _ : Bytes, Bytes)) : List (Row × Bytes) :=
  es.map fun e => (rowOf name e.1, e.2)

section run
variable {w w' : World} {r : Except Stop Unit}

theorem mem_tree_of_perm {t : Tree} {es : List (Σ _ : Bytes, Bytes)} (h : es.Perm t.entries)
    {e : Σ _ : Bytes, Bytes} (he : e ∈ es) : t.lookup e.1 = some e.2 :=
  AList.mem_lookup_iff.mpr (h.mem_iff.mp he)

theorem migrateItems_exec {name : Bytes} {es : List (Σ _ : Bytes, Bytes)}
    (hkeys : ∀ e ∈ es, ∃ s, fromUtf8 e.1 = some s) :
    Exec handle (migrateItems (namespaceOf name) (es.map fun e => .ok (e.1, e.2))) w r w' ↔
      r = .ok () ∧ w' = { w with table := putAll w.table (rowsOf name es) } := by
  induction es generalizing w with
  | nil =>
    rw [List.map_nil, migrateItems, pure_eq_done, exec_done_iff]
    rfl
  | cons e es ih =>
    obtain ⟨s, hs⟩ := hkeys e List.mem_cons_self
    have hrow : rowOf name e.1 = (namespaceOf name, s) := by simp [rowOf, hs]
    rw [List.map_cons, migrateItems, hs]
    simp only
    rw [putItem, perform_bind, exec_request_iff]
    have hrest := @ih { w with table := w.table.insert (rowOf name e.1) e.2 }
      (fun e' he' => hkeys e' (List.mem_cons_of_mem e he'))
    rw [hrow] at hrest
    constructor
    · rintro ⟨reply, t, ⟨rfl, rfl⟩, hx⟩
      simpa [rowsOf, putAll, hrow] using hrest.mp hx
    · intro h
      refine ⟨.ok (), _, ⟨rfl, rfl⟩, hrest.mpr ?_⟩
      simpa [rowsOf, putAll, hrow] using h

/-- One tree is copied under its namespace, in the order in which it is listed. -/
theorem migrateTree_exec {name : Bytes} (hkeys : ∀ key ∈ w.db.tree name, ∃ s, fromUtf8 key = some s) :
    Exec handle (migrateTree (namespaceOf name) name) w r w' ↔
      r = .ok () ∧ ∃ es, es.Perm (w.db.tree name).entries ∧
        w' = { w with table := putAll w.table (rowsOf name es) } := by
  have hes : ∀ es : List (Σ _ : Bytes, Bytes), es.Perm (w.db.tree name).entries →
      ∀ e ∈ es, ∃ s, fromUtf8 e.1 = some s := by
    intro es hp e he
    exact hkeys e.1 (AList.lookup_isSome.mp (by rw [mem_tree_of_perm hp he]; rfl))
  rw [migrateTree, iter, perform_bind, exec_request_iff]
  constructor
  · rintro ⟨items, t, ⟨⟨es, hp, rfl⟩, rfl⟩, hx⟩
    obtain ⟨hr, hw⟩ := (migrateItems_exec (hes es hp)).mp hx
    exact ⟨hr, es, hp, hw⟩
  · rintro ⟨hr, es, hp, hw⟩
    exact ⟨_, w, ⟨⟨es, hp, rfl⟩, rfl⟩, (migrateItems_exec (hes es hp)).mpr ⟨hr, hw⟩⟩

/-- What is written for the trees in `names`, in whatever order. -/
def Writes (db : Db) (names : List Bytes) (l : List (Row × Bytes)) : Prop :=
  ∀ row value, (row, value) ∈ l ↔
    ∃ name ∈ names, ∃ key, (db.tree name).lookup key = some value ∧ rowOf name key = row

theorem writes_tree {db : Db} {name : Bytes} {es : List (Σ _ : Bytes, Bytes)}
    (hp : es.Perm (db.tree name).entries) : Writes db [name] (rowsOf name es) := by
  intro row value
  constructor
  · intro h
    obtain ⟨e, he, heq⟩ := List.mem_map.mp h
    cases heq
    exact ⟨name, List.mem_singleton_self name, e.1, mem_tree_of_perm hp he, rfl⟩
  · rintro ⟨name', hn, key, hl, rfl⟩
    obtain rfl := List.mem_singleton.mp hn
    exact List.mem_map.mpr ⟨⟨key, value⟩, hp.mem_iff.mpr (AList.mem_lookup_iff.mp hl), rfl⟩

theorem Writes.append {db : Db} {names names' : List Bytes} {l l' : List (Row × Bytes)}
    (h : Writes db names l) (h' : Writes db names' l') : Writes db (names ++ names') (l ++ l') := by
  intro row value
  rw [List.mem_append, h row value, h' row value]
  constructor
  · rintro (⟨name, hn, hrest⟩ | ⟨name, hn, hrest⟩)
    · exact ⟨name, List.mem_append_left _ hn, hrest⟩
    · exact ⟨name, List.mem_append_right _ hn, hrest⟩
  · rintro ⟨name, hn, hrest⟩
    rcases List.mem_append.mp hn with hn | hn
    · exact Or.inl ⟨name, hn, hrest⟩
    · exact Or.inr ⟨name, hn, hrest⟩

/-- The trees that the loop copies. -/
def copied (names : List Bytes) : List Bytes :=
  names.filter fun name => name ≠ [] ∧ name ≠ defaultTreeName

/-- The same trees with the same entries. -/
def SameTrees (db db' : Db) : Prop := ∀ name, db'.tree name = db.tree name

/-- The loop ends and has copied every named tree except a nameless one. -/
theorem migrateNamed_exec {db : Db} {names : List Bytes} (hdb : SameTrees db w.db)
    (hnames : ∀ name ∈ names, ∃ s, fromUtf8 name = some s)
    (hkeys : ∀ name, ∀ key ∈ db.tree name, ∃ s, fromUtf8 key = some s) :
    (∃ w', Exec handle (migrateNamed names) w (.ok ()) w') ∧
    ∀ r w', Exec handle (migrateNamed names) w r w' →
      r = .ok () ∧ ∃ l, Writes db (copied names) l ∧ w'.table = putAll w.table l := by
  induction names generalizing w with
  | nil =>
    refine ⟨⟨w, .done _ _⟩, fun r w' hx => ?_⟩
    obtain ⟨rfl, rfl⟩ := exec_done_iff.mp hx
    exact ⟨rfl, [], by simp [Writes, copied], rfl⟩
  | cons treeName names ih =>
    have hnames' := fun name hn => hnames name (List.mem_cons_of_mem treeName hn)
    obtain ⟨nameStr, hstr⟩ := hnames treeName List.mem_cons_self
    rw [migrateNamed, hstr]
    by_cases hempty : treeName = []
    · have hcopied : copied (treeName :: names) = copied names := by simp [copied, hempty]
      rw [if_pos hempty, hcopied]
      exact ih hdb hnames'
    rw [if_neg hempty]
    simp only
    have hbytes := asBytes_of_fromUtf8 hstr
    by_cases hdefault : nameStr = "__sled__default"
    · have hcopied : copied (treeName :: names) = copied names := by
        simp [copied, ← hbytes, hdefault, defaultTreeName]
      rw [if_pos hdefault, hcopied]
      exact ih hdb hnames'
    · have hname : treeName ≠ defaultTreeName := by
        intro h
        rw [h, defaultTreeName, fromUtf8_asBytes] at hstr
        exact hdefault (Option.some.inj hstr).symm
      have hns : nameStr = namespaceOf treeName := by simp [namespaceOf, hname, hstr]
      have hcopied : copied (treeName :: names) = [treeName] ++ copied names := by
        simp [copied, hempty, hname]
      have hopen : SameTrees db (w.db.openTree treeName) := by
        intro name
        rw [Db.tree_openTree, hdb name]
      have htree : ∀ key ∈ (w.db.openTree treeName).tree treeName, ∃ s, fromUtf8 key = some s := by
        rw [hopen treeName]
        exact hkeys treeName
      rw [if_neg hdefault, hcopied]
      constructor
      · obtain ⟨w', hx⟩ := (@ih { w with
          db := w.db.openTree treeName
          table := putAll w.table (rowsOf treeName ((w.db.openTree treeName).tree treeName).entries) }
          hopen hnames').1
        refine ⟨w', .request ⟨rfl, rfl⟩ ?_⟩
        rw [hns]
        have hcopy := (@migrateTree_exec { w with db := w.db.openTree treeName } _ _ treeName
          htree).mpr ⟨rfl, _, List.Perm.refl _, rfl⟩
        exact hcopy.bind hx
      · intro r w' hx
        rw [openTree, perform_bind, exec_request_iff] at hx
        obtain ⟨reply, t, ⟨rfl, rfl⟩, hx⟩ := hx
        obtain ⟨r', t, htree', hrest⟩ := hx.bind_inv
        rw [hns] at htree'
        obtain ⟨rfl, es, hp, rfl⟩ := (@migrateTree_exec { w with db := w.db.openTree treeName } _ _
          treeName htree).mp htree'
        obtain ⟨hr, l, hl, htable⟩ := (ih hopen hnames').2 r w' hrest
        simp only [hopen treeName] at hp
        exact ⟨hr, _, (writes_tree hp).append hl, by rw [htable, putAll_append]⟩

/-- The migration always ends, and it has written the entries of the default tree and of all
trees it does not skip. -/
theorem migrate_exec (hutf : Utf8 w.db) :
    (∃ w', Exec handle migrate w (.ok ()) w') ∧
    ∀ r w', Exec handle migrate w r w' →
      r = .ok () ∧ ∃ names : List Bytes, names.Perm w.db.trees.keys ∧
        ∃ l, Writes w.db (defaultTreeName :: copied names) l ∧ w'.table = putAll w.table l := by
  have hns : namespaceOf defaultTreeName = "default" := by simp [namespaceOf]
  have hnames : ∀ names : List Bytes, names.Perm w.db.trees.keys →
      ∀ name ∈ names, ∃ s, fromUtf8 name = some s :=
    fun names hp name hn => hutf.names name (AList.mem_keys.mpr (hp.mem_iff.mp hn))
  have hsame : SameTrees w.db w.db := fun _ => rfl
  rw [migrate, ← hns]
  constructor
  · obtain ⟨w', hx⟩ := (@migrateNamed_exec { w with
      table := putAll w.table (rowsOf defaultTreeName (w.db.tree defaultTreeName).entries) }
      w.db w.db.trees.keys hsame (hnames _ (List.Perm.refl _)) hutf.keys).1
    have hcopy := (@migrateTree_exec w _ _ defaultTreeName (hutf.keys _)).mpr
      ⟨rfl, _, List.Perm.refl _, rfl⟩
    exact ⟨w', hcopy.bind (.request ⟨List.Perm.refl _, rfl⟩ hx)⟩
  · intro r w' hx
    obtain ⟨r', t, hcopy, hx⟩ := hx.bind_inv
    obtain ⟨rfl, es, hp, rfl⟩ := (migrateTree_exec (hutf.keys _)).mp hcopy
    simp only at hx
    rw [treeNames, perform_bind, exec_request_iff] at hx
    obtain ⟨names, t, ⟨hperm, rfl⟩, hx⟩ := hx
    obtain ⟨hr, l, hl, htable⟩ := (@migrateNamed_exec { w with
      table := putAll w.table (rowsOf defaultTreeName es) }
      w.db names hsame (hnames names hperm) hutf.keys).2 r w' hx
    exact ⟨hr, names, hperm, _, (writes_tree hp).append hl, by rw [htable, putAll_append]⟩

end run

section preservation
variable {db : Db} {names : List Bytes} {l : List (Row × Bytes)} {name key value : Bytes}

theorem mem_of_lookup (h : (db.tree name).lookup key = some value) : key ∈ db.tree name :=
  AList.lookup_isSome.mp (by rw [h]; rfl)

/-- A copied tree other than the default one has a name and is not empty. -/
theorem mem_copied_iff (hp : names.Perm db.trees.keys) (hkey : key ∈ db.tree name) :
    name ∈ defaultTreeName :: copied names ↔ name ≠ [] := by
  obtain ⟨value, hv⟩ := Option.isSome_iff_exists.mp (AList.lookup_isSome.mpr hkey)
  have hmem : name ∈ names := hp.mem_iff.mpr (AList.mem_keys.mp (db.mem_trees_of_lookup name hv))
  have hne : defaultTreeName ≠ [] := by decide
  by_cases hd : name = defaultTreeName
  · simp [hd, hne]
  · simp [copied, hd, hmem]

theorem namespaceOf_named {s : String} (hd : name ≠ defaultTreeName) (hs : fromUtf8 name = some s) :
    namespaceOf name = s := by
  simp [namespaceOf, hd, hs]

/-- Two names with one namespace are equal, or they are the default tree and a tree called
"default". -/
theorem namespaceOf_eq {name' : Bytes} {s s' : String} (hs : fromUtf8 name = some s)
    (hs' : fromUtf8 name' = some s') (h : namespaceOf name = namespaceOf name') :
    name = name' ∨ name = defaultTreeName ∧ name' = asBytes "default" ∨
      name' = defaultTreeName ∧ name = asBytes "default" := by
  by_cases hd : name = defaultTreeName
  · by_cases hd' : name' = defaultTreeName
    · exact Or.inl (hd.trans hd'.symm)
    · rw [namespaceOf_named hd' hs', hd] at h
      have hdef : s' = "default" := by simpa [namespaceOf] using h.symm
      exact Or.inr (Or.inl ⟨hd, by rw [← asBytes_of_fromUtf8 hs', hdef]⟩)
  · by_cases hd' : name' = defaultTreeName
    · rw [namespaceOf_named hd hs, hd'] at h
      have hdef : s = "default" := by simpa [namespaceOf] using h
      exact Or.inr (Or.inr ⟨hd', by rw [← asBytes_of_fromUtf8 hs, hdef]⟩)
    · rw [namespaceOf_named hd hs, namespaceOf_named hd' hs'] at h
      exact Or.inl (by rw [← asBytes_of_fromUtf8 hs, ← asBytes_of_fromUtf8 hs', h])

/-- Without a collision every entry has a row of its own. -/
theorem rowOf_injective (hutf : Utf8 db) (hno : NoCollision db) {name' key' : Bytes}
    (hkey : key ∈ db.tree name) (hkey' : key' ∈ db.tree name')
    (h : rowOf name key = rowOf name' key') : name = name' ∧ key = key' := by
  obtain ⟨value, hv⟩ := Option.isSome_iff_exists.mp (AList.lookup_isSome.mpr hkey)
  obtain ⟨value', hv'⟩ := Option.isSome_iff_exists.mp (AList.lookup_isSome.mpr hkey')
  obtain ⟨s, hs⟩ := hutf.names name (db.mem_trees_of_lookup name hv)
  obtain ⟨s', hs'⟩ := hutf.names name' (db.mem_trees_of_lookup name' hv')
  obtain ⟨k, hk⟩ := hutf.keys name key hkey
  obtain ⟨k', hk'⟩ := hutf.keys name' key' hkey'
  have hkk : k = k' := by simpa [rowOf, hk, hk'] using congrArg Prod.snd h
  have hkeys : key = key' := by rw [← asBytes_of_fromUtf8 hk, ← asBytes_of_fromUtf8 hk', hkk]
  refine ⟨?_, hkeys⟩
  subst hkeys
  rcases namespaceOf_eq hs hs' (congrArg Prod.fst h) with hn | ⟨rfl, rfl⟩ | ⟨rfl, rfl⟩
  · exact hn
  · exact absurd hkey' (hno.default key hkey)
  · exact absurd hkey (hno.default key hkey')

theorem preserves_of_noCollision (hutf : Utf8 db) (hno : NoCollision db)
    (hp : names.Perm db.trees.keys) (hl : Writes db (defaultTreeName :: copied names) l) :
    Preserves db (putAll ∅ l) fun p => rowOf p.1 p.2 := by
  have hwritten : ∀ row value, (row, value) ∈ l ↔
      ∃ name key, (db.tree name).lookup key = some value ∧ rowOf name key = row := by
    intro row value
    rw [hl row value]
    constructor
    · rintro ⟨name, -, key, hk, hrow⟩
      exact ⟨name, key, hk, hrow⟩
    · rintro ⟨name, key, hk, hrow⟩
      have hmem := mem_of_lookup hk
      refine ⟨name, (mem_copied_iff hp hmem).mpr ?_, key, hk, hrow⟩
      rintro rfl
      exact hno.nameless key hmem
  have hfun : ∀ row v v', (row, v) ∈ l → (row, v') ∈ l → v = v' := by
    intro row v v' h h'
    obtain ⟨name, key, hk, hrow⟩ := (hwritten row v).mp h
    obtain ⟨name', key', hk', hrow'⟩ := (hwritten row v').mp h'
    obtain ⟨rfl, rfl⟩ := rowOf_injective hutf hno (mem_of_lookup hk) (mem_of_lookup hk')
      (hrow.trans hrow'.symm)
    rw [hk] at hk'
    exact Option.some.inj hk'
  constructor
  case own => exact fun name key name' key' hk hk' h => rowOf_injective hutf hno hk hk' h
  case stored =>
    intro name key value hk
    exact (lookup_putAll_iff hfun _ _).mpr ((hwritten _ _).mpr ⟨name, key, hk, rfl⟩)
  case named => exact fun name key s _ hd hs => namespaceOf_named hd hs
  case keyed =>
    intro name key s _ hs
    simp [rowOf, hs]
  case only =>
    intro row value h
    exact (hwritten row value).mp ((lookup_putAll_iff hfun _ _).mp h)

theorem noCollision_of_preserves (hutf : Utf8 db) {row : Bytes × Bytes → Row}
    (hp : names.Perm db.trees.keys) (hl : Writes db (defaultTreeName :: copied names) l)
    (h : Preserves db (putAll ∅ l) row) : NoCollision db := by
  -- the row of an entry has been written for some tree that is not skipped
  have hrow : ∀ name key, key ∈ db.tree name → ∃ name' key', key' ∈ db.tree name' ∧ name' ≠ [] ∧
      rowOf name' key' = row (name, key) := by
    intro name key hkey
    obtain ⟨value, hv⟩ := Option.isSome_iff_exists.mp (AList.lookup_isSome.mpr hkey)
    rcases lookup_putAll (h.stored name key value hv) with hw | ⟨hw, -⟩
    · obtain ⟨name', hn', key', hk', hr⟩ := (hl _ _).mp hw
      have hmem := mem_of_lookup hk'
      exact ⟨name', key', hmem, (mem_copied_iff hp hmem).mp hn', hr⟩
    · cases hw
  -- which is its own one, unless it is the row of the default tree
  have hown : ∀ name key name' key', key ∈ db.tree name → key' ∈ db.tree name' →
      name' ≠ defaultTreeName → rowOf name' key' = row (name, key) → name = name' ∧ key = key' := by
    intro name key name' key' hkey hkey' hd hr
    apply h.own name key name' key' hkey hkey'
    obtain ⟨value, hv⟩ := Option.isSome_iff_exists.mp (AList.lookup_isSome.mpr hkey')
    obtain ⟨s, hs⟩ := hutf.names name' (db.mem_trees_of_lookup name' hv)
    obtain ⟨k, hk⟩ := hutf.keys name' key' hkey'
    rw [← hr]
    apply Prod.ext
    · rw [h.named name' key' s hkey' hd hs]
      exact namespaceOf_named hd hs
    · rw [h.keyed name' key' k hkey' hk]
      simp [rowOf, hk]
  constructor
  · intro key hkey hdef
    have hne : asBytes "default" ≠ defaultTreeName := by decide
    obtain ⟨k, hk⟩ := hutf.keys _ key hkey
    obtain ⟨name', key', hkey', -, hr⟩ := hrow defaultTreeName key hkey
    by_cases hd : name' = defaultTreeName
    · -- the default tree has the row of the tree called "default"
      have hk' : (fromUtf8 key').getD "" = k := by
        have hsnd := congrArg Prod.snd hr
        rwa [h.keyed _ key k hkey hk] at hsnd
      have hsame : row (defaultTreeName, key) = row (asBytes "default", key) := by
        rw [← hr]
        apply Prod.ext
        · rw [h.named _ key _ hdef hne (fromUtf8_asBytes "default")]
          simp [rowOf, namespaceOf, hd]
        · rw [h.keyed _ key k hdef hk]
          exact hk'
      exact hne (h.own _ _ _ _ hkey hdef hsame).1.symm
    · exact hd (hown _ _ _ _ hkey hkey' hd hr).1.symm
  · intro key hkey
    obtain ⟨name', key', hkey', hne, hr⟩ := hrow [] key hkey
    by_cases hd : name' = defaultTreeName
    · have hname : ([] : Bytes) ≠ defaultTreeName := by decide
      have hns : (row ([], key)).1 = "" :=
        h.named [] key "" hkey hname (fromUtf8_asBytes "")
      rw [← hr, hd] at hns
      simp [rowOf, namespaceOf] at hns
    · exact hne (hown _ _ _ _ hkey hkey' hd hr).1.symm

end preservation

/-- Whatever order sled lists names and entries in, the migration of an empty table ends and
preserves the database, if and only if no key is both in the default tree and in a tree called
"default" and no entry is in a tree without a name. -/
theorem migrate_preserves_iff {w : World} (hutf : Utf8 w.db) (hempty : w.table = ∅) :
    (∃ w', Exec handle migrate w (.ok ()) w') ∧
    ∀ r w', Exec handle migrate w r w' →
      r = .ok () ∧ ((∃ row, Preserves w.db w'.table row) ↔ NoCollision w.db) := by
  obtain ⟨hex, hall⟩ := migrate_exec hutf
  refine ⟨hex, fun r w' hx => ?_⟩
  obtain ⟨hr, names, hp, l, hl, htable⟩ := hall r w' hx
  rw [hempty] at htable
  rw [htable]
  refine ⟨hr, fun ⟨row, h⟩ => noCollision_of_preserves hutf hp hl h, fun hno => ?_⟩
  exact ⟨_, preserves_of_noCollision hutf hno hp hl⟩

section instances

def versionTree (value : Bytes) : Tree := AList.singleton (asBytes "version") value

/-- The key "version" in the default tree and in a tree with a name. -/
def versionDb (name : String) : Db :=
  (Db.empty.setTree defaultTreeName (versionTree [1])).setTree (asBytes name) (versionTree [2])

theorem mem_versionTree {key value : Bytes} (h : key ∈ versionTree value) : key = asBytes "version" := by
  simpa [versionTree, AList.mem_keys] using h

theorem versionDb_tree {name : String} {tree key : Bytes} (h : key ∈ (versionDb name).tree tree) :
    key = asBytes "version" ∧ (tree = asBytes name ∨ tree = defaultTreeName) := by
  unfold versionDb at h
  by_cases hname : tree = asBytes name
  · rw [hname, Db.tree_setTree] at h
    exact ⟨mem_versionTree h, Or.inl hname⟩
  · rw [Db.tree_setTree_of_ne _ hname] at h
    by_cases hd : tree = defaultTreeName
    · rw [hd, Db.tree_setTree] at h
      exact ⟨mem_versionTree h, Or.inr hd⟩
    · rw [Db.tree_setTree_of_ne _ hd, Db.tree_empty] at h
      exact absurd h (AList.notMem_empty _)

theorem versionDb_utf8 (name : String) : Utf8 (versionDb name) := by
  constructor
  · intro tree h
    rcases (AList.mem_insert _).mp h with rfl | h
    · exact ⟨_, fromUtf8_asBytes _⟩
    · rcases (AList.mem_insert _).mp h with rfl | h
      · exact ⟨_, fromUtf8_asBytes _⟩
      · obtain rfl : tree = defaultTreeName := by simpa [Db.empty, AList.mem_keys] using h
        exact ⟨_, fromUtf8_asBytes _⟩
  · intro tree key h
    rw [(versionDb_tree h).1]
    exact ⟨_, fromUtf8_asBytes _⟩

/-- A tree called "default" and the default tree share a row. -/
theorem default_trees_collide :
    Utf8 (versionDb "default") ∧
    ∃ w', Exec handle migrate ⟨versionDb "default", ∅⟩ (.ok ()) w' ∧
      ¬ ∃ row, Preserves (versionDb "default") w'.table row := by
  have hutf := versionDb_utf8 "default"
  obtain ⟨⟨w', hx⟩, hall⟩ := @migrate_exec ⟨versionDb "default", ∅⟩ hutf
  refine ⟨hutf, w', hx, ?_⟩
  rintro ⟨row, h⟩
  obtain ⟨-, names, hp, l, hl, htable⟩ := hall _ w' hx
  rw [htable] at h
  have hno := noCollision_of_preserves hutf hp hl h
  exact hno.default (asBytes "version") (by decide) (by decide)

/-- Under any other name there are two rows. -/
theorem named_tree_preserved :
    ∃ w', Exec handle migrate ⟨versionDb "rules", ∅⟩ (.ok ()) w' ∧
      ∃ row, Preserves (versionDb "rules") w'.table row := by
  obtain ⟨⟨w', hx⟩, hall⟩ := @migrate_preserves_iff ⟨versionDb "rules", ∅⟩ (versionDb_utf8 "rules") rfl
  refine ⟨w', hx, (hall _ w' hx).2.mpr ⟨?_, ?_⟩⟩
  · intro key _ h
    rcases (versionDb_tree h).2 with heq | heq
    · exact absurd heq (by decide)
    · exact absurd heq (by decide)
  · intro key h
    rcases (versionDb_tree h).2 with heq | heq
    · exact absurd heq (by decide)
    · exact absurd heq (by decide)

end instances
end PlaidRuntime.SledMigration
