import PlaidRuntime.DynamodbUtils
import PlaidRuntime.Fallible
import PlaidRuntime.KeyRanges
import PlaidRuntime.LocalProviders

/-!
# The DynamoDB provider

`storage/dynamodb/mod.rs` over a table that behaves as a map from namespace and key to items.
The service splits the result of a query into pages as it likes.
-/
namespace PlaidRuntime.DynamodbProvider
open Fallible KeyRanges GuestMemory StorageProvider ProviderCalls
open DynamodbUtils (AttributeValue)

def NAMESPACE : String := "namespace"
def KEY : String := "key"
def VALUE : String := "value"

def asS : AttributeValue → Option String
  | .s x => some x
  | _ => none

def asB : AttributeValue → Option Bytes
  | .b blob => some blob
  | _ => none

/-- Attributes by name. -/
abbrev Item : Type := List (String × AttributeValue)

/-- Items by partition key and sort key. -/
abbrev Table : Type := AList fun _ : String × String => Item

/-- What the service accepts as a key or in a key condition and as an item, and what it says
otherwise. -/
structure Service where
  accepts : String → Bool
  acceptsItem : Item → Bool
  rejection : String
  rawResponse : String

/-- Where the pages of one query end, apart from the last one. -/
structure Splitting where
  cuts : List String
  increasing : cuts.Pairwise (· < ·)

structure QueryRequest where
  projectionExpression : List String
  keyConditionExpression : String
  expressionAttributeNames : List (String × String)
  expressionAttributeValues : List (String × AttributeValue)
  exclusiveStartKey : Option Item

structure QueryResponse where
  items : Option (List Item)
  lastEvaluatedKey : Option Item

/-! The service. -/
namespace Service
variable (svc : Service) (table : Table)

/-- Partition and sort key named by two attributes, if the service accepts them. -/
def keyOf (item : Item) : Option (String × String) :=
  match item.lookup "namespace", item.lookup "key" with
  | some (.s ns), some (.s key) => if svc.accepts ns && svc.accepts key then some (ns, key) else none
  | _, _ => none

/-- Each answers with the item before. -/
def putItem (item : Item) : Except String (Option Item × Table) :=
  match svc.keyOf item with
  | some k => if svc.acceptsItem item then .ok (table.lookup k, table.insert k item)
    else .error svc.rejection
  | none => .error svc.rejection

def deleteItem (key : Item) : Except String (Option Item × Table) :=
  match svc.keyOf key with
  | some k => .ok (table.lookup k, table.erase k)
  | none => .error svc.rejection

def getItem (key : Item) : Except String (Option Item) :=
  match svc.keyOf key with
  | some k => .ok (table.lookup k)
  | none => .error svc.rejection

/-- The partition and the prefix that a key condition asks for. -/
def condition (q : QueryRequest) : Option (String × Option String) :=
  match q.expressionAttributeNames.lookup "#pk", q.expressionAttributeValues.lookup ":pk_val" with
  | some "namespace", some (.s ns) =>
    if q.keyConditionExpression = "#pk = :pk_val" then some (ns, none)
    else if q.keyConditionExpression = "#pk = :pk_val AND begins_with(#sk, :sk_prefix)" then
      match q.expressionAttributeNames.lookup "#sk",
        q.expressionAttributeValues.lookup ":sk_prefix" with
      | some "key", some (.s p) => some (ns, some p)
      | _, _ => none
    else none
  | _, _ => none

/-- The items of a partition whose key starts with the prefix, in key order. -/
def matching (ns : String) (p : Option String) : List (Σ _ : String × String, Item) :=
  (table.entries.filter fun e => decide (e.1.1 = ns) && startsWith p e.1.2).mergeSort
    fun e e' => decide (e.1.2 ≤ e'.1.2)

def project (q : QueryRequest) (item : Item) : Item :=
  item.filter fun a =>
    decide (a.1 ∈ q.projectionExpression.filterMap fun aliased =>
      q.expressionAttributeNames.lookup aliased)

/-- One page. It ends at `cut`, which is then the last evaluated key. -/
def query (q : QueryRequest) (cut : Option String) : Except String QueryResponse :=
  match condition q with
  | none => .error svc.rejection
  | some (ns, p) =>
    if svc.accepts ns && p.all svc.accepts then
      let start := q.exclusiveStartKey.bind fun k => (k.lookup "key").bind asS
      .ok
        { items := some ((range (fun e => e.1.2) start cut (matching table ns p)).map fun e =>
            project q e.2)
          lastEvaluatedKey := cut.map fun k => [("namespace", .s ns), ("key", .s k)] }
    else .error svc.rejection

end Service

variable (svc : Service) (table : Table)

/-- The value attribute of an item that was there. -/
def previousValue (attributes : Option Item) : Option Bytes :=
  attributes.bind fun attr => (attr.lookup VALUE).bind asB

def insert (ns key : String) (value : Bytes) : Except StorageError (Option Bytes) × Table :=
  match svc.putItem table [(NAMESPACE, .s ns), (KEY, .s key), (VALUE, .b value)] with
  | .error e => (.error (.access s!"Could not insert to storage: {e}"), table)
  | .ok (attributes, table) => (.ok (previousValue attributes), table)

def get (ns key : String) : Except StorageError (Option Bytes) :=
  match svc.getItem table [(NAMESPACE, .s ns), (KEY, .s key)] with
  | .error e => .error (.access s!"Could not get from storage: {e}")
  | .ok item => .ok (previousValue item)

def delete (ns key : String) : Except StorageError (Option Bytes) × Table :=
  match svc.deleteItem table [(NAMESPACE, .s ns), (KEY, .s key)] with
  | .error e => (.error (.access s!"Could not delete from storage: {e}"), table)
  | .ok (attributes, table) => (.ok (previousValue attributes), table)

/-- An empty prefix is taken for none, because the service complains about it. -/
def effectivePrefix : Option String → Option String
  | some x => if x = "" then none else some x
  | none => none

/-- The request of a query before its start key is set. -/
def queryRequest (ns : String) (p : Option String) (attributesToGet : List String) : QueryRequest :=
  let aliased := attributesToGet.map fun v => "#" ++ v
  let names := aliased.zip attributesToGet ++ [("#pk", NAMESPACE)]
  let values := [(":pk_val", AttributeValue.s ns)]
  match effectivePrefix p with
  | none =>
    { projectionExpression := aliased
      keyConditionExpression := "#pk = :pk_val"
      expressionAttributeNames := names
      expressionAttributeValues := values
      exclusiveStartKey := none }
  | some p =>
    { projectionExpression := aliased
      keyConditionExpression := "#pk = :pk_val AND begins_with(#sk, :sk_prefix)"
      expressionAttributeNames := names ++ [("#sk", KEY)]
      expressionAttributeValues := values ++ [(":sk_prefix", AttributeValue.s p)]
      exclusiveStartKey := none }

/-- One round of the loop: the items so far and where to go on. -/
def queryPage (q : QueryRequest) (cut : Option String) (lastEvaluatedKey : Option Item)
    (output : List Item) : Except StorageError (List Item × Option Item) :=
  match svc.query table { q with exclusiveStartKey := lastEvaluatedKey } cut with
  | .error e => .error (.access s!"Could not list storage contents: {e} {svc.rawResponse}")
  | .ok response => .ok (output ++ response.items.getD [], response.lastEvaluatedKey)

/-- The loop over the pages, which end at `cuts`. -/
def queryLoop (q : QueryRequest) : List String → Option Item → List Item →
    Except StorageError (List Item)
  -- the last page comes without a last evaluated key
  | [], lek, output => (queryPage svc table q none lek output).map Prod.fst
  | cut :: cuts, lek, output => do
    let (output, lek) ← queryPage svc table q (some cut) lek output
    if lek.isNone then .ok output else queryLoop q cuts lek output

def dynamodbQuery (splitting : Splitting) (ns : String) (p : Option String)
    (attributesToGet : List String) : Except StorageError (List Item) :=
  queryLoop svc table (queryRequest ns p attributesToGet) splitting.cuts none []

def malformed {α : Type} : Except StorageError α :=
  .error (.access "Could not list storage contents")

def keyAttribute (item : Item) : Except StorageError String :=
  match (item.lookup KEY).map asS with
  | some (some key) => .ok key
  | _ => malformed

def valueAttribute (item : Item) : Except StorageError (Option Bytes) :=
  match (item.lookup VALUE).map asB with
  | none => .ok none
  | some (some value) => .ok (some value)
  | some none => malformed

def listKeys (splitting : Splitting) (ns : String) (p : Option String) :
    Except StorageError (List String) := do
  let items ← dynamodbQuery svc table splitting ns p [KEY]
  items.mapM keyAttribute

def fetchAll (splitting : Splitting) (ns : String) (p : Option String) :
    Except StorageError Listing := do
  let items ← dynamodbQuery svc table splitting ns p ["key", "value"]
  items.mapM fun item => do
    let key ← keyAttribute item
    let value ← valueAttribute item
    return (key, value)

def dynamodbProvider (splitting : Splitting) : Provider Table
  | table, .insert ns key value => insert svc table ns key value
  | table, .get ns key => (get svc table ns key, table)
  | table, .delete ns key => delete svc table ns key
  | table, .listKeys ns p => (listKeys svc table splitting ns p, table)
  | table, .fetchAll ns p => (fetchAll svc table splitting ns p, table)

/-- The service takes the names, keys, values and prefixes of a request. -/
def Service.Accepts (svc : Service) : BackendRequest → Prop
  | .insert ns key value => svc.accepts ns = true ∧ svc.accepts key = true ∧
    svc.acceptsItem [(NAMESPACE, .s ns), (KEY, .s key), (VALUE, .b value)] = true
  | .get ns key => svc.accepts ns = true ∧ svc.accepts key = true
  | .delete ns key => svc.accepts ns = true ∧ svc.accepts key = true
  | .listKeys ns p => svc.accepts ns = true ∧ ∀ x, p = some x → x ≠ "" → svc.accepts x = true
  | .fetchAll ns p => svc.accepts ns = true ∧ ∀ x, p = some x → x ≠ "" → svc.accepts x = true

/-- The item that stands for an entry. -/
def itemOf (ns key : String) (value : Bytes) : Item :=
  [(NAMESPACE, .s ns), (KEY, .s key), (VALUE, .b value)]

/-- The table has one item for each entry of a namespace and no others. -/
def Holds (table : Table) (store : Store) : Prop :=
  ∀ ns key, table.lookup (ns, key) = ((store ns).lookup key).map (itemOf ns key)

section paging
variable {svc : Service} {table : Table} {ns : String} {p : Option String}
  {attributes : List String}

theorem startsWith_effectivePrefix (key : String) :
    startsWith (effectivePrefix p) key = startsWith p key := by
  cases p with
  | none => rfl
  | some x =>
    by_cases hx : x = ""
    · subst hx
      simp [effectivePrefix, startsWith]
    · rw [effectivePrefix, if_neg hx]

/-- The two lists of attributes that are asked for. -/
def Listed (attributes : List String) : Prop := attributes = [KEY] ∨ attributes = ["key", "value"]

theorem condition_queryRequest (h : Listed attributes) (start : Option Item) :
    Service.condition { queryRequest ns p attributes with exclusiveStartKey := start } =
      some (ns, effectivePrefix p) := by
  unfold queryRequest
  rcases h with rfl | rfl <;> cases effectivePrefix p <;> rfl

/-- The service answers one round of the loop with one range of the keys. -/
theorem queryPage_eq (h : Listed attributes) (hns : svc.accepts ns = true)
    (hp : ∀ x, p = some x → x ≠ "" → svc.accepts x = true) (cut : Option String)
    (lek : Option Item) (output : List Item) :
    queryPage svc table (queryRequest ns p attributes) cut lek output =
      .ok (output ++ (range (fun e => e.1.2)
          (lek.bind fun k => (k.lookup "key").bind asS) cut
          (Service.matching table ns (effectivePrefix p))).map fun e =>
            Service.project (queryRequest ns p attributes) e.2,
        cut.map fun k => [("namespace", .s ns), ("key", .s k)]) := by
  have hprefix : (effectivePrefix p).all svc.accepts = true := by
    cases p with
    | none => rfl
    | some x =>
      by_cases hx : x = ""
      · simp [effectivePrefix, hx]
      · simpa [effectivePrefix, hx] using hp x rfl hx
  unfold queryPage Service.query
  simp only [condition_queryRequest h, hns, hprefix, Bool.and_self, if_true, Option.getD_some]
  rfl

theorem queryLoop_eq (h : Listed attributes) (hns : svc.accepts ns = true)
    (hp : ∀ x, p = some x → x ≠ "" → svc.accepts x = true) (cuts : List String)
    (lek : Option Item) (output : List Item) :
    queryLoop svc table (queryRequest ns p attributes) cuts lek output =
      .ok (output ++ (ranges (fun e => e.1.2)
        (Service.matching table ns (effectivePrefix p))
        (lek.bind fun k => (k.lookup "key").bind asS) cuts).map fun e =>
          Service.project (queryRequest ns p attributes) e.2) := by
  induction cuts generalizing lek output with
  | nil =>
    rw [queryLoop, queryPage_eq h hns hp]
    rfl
  | cons cut cuts ih =>
    rw [queryLoop, queryPage_eq h hns hp]
    simp only [bind, Except.bind, Option.map_some, Option.isNone_some, Bool.false_eq_true,
      if_false]
    rw [ih, ranges, List.map_append, List.append_assoc]
    rfl

variable (table) in
/-- However the pages are cut, every matching item is returned once. -/
theorem dynamodbQuery_eq (h : Listed attributes) (hns : svc.accepts ns = true)
    (hp : ∀ x, p = some x → x ≠ "" → svc.accepts x = true) (splitting : Splitting) :
    ∃ l : List (Σ _ : String × String, Item),
      l.Perm (Service.matching table ns (effectivePrefix p)) ∧
      dynamodbQuery svc table splitting ns p attributes =
        .ok (l.map fun e => Service.project (queryRequest ns p attributes) e.2) := by
  refine ⟨_, ?_, queryLoop_eq h hns hp splitting.cuts none []⟩
  have hstart : ∀ c ∈ splitting.cuts, after (none : Option String) c = true := fun _ _ => rfl
  have hperm := ranges_perm (fun e : Σ _ : String × String, Item => e.1.2) splitting.increasing
    (Service.matching table ns (effectivePrefix p)) hstart
  rw [range_none] at hperm
  simpa [after] using hperm

end paging

section listing
variable {svc : Service} {table : Table} {store : Store} {ns : String} {p : Option String}

theorem mem_matching {e : Σ _ : String × String, Item} :
    e ∈ Service.matching table ns p ↔
      e.1.1 = ns ∧ startsWith p e.1.2 = true ∧ table.lookup e.1 = some e.2 := by
  unfold Service.matching
  rw [(List.mergeSort_perm _ _).mem_iff, List.mem_filter, ← Option.mem_def, AList.mem_lookup_iff,
    Bool.and_eq_true, decide_eq_true_iff]
  constructor
  · rintro ⟨hmem, hns, hstart⟩
    exact ⟨hns, hstart, hmem⟩
  · rintro ⟨hns, hstart, hmem⟩
    exact ⟨hmem, hns, hstart⟩

/-- A matching item is the item of an entry of the namespace. -/
theorem Holds.mem_matching (h : Holds table store) {e : Σ _ : String × String, Item} :
    e ∈ Service.matching table ns p ↔ ∃ key value, e = ⟨(ns, key), itemOf ns key value⟩ ∧
      (store ns).lookup key = some value ∧ startsWith p key = true := by
  rcases e with ⟨⟨ns', key⟩, item⟩
  rw [DynamodbProvider.mem_matching, h, Option.map_eq_some_iff]
  constructor
  · rintro ⟨rfl, hstart, value, hvalue, rfl⟩
    exact ⟨key, value, rfl, hvalue, hstart⟩
  · rintro ⟨key', value, heq, hvalue, hstart⟩
    cases heq
    exact ⟨rfl, hstart, value, hvalue, rfl⟩

theorem matching_keys_nodup :
    ((Service.matching table ns p).map fun e => e.1.2).Nodup := by
  have hall : ((Service.matching table ns p).map Sigma.fst).Nodup := by
    have hperm := (List.mergeSort_perm (table.entries.filter fun e =>
      decide (e.1.1 = ns) && startsWith p e.1.2) fun e e' => decide (e.1.2 ≤ e'.1.2)).map Sigma.fst
    exact hperm.nodup_iff.mpr ((List.filter_sublist.map Sigma.fst).nodup table.keys_nodup)
  refine List.Nodup.map_on ?_ (hall.of_map)
  intro e he e' he' hkey
  have hns := (DynamodbProvider.mem_matching.mp he).1
  have hns' := (DynamodbProvider.mem_matching.mp he').1
  exact List.inj_on_of_nodup_map hall he he' (Prod.ext (hns.trans hns'.symm) hkey)

theorem keyAttribute_project {attributes : List String} (ha : Listed attributes) (key : String)
    (value : Bytes) :
    keyAttribute (Service.project (queryRequest ns p attributes) (itemOf ns key value)) =
      .ok key := by
  unfold queryRequest
  rcases ha with rfl | rfl <;> cases effectivePrefix p <;> rfl

theorem valueAttribute_project (key : String) (value : Bytes) :
    valueAttribute (Service.project (queryRequest ns p ["key", "value"]) (itemOf ns key value)) =
      .ok (some value) := by
  unfold queryRequest
  cases effectivePrefix p <;> rfl

/-- Key and value of a matching item. -/
def listed (e : Σ _ : String × String, Item) : String × Option Bytes :=
  (e.1.2, (e.2.lookup VALUE).bind asB)

theorem listed_perm (h : Holds table store) {l : List (Σ _ : String × String, Item)}
    (hl : l.Perm (Service.matching table ns (effectivePrefix p))) :
    (l.map listed).Perm (allEntries (store ns) p) := by
  refine (hl.map listed).trans (listing_perm ?_ ?_)
  · rw [List.map_map]
    exact matching_keys_nodup
  · intro key v
    rw [List.mem_map]
    constructor
    · rintro ⟨e, he, heq⟩
      obtain ⟨key', value, rfl, hvalue, hstart⟩ := h.mem_matching.mp he
      cases heq
      rw [startsWith_effectivePrefix] at hstart
      exact ⟨value, rfl, hvalue, hstart⟩
    · rintro ⟨value, rfl, hvalue, hstart⟩
      rw [← startsWith_effectivePrefix] at hstart
      exact ⟨_, h.mem_matching.mpr ⟨key, value, rfl, hvalue, hstart⟩, rfl⟩

theorem fetchAll_perm (h : Holds table store) (hns : svc.accepts ns = true)
    (hp : ∀ x, p = some x → x ≠ "" → svc.accepts x = true) (splitting : Splitting) :
    ∃ l, fetchAll svc table splitting ns p = .ok l ∧ l.Perm (allEntries (store ns) p) := by
  obtain ⟨l, hl, hquery⟩ :=
    dynamodbQuery_eq table (Or.inr rfl) hns hp splitting
  refine ⟨_, ?_, listed_perm h hl⟩
  unfold fetchAll
  rw [hquery]
  refine List.mapM_map.trans (mapM_ok_of_mem fun e he => ?_)
  obtain ⟨key, value, rfl, -, -⟩ := h.mem_matching.mp (hl.mem_iff.mp he)
  simp only [Function.comp_apply, keyAttribute_project (Or.inr rfl), valueAttribute_project]
  rfl

theorem listKeys_perm (h : Holds table store) (hns : svc.accepts ns = true)
    (hp : ∀ x, p = some x → x ≠ "" → svc.accepts x = true) (splitting : Splitting) :
    ∃ l, listKeys svc table splitting ns p = .ok l ∧
      l.Perm ((allEntries (store ns) p).map Prod.fst) := by
  obtain ⟨l, hl, hquery⟩ :=
    dynamodbQuery_eq table (Or.inl rfl) hns hp splitting
  have hkeys := (listed_perm h hl).map Prod.fst
  rw [List.map_map] at hkeys
  refine ⟨_, ?_, hkeys⟩
  unfold listKeys
  rw [hquery]
  refine List.mapM_map.trans (mapM_ok_of_mem fun e he => ?_)
  obtain ⟨key, value, rfl, -, -⟩ := h.mem_matching.mp (hl.mem_iff.mp he)
  exact keyAttribute_project (Or.inl rfl) key value

end listing

section simulation
variable {svc : Service} {table : Table} {store : Store}

theorem keyOf_key {ns key : String} (hns : svc.accepts ns = true) (hkey : svc.accepts key = true)
    (rest : Item) :
    svc.keyOf ((NAMESPACE, .s ns) :: (KEY, .s key) :: rest) = some (ns, key) := by
  simp [Service.keyOf, NAMESPACE, KEY, List.lookup, hns, hkey]

theorem Holds.previousValue (h : Holds table store) (ns key : String) :
    previousValue (table.lookup (ns, key)) = (store ns).lookup key := by
  rw [h ns key]
  cases (store ns).lookup key <;> rfl

theorem Holds.insert (h : Holds table store) (ns key : String) (value : Bytes) :
    Holds (AList.insert (ns, key) (itemOf ns key value) table)
      (Function.update store ns ((store ns).insert key value)) := by
  intro ns' key'
  by_cases hn : ns' = ns
  · subst hn
    rw [Function.update_self]
    by_cases hk : key' = key
    · subst hk
      rw [AList.lookup_insert, AList.lookup_insert]
      rfl
    · rw [AList.lookup_insert_ne (by simpa using hk), AList.lookup_insert_ne hk]
      exact h ns' key'
  · rw [Function.update_of_ne hn, AList.lookup_insert_ne (by simp [hn])]
    exact h ns' key'

theorem Holds.erase (h : Holds table store) (ns key : String) :
    Holds (AList.erase (ns, key) table)
      (Function.update store ns ((store ns).erase key)) := by
  intro ns' key'
  by_cases hn : ns' = ns
  · subst hn
    rw [Function.update_self]
    by_cases hk : key' = key
    · subst hk
      rw [AList.lookup_erase, AList.lookup_erase]
      rfl
    · rw [AList.lookup_erase_ne (by simpa using hk), AList.lookup_erase_ne hk]
      exact h ns' key'
  · rw [Function.update_of_ne hn, AList.lookup_erase_ne (by simp [hn])]
    exact h ns' key'

theorem dynamodb_simulates (splitting : Splitting) :
    Simulates (dynamodbProvider svc splitting) Holds svc.Accepts := by
  intro table store b h hok
  cases b with
  | insert ns key value =>
    obtain ⟨hns, hkey, hitem⟩ := hok
    simp only [dynamodbProvider, DynamodbProvider.insert, Service.putItem,
      keyOf_key hns hkey, hitem, if_true, mapProvider, h.previousValue]
    exact ⟨.value _, h.insert ns key value⟩
  | get ns key =>
    simp only [dynamodbProvider, DynamodbProvider.get, Service.getItem, keyOf_key hok.1 hok.2,
      mapProvider, h.previousValue]
    exact ⟨.value _, h⟩
  | delete ns key =>
    simp only [dynamodbProvider, DynamodbProvider.delete, Service.deleteItem,
      keyOf_key hok.1 hok.2, mapProvider, h.previousValue]
    exact ⟨.value _, h.erase ns key⟩
  | listKeys ns p =>
    obtain ⟨l, hl, hperm⟩ := listKeys_perm h hok.1 hok.2 splitting
    simp only [dynamodbProvider, mapProvider, hl]
    exact ⟨.keys hperm, h⟩
  | fetchAll ns p =>
    obtain ⟨l, hl, hperm⟩ := fetchAll_perm h hok.1 hok.2 splitting
    simp only [dynamodbProvider, mapProvider, hl]
    exact ⟨.entries hperm, h⟩

end simulation
end PlaidRuntime.DynamodbProvider
