import PlaidRuntime.DynamodbProvider
import PlaidRuntime.DynamodbRoundtrip
import PlaidRuntime.Fallible

/-!
# Queries of the DynamoDB API

`DynamoDb::query` of `apis/aws/dynamodb.rs`, which a rule calls, beside the loop of
`dynamodb_query` in `storage/dynamodb/mod.rs`. The service answers a query page by page.
-/
namespace PlaidRuntime.DynamodbApi
open DynamodbUtils (AttributeValue Formats Value collectEntries toJsonEntries toAttributeEntries)
open DynamodbProvider (Item QueryResponse)
open Fallible SortedEntries

inductive ApiError where
  | badRequest
  | serdeError (text : String)
  | dynamoDbQueryError (text : String)
  deriving DecidableEq, Repr

def ofConversion : DynamodbUtils.ApiError → ApiError
  | .serdeError text => .serdeError text

inductive AccessScope where
  | read
  | write
  deriving DecidableEq, Repr

/-- Rules by table. -/
structure DynamoDb where
  rw : AList fun _ : String => List String
  r : AList fun _ : String => List String
  reservedTables : Option (List String)

/-- The rule is listed for the table. -/
def listed (tables : AList fun _ : String => List String) (module tableName : String) : Bool :=
  match tables.lookup tableName with
  | some rules => rules.contains module
  | none => false

def DynamoDb.checkModulePermissions (db : DynamoDb) (accessScope : AccessScope)
    (module tableName : String) : Except ApiError Unit :=
  if (db.reservedTables.getD []).contains tableName then .error .badRequest
  else match accessScope with
    | .read =>
      if listed db.r module tableName || listed db.rw module tableName then .ok ()
      else .error .badRequest
    | .write => if listed db.rw module tableName then .ok () else .error .badRequest

/-- A map is written as its entries in the order in which it iterates. -/
structure QueryInput (F : Type) where
  tableName : String
  indexName : Option String
  keyConditionExpression : String
  expressionAttributeNames : Option (List (String × String))
  expressionAttributeValues : Option (List (String × Value F))

/-- What is sent to the service. -/
structure QueryCall where
  tableName : String
  indexName : Option String
  keyConditionExpression : String
  expressionAttributeNames : Option (List (String × String))
  expressionAttributeValues : Option (List (String × AttributeValue))
  exclusiveStartKey : Option Item

section query
variable {F : Type} (formats : Formats F)
  (order : List (String × Except DynamodbUtils.ApiError (Value F)) →
    List (String × Except DynamodbUtils.ApiError (Value F)))

def attributesIntoJson (attrs : Item) : Except ApiError (Value F) :=
  ((collectEntries (order (toJsonEntries formats order attrs))).map fun es =>
    .object (ofEntries es)).mapError ofConversion

def jsonIntoAttributes : Option (List (String × Value F)) →
    Except ApiError (Option (List (String × AttributeValue)))
  | none => .ok none
  | some values =>
    ((toAttributeEntries formats values).map fun es => some (ofEntries es)).mapError ofConversion

variable (db : DynamoDb) (service : QueryCall → Except String QueryResponse) (module : String)

/-- The call a rule's request makes; `params` is what its text reads as. -/
def prepareQuery (params : Except String (QueryInput F)) : Except ApiError QueryCall := do
  let input ← params.mapError .serdeError
  db.checkModulePermissions .read module input.tableName
  let expressionAttributeValues ← jsonIntoAttributes formats input.expressionAttributeValues
  return {
    tableName := input.tableName
    indexName := input.indexName
    keyConditionExpression := input.keyConditionExpression
    expressionAttributeNames := input.expressionAttributeNames
    expressionAttributeValues
    exclusiveStartKey := none }

/-- The items the rule is given, as JSON. -/
def query (params : Except String (QueryInput F)) : Except ApiError (List (Value F)) := do
  let call ← prepareQuery formats db module params
  let output ← (service call).mapError .dynamoDbQueryError
  (output.items.getD []).mapM (attributesIntoJson formats order)

/-- The items are returned, in any order. -/
def ReturnsAll (items : List Item) (r : Except ApiError (List (Value F))) : Prop :=
  ∃ (found : List Item) (values : List (Value F)), r = .ok values ∧ found.Perm items ∧
    found.mapM (attributesIntoJson formats order) = .ok values

end query

section pages
variable {ε : Type} (send : Option Item → Except ε QueryResponse)

/-- The loop of `dynamodb_query`. -/
def dynamodbQuery : ℕ → Option Item → List Item → Option (Except ε (List Item))
  | 0, _, _ => none
  | fuel + 1, lastEvaluatedKey, output =>
    match send lastEvaluatedKey with
    | .error e => some (.error e)
    | .ok response =>
      let output := output ++ response.items.getD []
      match response.lastEvaluatedKey with
      | none => some (.ok output)
      | some key => dynamodbQuery fuel (some key) output

/-- From a start key on the service answers with these pages, each with the key of the next. -/
inductive Splits : Option Item → List (List Item) → Prop
  | last {start : Option Item} {items : Option (List Item)}
    (hsend : send start = .ok ⟨items, none⟩) : Splits start [items.getD []]
  | more {start : Option Item} {items : Option (List Item)} {key : Item} {pages : List (List Item)}
    (hsend : send start = .ok ⟨items, some key⟩) (rest : Splits (some key) pages) :
    Splits start (items.getD [] :: pages)

variable {send} {start : Option Item} {pages : List (List Item)}

/-- The storage layer gets every page. -/
theorem Splits.dynamodbQuery_eq (h : Splits send start pages) (output : List Item) :
    dynamodbQuery send pages.length start output = some (.ok (output ++ pages.flatten)) := by
  induction h generalizing output with
  | last hsend => simp [dynamodbQuery, hsend]
  | more hsend rest ih =>
    rw [List.length_cons, dynamodbQuery, hsend]
    simp only [ih, List.append_assoc, List.flatten_cons]

theorem Splits.first (h : Splits send start pages) :
    ∃ response, send start = .ok response ∧ ∃ rest, pages = response.items.getD [] :: rest := by
  cases h with
  | last hsend => exact ⟨_, hsend, [], rfl⟩
  | more hsend rest => exact ⟨_, hsend, _, rfl⟩

end pages

section completeness
variable {F : Type} {formats : Formats F}
  {order : List (String × Except DynamodbUtils.ApiError (Value F)) →
    List (String × Except DynamodbUtils.ApiError (Value F))}
  {db : DynamoDb} {service : QueryCall → Except String QueryResponse} {module : String}
  {params : Except String (QueryInput F)} {call : QueryCall} {items : List Item}
  {pages : List (List Item)}

/-- The service's answers to a query that starts at a key. -/
def startingAt (service : QueryCall → Except String QueryResponse) (call : QueryCall)
    (start : Option Item) : Except String QueryResponse :=
  service { call with exclusiveStartKey := start }

theorem start_of_prepareQuery (h : prepareQuery formats db module params = .ok call) :
    call.exclusiveStartKey = none := by
  simp only [prepareQuery, bind_ok] at h
  obtain ⟨input, -, -, -, values, -, h⟩ := h
  cases h
  rfl

/-- A query gives the first page. -/
theorem query_eq (h : prepareQuery formats db module params = .ok call)
    (hsplits : Splits (startingAt service call) none pages) :
    ∃ first rest, pages = first :: rest ∧ query formats order db service module params =
      first.mapM (attributesIntoJson formats order) := by
  obtain ⟨response, hsend, rest, rfl⟩ := hsplits.first
  refine ⟨_, rest, rfl, ?_⟩
  have hcall : service call = .ok response := by
    rw [← hsend, startingAt, ← start_of_prepareQuery h]
  rw [query, h]
  simp only [bind, Except.bind, hcall, Except.mapError]

/-- A query that is sent returns all the items, as the storage layer does for the same answers, just
when every item has a JSON form and no page but the first has items. -/
theorem query_complete_iff (h : prepareQuery formats db module params = .ok call)
    (hsplits : Splits (startingAt service call) none pages) (hitems : pages.flatten.Perm items) :
    (∃ fuel, dynamodbQuery (startingAt service call) fuel none [] = some (.ok pages.flatten)) ∧
      (ReturnsAll formats order items (query formats order db service module params) ↔
        (∀ item ∈ items, ∃ v, attributesIntoJson formats order item = .ok v) ∧
          ∀ page ∈ pages.tail, page = []) := by
  refine ⟨⟨_, hsplits.dynamodbQuery_eq []⟩, ?_⟩
  obtain ⟨first, rest, rfl, hquery⟩ := @query_eq F formats order db service module params call _ h hsplits
  rw [hquery, List.tail_cons]
  constructor
  · rintro ⟨found, values, hfirst, hfound, hvalues⟩
    refine ⟨fun item hitem => ?_, ?_⟩
    · exact exists_mapM_ok.mp ⟨values, hvalues⟩ item (hfound.mem_iff.mpr hitem)
    · have hlength : first.length = (first ++ rest.flatten).length := by
        rw [← length_of_mapM hfirst, length_of_mapM hvalues, (hfound.trans hitems.symm).length_eq,
          List.flatten_cons]
      have hrest : rest.flatten = [] := by
        rw [List.length_append] at hlength
        exact List.eq_nil_of_length_eq_zero (by omega)
      exact List.flatten_eq_nil_iff.mp hrest
  · rintro ⟨hforms, hrest⟩
    have hflatten : first.Perm items := by
      rwa [List.flatten_cons, List.flatten_eq_nil_iff.mpr hrest, List.append_nil] at hitems
    obtain ⟨values, hvalues⟩ := exists_mapM_ok.mpr fun item hitem =>
      hforms item (hflatten.mem_iff.mp hitem)
    exact ⟨first, values, hvalues, hflatten, hvalues⟩

end completeness

section instances
open DynamodbRoundtrip (sampleFormats)

def row (key : String) : Item := [("pk", .s "users"), ("sk", .s key)]

def rowJson (key : String) : Value ℕ := .object [("pk", .string "users"), ("sk", .string key)]

def readers : DynamoDb := ⟨∅, AList.singleton "people" ["rule"], some ["plaid"]⟩

def usersInput : QueryInput ℕ :=
  ⟨"people", none, "pk = :pk", none, some [(":pk", .string "users")]⟩

def usersCall : QueryCall :=
  ⟨"people", none, "pk = :pk", none, some [(":pk", .s "users")], none⟩

theorem prepare_users : prepareQuery sampleFormats readers "rule" (.ok usersInput) = .ok usersCall :=
  rfl

/-- The users `a` and `b` on one page. -/
def onePage : QueryCall → Except String QueryResponse :=
  fun _ => .ok ⟨some [row "a", row "b"], none⟩

/-- The users `a` and `b` on a page each. -/
def twoPages (call : QueryCall) : Except String QueryResponse :=
  match call.exclusiveStartKey with
  | none => .ok ⟨some [row "a"], some (row "a")⟩
  | some _ => .ok ⟨some [row "b"], none⟩

theorem one_page_returned : ReturnsAll sampleFormats List.reverse [row "b", row "a"]
    (query sampleFormats List.reverse readers onePage "rule" (.ok usersInput)) := by
  have hsplits : Splits (startingAt onePage usersCall) none [[row "a", row "b"]] :=
    @Splits.last _ _ none (some [row "a", row "b"]) rfl
  refine (query_complete_iff prepare_users hsplits (List.Perm.swap _ _ _)).2.mpr ⟨?_, ?_⟩
  · intro item hitem
    rcases List.mem_pair.mp hitem with rfl | rfl
    · exact ⟨rowJson "b", rfl⟩
    · exact ⟨rowJson "a", rfl⟩
  · exact fun page hpage => absurd hpage List.not_mem_nil

/-- The second page is never asked for. -/
theorem second_page_missed :
    Splits (startingAt twoPages usersCall) none [[row "a"], [row "b"]] ∧
      ¬ ReturnsAll sampleFormats List.reverse [row "a", row "b"]
        (query sampleFormats List.reverse readers twoPages "rule" (.ok usersInput)) := by
  have hlast : Splits (startingAt twoPages usersCall) (some (row "a")) [[row "b"]] :=
    @Splits.last _ _ (some (row "a")) (some [row "b"]) rfl
  refine ⟨@Splits.more _ _ none (some [row "a"]) (row "a") _ rfl hlast, ?_⟩
  rintro ⟨found, values, hquery, hfound, hvalues⟩
  have hfirst : query sampleFormats List.reverse readers twoPages "rule" (.ok usersInput) =
      .ok [rowJson "a"] := rfl
  obtain rfl := Except.ok.inj (hfirst.symm.trans hquery)
  have hlength := length_of_mapM hvalues
  rw [hfound.length_eq] at hlength
  cases hlength

end instances
end PlaidRuntime.DynamodbApi
