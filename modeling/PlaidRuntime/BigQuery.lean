import PlaidRuntime.SqlText

/-!
# Building a BigQuery query

`build_query_request` and what it calls (`apis/gcp/bigquery.rs`), from the columns and the filter
of a rule to the text of the query and its parameters.
-/
namespace PlaidRuntime.BigQuery
open AndOrTree SqlText

def maxFilterDepth : ℕ := 2

def maxFilterChildren : ℕ := 8

inductive BigQueryError
  | invalidIdentifier (s : String)
  | noColumnsProvided
  | invalidColumnCombination (text : String)
  | invalidFilter (text : String)
  | moduleNotPermitted
  deriving DecidableEq, Repr

def BigQueryError.display : BigQueryError → String
  | .invalidIdentifier s => "Invalid identifer value: " ++ s
  | .noColumnsProvided => "No columns provided"
  | .invalidColumnCombination text => "Invalid column combination: " ++ text
  | .invalidFilter text => "Invalid filter provided: " ++ text
  | .moduleNotPermitted => "Module not permitted"

inductive ColumnFunction
  | count
  | max
  | min
  deriving DecidableEq, Repr

def ColumnFunction.display : ColumnFunction → String
  | .count => "COUNT"
  | .max => "MAX"
  | .min => "MIN"

structure Column where
  identifier : String
  function : Option ColumnFunction
  deriving DecidableEq, Repr

inductive Operator
  | eq
  | ne
  | lt
  | le
  | gt
  | ge
  | like
  | isNull
  | isNotNull
  deriving DecidableEq, Repr

/-- `F` are the values of an `f64`. -/
inductive FilterValue (F : Type)
  | string (s : String)
  | integer (n : ℤ)
  | float (f : F)
  | boolean (b : Bool)
  | timestamp (t : String)
  | null
  deriving DecidableEq

structure Condition (F : Type) where
  column : String
  operator : Operator
  value : FilterValue F
  deriving DecidableEq

/-- `And` and `Or` are the inner nodes and conditions the leaves. -/
abbrev Filter (F : Type) : Type := AndOr (Condition F)

structure QueryTableRequest (F : Type) where
  dataset : String
  table : String
  columns : List Column
  filter : Option (Filter F)

structure QueryParameter where
  name : Option String
  parameterType : String
  parameterValue : Option String
  deriving DecidableEq, Repr

/-- What the code uses of `f64`. -/
structure Floats (F : Type) where
  isNan : F → Bool
  isInfinite : F → Bool
  toString : F → String

def isValidIdentifier (s : String) : Bool :=
  !s.toList.isEmpty && (s.toList.head?.any fun c => c.isAlpha || c == '_') &&
    s.toList.all fun c => c.isAlphanum || c == '_'

variable {F : Type} (floats : Floats F)

/-- Wire type and text of a value; a null has no text. -/
def scalarValue : FilterValue F → Except BigQueryError (String × Option String)
  | .string s => .ok ("STRING", some s)
  | .integer n => .ok ("INT64", some (toString n))
  | .float f =>
    if floats.isNan f || floats.isInfinite f then
      .error (.invalidIdentifier "invalid float value provided in filter")
    else .ok ("FLOAT64", some (floats.toString f))
  | .boolean b => .ok ("BOOL", some (toString b))
  | .timestamp t => .ok ("TIMESTAMP", some t)
  | .null => .ok ("STRING", none)

def paramName (n : ℕ) : String := "p" ++ toString n

def pushValueParam (value : FilterValue F) (params : List QueryParameter) :
    Except BigQueryError (String × List QueryParameter) :=
  let name := paramName params.length
  match scalarValue floats value with
  | .error e => .error e
  | .ok (typeStr, scalar) => .ok ("@" ++ name, params ++ [⟨some name, typeStr, scalar⟩])

def compareSql (col opStr : String) (value : FilterValue F) (params : List QueryParameter) :
    Except BigQueryError (String × List QueryParameter) :=
  (pushValueParam floats value params).map fun r => (col ++ (" " ++ opStr ++ " ") ++ r.1, r.2)

def buildConditionSql (c : Condition F) (params : List QueryParameter) :
    Except BigQueryError (String × List QueryParameter) :=
  let col := "`" ++ c.column ++ "`"
  match c.operator with
  | .eq => compareSql floats col "=" c.value params
  | .ne => compareSql floats col "!=" c.value params
  | .lt => compareSql floats col "<" c.value params
  | .le => compareSql floats col "<=" c.value params
  | .gt => compareSql floats col ">" c.value params
  | .ge => compareSql floats col ">=" c.value params
  | .like => compareSql floats col "LIKE" c.value params
  | .isNull => .ok (col ++ " IS NULL", params)
  | .isNotNull => .ok (col ++ " IS NOT NULL", params)

def tooDeep : BigQueryError := .invalidFilter "provided filter exceeds max depth"

def noChildren : BigQueryError := .invalidFilter "no children present"

def tooManyChildren (node : String) (n : ℕ) : BigQueryError :=
  .invalidFilter ("provided " ++ node ++ " filter has " ++ toString n ++ " children, but only " ++
    toString maxFilterChildren ++ " are allowed")

mutual

def buildFilterSql : Filter F → ℕ → List QueryParameter →
    Except BigQueryError (String × List QueryParameter)
  | .leaf c, depth, params =>
    if depth > maxFilterDepth then .error tooDeep
    else if isValidIdentifier c.column then buildConditionSql floats c params
    else .error (.invalidIdentifier c.column)
  | .all children, depth, params =>
    if depth > maxFilterDepth then .error tooDeep
    else if children.isEmpty then .error noChildren
    else if children.length > maxFilterChildren then
      .error (tooManyChildren "AND" children.length)
    else (buildChildren children (depth + 1) params).map fun r =>
      ("(" ++ joinText " AND " r.1 ++ ")", r.2)
  | .any children, depth, params =>
    if depth > maxFilterDepth then .error tooDeep
    else if children.isEmpty then .error noChildren
    else if children.length > maxFilterChildren then
      .error (tooManyChildren "OR" children.length)
    else (buildChildren children (depth + 1) params).map fun r =>
      ("(" ++ joinText " OR " r.1 ++ ")", r.2)

def buildChildren : List (Filter F) → ℕ → List QueryParameter →
    Except BigQueryError (List String × List QueryParameter)
  | [], _, params => .ok ([], params)
  | c :: cs, depth, params =>
    match buildFilterSql c depth params with
    | .error e => .error e
    | .ok (part, params) =>
      (buildChildren cs depth params).map fun r => (part :: r.1, r.2)

end

def columnText (c : Column) : String :=
  match c.function with
  | none => "`" ++ c.identifier ++ "`"
  | some f => f.display ++ "(" ++ ("`" ++ c.identifier ++ "`") ++ ")"

/-- The query up to its condition. -/
def selectFrom (dataset table : String) (columns : List Column) : String :=
  "SELECT " ++ joinText ", " (columns.map columnText) ++ " FROM " ++ ("`" ++ dataset ++ "`") ++
    "." ++ ("`" ++ table ++ "`")

def buildQueryString (dataset table : String) (columns : List Column)
    (filter : Option (Filter F)) : Except BigQueryError (String × List QueryParameter) :=
  if columns.isEmpty then .error .noColumnsProvided
  else
    match columns.find? fun c => !isValidIdentifier c.identifier with
    | some c => .error (.invalidIdentifier c.identifier)
    | none =>
      if (columns.any fun c => c.function.isSome) && decide (columns.length > 1) then
        .error (.invalidColumnCombination
          "aggregate functions require exactly one column (GROUP BY is not supported)")
      else
        let sql := selectFrom dataset table columns
        match filter with
        | none => .ok (sql, [])
        | some f => (buildFilterSql floats f 0 []).map fun r => (sql ++ " WHERE " ++ r.1, r.2)

/-- Read access of modules to the tables of datasets, and the timeout of queries. -/
structure BigQueryConfig where
  r : AList fun _ : String => AList fun _ : String => List String
  timeoutMs : ℤ

structure QueryRequest where
  timeoutMs : Option ℤ
  query : String
  parameterMode : Option String
  queryParameters : List QueryParameter

def checkModulePermission (config : BigQueryConfig) (module dataset table : String) :
    Except BigQueryError Unit :=
  match (config.r.lookup module).bind fun datasets => datasets.lookup dataset with
  | none => .error .moduleNotPermitted
  | some tables => if table ∈ tables then .ok () else .error .moduleNotPermitted

def buildQueryRequest (config : BigQueryConfig) (module : String) (params : QueryTableRequest F) :
    Except BigQueryError QueryRequest :=
  if !isValidIdentifier params.dataset then .error (.invalidIdentifier params.dataset)
  else if !isValidIdentifier params.table then .error (.invalidIdentifier params.table)
  else
    match checkModulePermission config module params.dataset params.table with
    | .error e => .error e
    | .ok () =>
      (buildQueryString floats params.dataset params.table params.columns params.filter).map
        fun r =>
          { timeoutMs := some config.timeoutMs
            query := r.1
            parameterMode := if r.2.isEmpty then none else some "NAMED"
            queryParameters := r.2 }

/-! ## What is accepted -/

def FilterValue.IsFinite : FilterValue F → Prop
  | .float f => floats.isNan f = false ∧ floats.isInfinite f = false
  | _ => True

def Operator.takesValue : Operator → Bool
  | .isNull => false
  | .isNotNull => false
  | _ => true

/-- A condition that can be written down. -/
structure Condition.Acceptable (c : Condition F) : Prop where
  column : isValidIdentifier c.column = true
  value : c.operator.takesValue = true → c.value.IsFinite floats

structure FilterAcceptable (f : Filter F) : Prop where
  nesting : f.nesting ≤ maxFilterDepth
  widths : ∀ w ∈ f.widths, 1 ≤ w ∧ w ≤ maxFilterChildren
  leaves : ∀ c ∈ f.leaves, c.Acceptable floats

structure QueryAcceptable (columns : List Column) (filter : Option (Filter F)) : Prop where
  nonempty : columns ≠ []
  identifiers : ∀ c ∈ columns, isValidIdentifier c.identifier = true
  aggregate : (∃ c ∈ columns, c.function.isSome = true) → columns.length = 1
  filter : ∀ f, filter = some f → FilterAcceptable floats f

section accepted
variable {floats}

theorem scalarValue_ok_iff {v : FilterValue F} :
    (∃ r, scalarValue floats v = .ok r) ↔ v.IsFinite floats := by
  cases v with
  | float f =>
    unfold scalarValue FilterValue.IsFinite
    cases hnan : floats.isNan f <;> cases hinf : floats.isInfinite f <;> simp [hnan, hinf]
  | _ => simp [scalarValue, FilterValue.IsFinite]

theorem map_ok_iff {ε α β : Type} {x : Except ε α} {f : α → β} :
    (∃ b, x.map f = .ok b) ↔ ∃ a, x = .ok a := by
  cases x <;> simp [Except.map]

theorem pushValueParam_ok_iff {v : FilterValue F} {params : List QueryParameter} :
    (∃ r, pushValueParam floats v params = .ok r) ↔ v.IsFinite floats := by
  rw [← scalarValue_ok_iff]
  unfold pushValueParam
  cases scalarValue floats v <;> simp

theorem buildConditionSql_ok_iff {c : Condition F} {params : List QueryParameter} :
    (∃ r, buildConditionSql floats c params = .ok r) ↔
      (c.operator.takesValue = true → c.value.IsFinite floats) := by
  unfold buildConditionSql compareSql
  cases c.operator with
  | isNull => simp [Operator.takesValue]
  | isNotNull => simp [Operator.takesValue]
  | _ => simp only [map_ok_iff, pushValueParam_ok_iff, Operator.takesValue, forall_const]

/-- The children are built one after the other, whatever the parameters so far. -/
theorem buildChildren_ok_iff {cs : List (Filter F)} {depth : ℕ} {params : List QueryParameter}
    {Ok : Filter F → Prop}
    (h : ∀ c ∈ cs, ∀ params, (∃ r, buildFilterSql floats c depth params = .ok r) ↔ Ok c) :
    (∃ r, buildChildren floats cs depth params = .ok r) ↔ ∀ c ∈ cs, Ok c := by
  induction cs generalizing params with
  | nil => simp [buildChildren]
  | cons c cs ih =>
    have hc := h c List.mem_cons_self params
    have hcs := fun params => @ih params fun d hd => h d (List.mem_cons_of_mem c hd)
    rw [List.forall_mem_cons, ← hc, buildChildren]
    cases buildFilterSql floats c depth params with
    | error e => simp
    | ok r => simp [map_ok_iff, hcs]

theorem foldr_max_le_iff {ns : List ℕ} {n : ℕ} : ns.foldr max 0 ≤ n ↔ ∀ m ∈ ns, m ≤ n := by
  induction ns with
  | nil => simp
  | cons m ns ih => simp [ih]

/-- An inner node at some depth is built exactly when its children are, one level down. -/
theorem node_ok_iff {ts : List (Filter F)} {depth : ℕ} {params : List QueryParameter}
    {f : List String × List QueryParameter → String × List QueryParameter} {e : BigQueryError}
    (ih : ∀ t ∈ ts, ∀ depth params, (∃ r, buildFilterSql floats t depth params = .ok r) ↔
      depth + t.nesting ≤ maxFilterDepth ∧ (∀ w ∈ t.widths, 1 ≤ w ∧ w ≤ maxFilterChildren) ∧
        ∀ c ∈ t.leaves, c.Acceptable floats) :
    (∃ r, (if depth > maxFilterDepth then .error tooDeep
      else if ts.isEmpty then .error noChildren
      else if ts.length > maxFilterChildren then .error e
      else (buildChildren floats ts (depth + 1) params).map f) = .ok r) ↔
      depth + ((ts.map AndOr.nesting).foldr max 0 + 1) ≤ maxFilterDepth ∧
        (∀ w ∈ ts.length :: ts.flatMap AndOr.widths, 1 ≤ w ∧ w ≤ maxFilterChildren) ∧
        ∀ c ∈ ts.flatMap AndOr.leaves, c.Acceptable floats := by
  have hchildren := @buildChildren_ok_iff F floats ts (depth + 1) params _
    fun t ht params => ih t ht (depth + 1) params
  cases ts with
  | nil =>
    have hno : ∀ r : String × List QueryParameter,
        (if depth > maxFilterDepth then Except.error tooDeep else .error noChildren) ≠ .ok r := by
      intro r
      split_ifs <;> simp
    simp [hno]
  | cons t ts =>
    by_cases hdeep : depth > maxFilterDepth
    · simp only [hdeep, if_true, reduceCtorEq, exists_false, false_iff, not_and]
      intro hle
      omega
    by_cases hmany : (t :: ts).length > maxFilterChildren
    · simp only [hdeep, hmany, if_true, if_false, List.isEmpty_cons, Bool.false_eq_true,
        reduceCtorEq, exists_false, false_iff, not_and]
      intro _ hw
      exact absurd (hw _ List.mem_cons_self).2 (by omega)
    · simp only [hdeep, hmany, if_false, List.isEmpty_cons, Bool.false_eq_true, map_ok_iff,
        hchildren]
      constructor
      · intro h
        refine ⟨?_, ?_, ?_⟩
        · have hmax : ((t :: ts).map AndOr.nesting).foldr max 0 ≤ maxFilterDepth - (depth + 1) := by
            rw [foldr_max_le_iff]
            intro m hm
            obtain ⟨u, hu, rfl⟩ := List.mem_map.mp hm
            have := (h u hu).1
            omega
          have hfirst := (h t List.mem_cons_self).1
          omega
        · intro w hw
          rcases List.mem_cons.mp hw with rfl | hw
          · exact ⟨by simp, by omega⟩
          · obtain ⟨u, hu, hw⟩ := List.mem_flatMap.mp hw
            exact (h u hu).2.1 w hw
        · intro c hc
          obtain ⟨u, hu, hc⟩ := List.mem_flatMap.mp hc
          exact (h u hu).2.2 c hc
      · rintro ⟨hnest, hwidths, hleaves⟩ u hu
        refine ⟨?_, ?_, ?_⟩
        · have hmax : u.nesting ≤ ((t :: ts).map AndOr.nesting).foldr max 0 :=
            foldr_max_le_iff.mp le_rfl _ (List.mem_map_of_mem hu)
          omega
        · exact fun w hw => hwidths w (List.mem_cons_of_mem _ (List.mem_flatMap.mpr ⟨u, hu, hw⟩))
        · exact fun c hc => hleaves c (List.mem_flatMap.mpr ⟨u, hu, hc⟩)

theorem buildFilterSql_ok_iff {f : Filter F} {depth : ℕ} {params : List QueryParameter} :
    (∃ r, buildFilterSql floats f depth params = .ok r) ↔
      depth + f.nesting ≤ maxFilterDepth ∧ (∀ w ∈ f.widths, 1 ≤ w ∧ w ≤ maxFilterChildren) ∧
        ∀ c ∈ f.leaves, c.Acceptable floats := by
  induction f using AndOr.induct generalizing depth params with
  | leaf c =>
    rw [buildFilterSql, AndOr.nesting_leaf, AndOr.widths_leaf, AndOr.leaves_leaf]
    by_cases hdeep : depth > maxFilterDepth
    · simp only [hdeep, if_true, reduceCtorEq, exists_false, false_iff, not_and]
      intro hle
      omega
    · have hle : depth + 0 ≤ maxFilterDepth := by omega
      by_cases hcol : isValidIdentifier c.column = true
      · simp only [hdeep, hcol, if_true, if_false, buildConditionSql_ok_iff, hle, true_and,
          List.not_mem_nil, false_implies, implies_true, List.forall_mem_singleton]
        exact ⟨fun h => ⟨hcol, h⟩, fun h => h.value⟩
      · simp only [hdeep, hcol, if_false, reduceCtorEq, exists_false, false_iff, not_and,
          List.forall_mem_singleton, Bool.false_eq_true]
        exact fun _ _ h => hcol h.column
  | all ts ih =>
    rw [buildFilterSql, AndOr.nesting_all, AndOr.widths_all, AndOr.leaves_all]
    exact node_ok_iff fun t ht depth params => ih t ht
  | any ts ih =>
    rw [buildFilterSql, AndOr.nesting_any, AndOr.widths_any, AndOr.leaves_any]
    exact node_ok_iff fun t ht depth params => ih t ht

theorem buildQueryString_ok_iff {dataset table : String} {columns : List Column}
    {filter : Option (Filter F)} :
    (∃ r, buildQueryString floats dataset table columns filter = .ok r) ↔
      QueryAcceptable floats columns filter := by
  have hfilter : ∀ f : Filter F, (∃ r, buildFilterSql floats f 0 [] = .ok r) ↔
      FilterAcceptable floats f := by
    intro f
    rw [buildFilterSql_ok_iff, Nat.zero_add]
    exact ⟨fun ⟨h, h', h''⟩ => ⟨h, h', h''⟩, fun h => ⟨h.nesting, h.widths, h.leaves⟩⟩
  unfold buildQueryString
  by_cases hempty : columns = []
  · subst hempty
    simp only [List.isEmpty_nil, if_true, reduceCtorEq, exists_false, false_iff]
    exact fun h => h.nonempty rfl
  rw [if_neg (by simpa using hempty)]
  cases hfind : columns.find? fun c => !isValidIdentifier c.identifier with
  | some c =>
    have hbad := List.find?_some hfind
    have hmem := List.mem_of_find?_eq_some hfind
    simp only [reduceCtorEq, exists_false, false_iff]
    intro h
    rw [h.identifiers c hmem] at hbad
    cases hbad
  | none =>
    have hids : ∀ c ∈ columns, isValidIdentifier c.identifier = true := by
      simpa using List.find?_eq_none.mp hfind
    have hpos : 0 < columns.length := List.length_pos_iff.mpr hempty
    by_cases hagg : ((columns.any fun c => c.function.isSome) &&
        decide (columns.length > 1)) = true
    · simp only [hagg, if_true, reduceCtorEq, exists_false, false_iff]
      intro h
      rw [Bool.and_eq_true, List.any_eq_true, decide_eq_true_iff] at hagg
      have := h.aggregate hagg.1
      omega
    · rw [if_neg hagg]
      have hone : (∃ c ∈ columns, c.function.isSome = true) → columns.length = 1 := by
        intro hex
        by_contra hne
        apply hagg
        rw [Bool.and_eq_true, List.any_eq_true, decide_eq_true_iff]
        exact ⟨hex, by omega⟩
      cases filter with
      | none =>
        refine ⟨fun _ => ⟨hempty, hids, hone, fun f hf => (by cases hf)⟩, fun _ => ⟨_, rfl⟩⟩
      | some f =>
        simp only [map_ok_iff, hfilter]
        constructor
        · intro h
          exact ⟨hempty, hids, hone, fun g hg => by cases hg; exact h⟩
        · exact fun h => h.filter f rfl

end accepted
end PlaidRuntime.BigQuery
