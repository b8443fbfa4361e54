import PlaidRuntime.BigQuery

/-!
# What a built query says

The text and the parameters that `build_query_string` returns, read as SQL: the condition has
the value of the filter, and each placeholder stands for the value of its condition.
-/
namespace PlaidRuntime.BigQuery
open AndOrTree SqlText

variable {F : Type} (floats : Floats F)

def Operator.comparison : Operator → Comparison
  | .eq => .eq
  | .ne => .ne
  | .lt => .lt
  | .le => .le
  | .gt => .gt
  | .ge => .ge
  | .like => .like
  | .isNull => .isNull
  | .isNotNull => .isNotNull

/-- The type and the text under which a value is sent. -/
def FilterValue.typed : FilterValue F → String × Option String
  | .string s => ("STRING", some s)
  | .integer n => ("INT64", some (toString n))
  | .float f => ("FLOAT64", some (floats.toString f))
  | .boolean b => ("BOOL", some (toString b))
  | .timestamp t => ("TIMESTAMP", some t)
  | .null => ("STRING", none)

/-- A comparison of a column with a value, if it takes one. -/
structure Test where
  column : String
  comparison : Comparison
  value : Option (String × Option String)
  deriving DecidableEq, Repr

def Condition.test (c : Condition F) : Test :=
  ⟨c.column, c.operator.comparison,
    if c.operator.takesValue then some (c.value.typed floats) else none⟩

/-- What is bound to a name. -/
def bound (params : List QueryParameter) (name : String) : Option (String × Option String) :=
  (params.find? fun p => p.name = some name).map fun p => (p.parameterType, p.parameterValue)

/-- A comparison in the text, with the value that its placeholder stands for. -/
def atomTest (params : List QueryParameter) (a : Atom) : Test :=
  ⟨a.column, a.comparison, a.placeholder.bind (bound params)⟩

/-- One parameter for each condition that takes a value, numbered from `n`. -/
def conditionParams (n : ℕ) (cs : List (Condition F)) : List QueryParameter :=
  ((cs.filter fun c => c.operator.takesValue).zipIdx n).map fun e =>
    ⟨some (paramName e.2), (e.1.value.typed floats).1, (e.1.value.typed floats).2⟩

/-- The i-th parameter has the i-th name. -/
def Numbered (params : List QueryParameter) : Prop :=
  ∀ i p, params[i]? = some p → p.name = some (paramName i)

section parameters

theorem paramName_injective {m n : ℕ} (h : paramName m = paramName n) : m = n := by
  have hs : (toString m).toList = (toString n).toList := by
    have := congrArg String.toList h
    simpa [paramName, String.toList_append] using this
  have hm := Nat.ofDigitChars_ten_toDigits (n := m)
  have hn := Nat.ofDigitChars_ten_toDigits (n := n)
  rw [Nat.toString_eq_repr, Nat.toString_eq_repr, Nat.toList_repr, Nat.toList_repr] at hs
  rw [← hm, hs, hn]

theorem paramName_isName (n : ℕ) : IsName (paramName n) := by
  intro c hc
  rw [paramName, String.toList_append, Nat.toString_eq_repr, Nat.toList_repr] at hc
  rcases List.mem_append.mp hc with hc | hc
  · obtain rfl : c = 'p' := by simpa using hc
    decide
  · have hdigit : c.isDigit = true := Nat.isDigit_of_mem_toDigits (by decide) (by decide) hc
    simp [isWordChar, Char.isAlphanum, hdigit]

variable {floats} {params : List QueryParameter} {cs ds : List (Condition F)} {n : ℕ}

theorem conditionParams_append :
    conditionParams floats n (cs ++ ds) = conditionParams floats n cs ++
      conditionParams floats (n + (conditionParams floats n cs).length) ds := by
  simp [conditionParams, List.filter_append, List.zipIdx_append]

theorem Numbered.bound (h : Numbered params) {i : ℕ} {p : QueryParameter}
    (hp : params[i]? = some p) :
    bound params (paramName i) = some (p.parameterType, p.parameterValue) := by
  have hfind : params.find? (fun q => q.name = some (paramName i)) = some p := by
    obtain ⟨hi, hget⟩ := List.getElem?_eq_some_iff.mp hp
    rw [List.find?_eq_some_iff_getElem]
    refine ⟨by simpa using h i p hp, i, hi, hget, fun j hj => ?_⟩
    have hname := h j params[j] (List.getElem?_eq_getElem (hj.trans hi))
    simp only [hname, Option.some.injEq, Bool.not_eq_true', decide_eq_false_iff_not]
    exact fun he => absurd (paramName_injective he) (by omega)
  rw [BigQuery.bound, hfind]
  rfl

theorem numbered_conditionParams (cs : List (Condition F)) :
    Numbered (conditionParams floats 0 cs) := by
  intro i p hp
  simp only [conditionParams, List.getElem?_map, List.getElem?_zipIdx, Option.map_map,
    Option.map_eq_some_iff, Function.comp_apply, Nat.zero_add] at hp
  obtain ⟨c, -, rfl⟩ := hp
  rfl

theorem names_conditionParams (cs : List (Condition F)) :
    (conditionParams floats 0 cs).filterMap (·.name) =
      (List.range (conditionParams floats 0 cs).length).map paramName := by
  have hmap : (conditionParams floats 0 cs).filterMap (·.name) =
      (((cs.filter fun c => c.operator.takesValue).zipIdx 0).map Prod.snd).map paramName := by
    rw [conditionParams, List.filterMap_map, List.map_map]
    exact congrFun (List.filterMap_eq_map' (f := fun e : Condition F × ℕ => paramName e.2)) _
  rw [hmap, List.zipIdx_map_snd, List.range_eq_range', conditionParams, List.length_map,
    List.length_zipIdx]

end parameters

/-- The comparisons of the text, as a tree: it is read token by token, has the shape of the
filter, and its placeholders are bound to the values of the filter. -/
structure Written (f : Filter F) (params params' : List QueryParameter) (text : String)
    (t : AndOr Atom) : Prop where
  lexes : Lexes text (t.render.flatMap itemTokens)
  widths : t.widths = f.widths
  wellFormed : ∀ a ∈ t.leaves, a.WellFormed
  pushed : params' = params ++ conditionParams floats params.length f.leaves
  names : t.leaves.flatMap (fun a => a.placeholder.toList) =
    (conditionParams floats params.length f.leaves).filterMap (·.name)
  tests : ∀ all, Numbered all → params' <+: all →
    t.map (atomTest all) = f.map (Condition.test floats)

/-- The same of a list of children. -/
structure AllWritten (fs : List (Filter F)) (params params' : List QueryParameter)
    (parts : List String) (ts : List (AndOr Atom)) : Prop where
  lexes : List.Forall₂ Lexes parts (ts.map fun t => t.render.flatMap itemTokens)
  widths : ts.map AndOr.widths = fs.map AndOr.widths
  wellFormed : ∀ t ∈ ts, ∀ a ∈ t.leaves, a.WellFormed
  pushed : params' = params ++ conditionParams floats params.length (fs.flatMap AndOr.leaves)
  names : (ts.flatMap AndOr.leaves).flatMap (fun a => a.placeholder.toList) =
    (conditionParams floats params.length (fs.flatMap AndOr.leaves)).filterMap (·.name)
  tests : ∀ all, Numbered all → params' <+: all →
    ts.map (AndOr.map (atomTest all)) = fs.map (AndOr.map (Condition.test floats))

section writing
variable {floats} {params params' : List QueryParameter} {text : String}

theorem isName_of_isValidIdentifier {s : String} (h : isValidIdentifier s = true) : IsName s := by
  unfold isValidIdentifier at h
  rw [Bool.and_eq_true, List.all_eq_true] at h
  exact h.2

theorem scalarValue_ok {v : FilterValue F} {r : String × Option String}
    (h : scalarValue floats v = .ok r) : r = v.typed floats := by
  cases v with
  | float f =>
    simp only [scalarValue] at h
    split_ifs at h
    cases h
    rfl
  | _ =>
    cases h
    rfl

theorem pushValueParam_ok {v : FilterValue F} {placeholder : String}
    (h : pushValueParam floats v params = .ok (placeholder, params')) :
    placeholder = "@" ++ paramName params.length ∧
      params' = params ++ [⟨some (paramName params.length), (v.typed floats).1,
        (v.typed floats).2⟩] := by
  unfold pushValueParam at h
  cases hs : scalarValue floats v with
  | error e =>
    rw [hs] at h
    cases h
  | ok r =>
    rw [hs] at h
    cases h
    rw [← scalarValue_ok hs]
    exact ⟨rfl, rfl⟩

theorem map_ok {ε α β : Type} {x : Except ε α} {f : α → β} {b : β} (h : x.map f = .ok b) :
    ∃ a, x = .ok a ∧ f a = b := by
  cases x with
  | error e => cases h
  | ok a =>
    cases h
    exact ⟨a, rfl, rfl⟩

/-- A comparison with a placeholder. -/
theorem written_compare {c : Condition F} {opStr : String} (tokens : List Token)
    (hcol : isValidIdentifier c.column = true) (htakes : c.operator.takesValue = true)
    (hcmp : c.operator.comparison.takesValue = true)
    (hop : Closed (" " ++ opStr ++ " ") tokens)
    (htokens : ∀ p, c.operator.comparison.tokens (some p) = tokens ++ [.param p])
    (h : compareSql floats ("`" ++ c.column ++ "`") opStr c.value params = .ok (text, params')) :
    ∃ t, Written floats (.leaf c) params params' text t := by
  obtain ⟨⟨placeholder, _⟩, hpush, heq⟩ := map_ok h
  cases heq
  obtain ⟨rfl, rfl⟩ := pushValueParam_ok hpush
  have hname := isName_of_isValidIdentifier hcol
  have hparam := lexes_param (paramName_isName params.length)
  have hnew : conditionParams floats params.length [c] =
      [⟨some (paramName params.length), (c.value.typed floats).1, (c.value.typed floats).2⟩] := by
    simp [conditionParams, htakes]
  refine ⟨.leaf ⟨c.column, c.operator.comparison, some (paramName params.length)⟩,
    ?_, rfl, ?_, ?_, ?_, ?_⟩
  · have hlex := ((closed_quoted hname).append hop).append_lexes hparam
    simpa [itemTokens, htokens] using hlex
  · intro a ha
    obtain rfl := List.mem_singleton.mp ha
    exact hcmp.symm
  · rw [AndOr.leaves_leaf, hnew]
  · rw [AndOr.leaves_leaf, AndOr.leaves_leaf, hnew]
    rfl
  · intro all hall hprefix
    have hget : all[params.length]? =
        some ⟨some (paramName params.length), (c.value.typed floats).1,
          (c.value.typed floats).2⟩ := by
      obtain ⟨rest, rfl⟩ := hprefix
      simp
    rw [AndOr.map_leaf, AndOr.map_leaf, atomTest, Condition.test, Option.bind_some,
      hall.bound hget, if_pos htakes]

/-- A comparison without a value. -/
theorem written_null {c : Condition F} {suffix : String}
    (hcol : isValidIdentifier c.column = true) (htakes : c.operator.takesValue = false)
    (hcmp : c.operator.comparison.takesValue = false)
    (hop : Lexes suffix (c.operator.comparison.tokens none)) :
    ∃ t, Written floats (.leaf c) params params ("`" ++ c.column ++ "`" ++ suffix) t := by
  have hname := isName_of_isValidIdentifier hcol
  have hnew : conditionParams floats params.length [c] = [] := by
    simp [conditionParams, htakes]
  refine ⟨.leaf ⟨c.column, c.operator.comparison, none⟩, ?_, rfl, ?_, ?_, ?_, ?_⟩
  · have hlex := (closed_quoted hname).append_lexes hop
    simpa [itemTokens] using hlex
  · intro a ha
    obtain rfl := List.mem_singleton.mp ha
    exact hcmp.symm
  · rw [AndOr.leaves_leaf, hnew, List.append_nil]
  · rw [AndOr.leaves_leaf, AndOr.leaves_leaf, hnew]
    rfl
  · intro all _ _
    rw [AndOr.map_leaf, AndOr.map_leaf, atomTest, Condition.test, Option.bind_none,
      if_neg (by simp [htakes])]

theorem closed_is : Closed " IS " [.word "IS"] := fun _ => rfl

theorem closed_isNot : Closed " IS NOT " [.word "IS", .word "NOT"] := fun _ => rfl

theorem lexes_null : Lexes "NULL" [.word "NULL"] :=
  lexes_word (List.all_eq_true.mp rfl) (by decide)

theorem written_condition {c : Condition F} (hcol : isValidIdentifier c.column = true)
    (h : buildConditionSql floats c params = .ok (text, params')) :
    ∃ t, Written floats (.leaf c) params params' text t := by
  rcases c with ⟨column, op, value⟩
  cases op with
  | isNull =>
    cases h
    exact written_null hcol rfl rfl (closed_is.append_lexes lexes_null)
  | isNotNull =>
    cases h
    exact written_null hcol rfl rfl (closed_isNot.append_lexes lexes_null)
  | eq => exact written_compare [.op "="] hcol rfl rfl (fun _ => rfl) (fun _ => rfl) h
  | ne => exact written_compare [.op "!="] hcol rfl rfl (fun _ => rfl) (fun _ => rfl) h
  | lt => exact written_compare [.op "<"] hcol rfl rfl (fun _ => rfl) (fun _ => rfl) h
  | le => exact written_compare [.op "<="] hcol rfl rfl (fun _ => rfl) (fun _ => rfl) h
  | gt => exact written_compare [.op ">"] hcol rfl rfl (fun _ => rfl) (fun _ => rfl) h
  | ge => exact written_compare [.op ">="] hcol rfl rfl (fun _ => rfl) (fun _ => rfl) h
  | like => exact written_compare [.word "LIKE"] hcol rfl rfl (fun _ => rfl) (fun _ => rfl) h

/-- The children are written one after the other, each with its own parameters. -/
theorem written_children {fs : List (Filter F)} {depth : ℕ} {parts : List String}
    (ih : ∀ f ∈ fs, ∀ params params' text,
      buildFilterSql floats f depth params = .ok (text, params') →
      ∃ t, Written floats f params params' text t)
    (h : buildChildren floats fs depth params = .ok (parts, params')) :
    ∃ ts, AllWritten floats fs params params' parts ts := by
  induction fs generalizing params parts with
  | nil =>
    rw [buildChildren] at h
    cases h
    refine ⟨[], .nil, rfl, fun t ht => absurd ht List.not_mem_nil, ?_, rfl, fun _ _ _ => rfl⟩
    simp [conditionParams]
  | cons f fs ihs =>
    rw [buildChildren] at h
    cases hf : buildFilterSql floats f depth params with
    | error e =>
      rw [hf] at h
      cases h
    | ok first =>
      rcases first with ⟨text, middle⟩
      rw [hf] at h
      obtain ⟨⟨rest, _⟩, hrest, heq⟩ := map_ok h
      cases heq
      obtain ⟨t, ht⟩ := ih f List.mem_cons_self _ _ _ hf
      obtain ⟨ts, hts⟩ := ihs (fun g hg => ih g (List.mem_cons_of_mem f hg)) hrest
      have hlength : middle.length =
          params.length + (conditionParams floats params.length f.leaves).length := by
        rw [ht.pushed, List.length_append]
      refine ⟨t :: ts, ?_, ?_, ?_, ?_, ?_, ?_⟩
      · exact .cons ht.lexes hts.lexes
      · rw [List.map_cons, List.map_cons, ht.widths, hts.widths]
      · exact List.forall_mem_cons.mpr ⟨ht.wellFormed, hts.wellFormed⟩
      · rw [hts.pushed, hlength, ht.pushed, List.flatMap_cons, conditionParams_append,
          List.append_assoc]
      · rw [List.flatMap_cons, List.flatMap_cons, List.flatMap_append, conditionParams_append,
          List.filterMap_append, ht.names, hts.names, hlength]
      · intro all hall hprefix
        have hmiddle : middle <+: all := by
          rw [hts.pushed] at hprefix
          exact (List.prefix_append _ _).trans hprefix
        rw [List.map_cons, List.map_cons, ht.tests all hall hmiddle, hts.tests all hall hprefix]

theorem closed_punct_open : Closed "(" [.punct '('] := fun _ => rfl

theorem closed_punct_close : Closed ")" [.punct ')'] := fun _ => rfl

theorem delimited_close : Delimited ")".toList := by
  intro c hc
  cases hc
  decide

/-- The text of an inner node is the joined texts of its children in parentheses. -/
theorem lexes_node {parts : List String} {ts : List (AndOr Atom)} {sep : String} {i : Item Atom}
    (hc : Closed sep (itemTokens i)) (hd : Delimited sep.toList) (hne : sep.toList ≠ [])
    (h : List.Forall₂ Lexes parts (ts.map fun t => t.render.flatMap itemTokens)) :
    Lexes ("(" ++ joinText sep parts ++ ")")
      ((Item.lparen :: joined [i] (ts.map AndOr.render) ++ [Item.rparen]).flatMap itemTokens) := by
  have hjoin := lexes_joinText hc hd hne h
  have hnode := (closed_punct_open.append_lexes hjoin).append_closed delimited_close (by decide)
    closed_punct_close
  have htokens : (Item.lparen :: joined [i] (ts.map AndOr.render) ++ [Item.rparen]).flatMap
      itemTokens =
      [.punct '('] ++ joined (itemTokens i) (ts.map fun t => t.render.flatMap itemTokens) ++
        [.punct ')'] := by
    rw [List.flatMap_append, List.flatMap_cons, flatMap_joined, List.map_map]
    simp [itemTokens, Function.comp_def]
  rw [htokens]
  exact hnode.lexes

theorem closed_and : Closed " AND " (itemTokens .and) := fun _ => rfl

theorem closed_or : Closed " OR " (itemTokens .or) := fun _ => rfl

theorem delimited_and : Delimited " AND ".toList := by
  intro c hc
  cases hc
  decide

theorem delimited_or : Delimited " OR ".toList := by
  intro c hc
  cases hc
  decide

theorem widths_eq {ts : List (AndOr Atom)} {fs : List (Filter F)}
    (h : ts.map AndOr.widths = fs.map AndOr.widths) :
    ts.length :: ts.flatMap AndOr.widths = fs.length :: fs.flatMap AndOr.widths := by
  have hlength : ts.length = fs.length := by simpa using congrArg List.length h
  rw [hlength, List.flatMap_def, List.flatMap_def, h]

/-- An inner node is written when its children are. -/
theorem AllWritten.node {fs : List (Filter F)} {parts : List String} {ts : List (AndOr Atom)}
    (h : AllWritten floats fs params params' parts ts)
    (node : ∀ β : Type, List (AndOr β) → AndOr β)
    (hleaves : ∀ β ts, (node β ts).leaves = ts.flatMap AndOr.leaves)
    (hwidths : ∀ β ts, (node β ts).widths = ts.length :: ts.flatMap AndOr.widths)
    (hmap : ∀ (β γ : Type) (g : β → γ) ts, (node β ts).map g = node γ (ts.map (AndOr.map g)))
    (hlexes : Lexes text ((node Atom ts).render.flatMap itemTokens)) :
    Written floats (node _ fs) params params' text (node _ ts) := by
  refine ⟨hlexes, ?_, ?_, ?_, ?_, ?_⟩
  · rw [hwidths, hwidths]
    exact widths_eq h.widths
  · intro a ha
    rw [hleaves] at ha
    obtain ⟨t, ht, ha⟩ := List.mem_flatMap.mp ha
    exact h.wellFormed t ht a ha
  · rw [hleaves]
    exact h.pushed
  · rw [hleaves, hleaves]
    exact h.names
  · intro all hall hprefix
    rw [hmap, hmap, h.tests all hall hprefix]

/-- Every filter that is built is written as a tree of its shape. -/
theorem written_filter (f : Filter F) {depth : ℕ}
    (h : buildFilterSql floats f depth params = .ok (text, params')) :
    ∃ t, Written floats f params params' text t := by
  induction f using AndOr.induct generalizing depth params params' text with
  | leaf c =>
    rw [buildFilterSql] at h
    split_ifs at h with hdeep hcol
    exact written_condition hcol h
  | all fs ih =>
    rw [buildFilterSql] at h
    split_ifs at h with hdeep hempty hmany
    obtain ⟨⟨parts, _⟩, hchildren, heq⟩ := map_ok h
    cases heq
    obtain ⟨ts, hts⟩ := written_children (fun g hg _ _ _ => ih g hg) hchildren
    refine ⟨.all ts, hts.node (fun _ => .all) (fun _ => AndOr.leaves_all)
      (fun _ => AndOr.widths_all) (fun _ _ g ts => AndOr.map_all ts g) ?_⟩
    rw [AndOr.render_all]
    exact lexes_node closed_and delimited_and (by decide) hts.lexes
  | any fs ih =>
    rw [buildFilterSql] at h
    split_ifs at h with hdeep hempty hmany
    obtain ⟨⟨parts, _⟩, hchildren, heq⟩ := map_ok h
    cases heq
    obtain ⟨ts, hts⟩ := written_children (fun g hg _ _ _ => ih g hg) hchildren
    refine ⟨.any ts, hts.node (fun _ => .any) (fun _ => AndOr.leaves_any)
      (fun _ => AndOr.widths_any) (fun _ _ g ts => AndOr.map_any ts g) ?_⟩
    rw [AndOr.render_any]
    exact lexes_node closed_or delimited_or (by decide) hts.lexes

end writing

/-! The query up to its condition. -/
section select

def columnTokens (c : Column) : List Token :=
  match c.function with
  | none => [.quoted c.identifier]
  | some f => [.word f.display, .punct '('] ++ [.quoted c.identifier] ++ [.punct ')']

def selectTokens (dataset table : String) (columns : List Column) : List Token :=
  [.word "SELECT"] ++ joined [.punct ','] (columns.map columnTokens) ++ [.word "FROM"] ++
    [.quoted dataset] ++ [.punct '.'] ++ [.quoted table]

variable {dataset table : String} {columns : List Column}

theorem closed_column {c : Column} (h : isValidIdentifier c.identifier = true) :
    Closed (columnText c) (columnTokens c) := by
  have hname := closed_quoted (isName_of_isValidIdentifier h)
  unfold columnText columnTokens
  cases c.function with
  | none => exact hname
  | some f =>
    have hopen : Closed (f.display ++ "(") [.word f.display, .punct '('] := by
      cases f <;> exact fun _ => rfl
    exact (hopen.append hname).append closed_punct_close

theorem delimited_from : Delimited " FROM ".toList := by
  intro c hc
  cases hc
  decide

theorem delimited_comma : Delimited ", ".toList := by
  intro c hc
  cases hc
  decide

theorem closed_selectFrom (hd : isValidIdentifier dataset = true)
    (ht : isValidIdentifier table = true)
    (hc : ∀ c ∈ columns, isValidIdentifier c.identifier = true) :
    Closed (selectFrom dataset table columns) (selectTokens dataset table columns) := by
  have hselect : Closed "SELECT " [.word "SELECT"] := fun _ => rfl
  have hfrom : Closed " FROM " [.word "FROM"] := fun _ => rfl
  have hdot : Closed "." [.punct '.'] := fun _ => rfl
  have hcomma : Closed ", " [.punct ','] := fun _ => rfl
  have hcolumns : List.Forall₂ Lexes (columns.map columnText) (columns.map columnTokens) := by
    rw [List.forall₂_map_left_iff, List.forall₂_map_right_iff, List.forall₂_same]
    exact fun c hmem => (closed_column (hc c hmem)).lexes
  have hjoin := lexes_joinText hcomma delimited_comma (by decide) hcolumns
  have hlist := (hselect.append_lexes hjoin).append_closed delimited_from (by decide) hfrom
  have hdataset := closed_quoted (isName_of_isValidIdentifier hd)
  have htable := closed_quoted (isName_of_isValidIdentifier ht)
  exact ((hlist.append hdataset).append hdot).append htable

theorem mem_joined {γ : Type} {sep : List γ} {ls : List (List γ)} {x : γ}
    (h : x ∈ joined sep ls) : x ∈ sep ∨ ∃ l ∈ ls, x ∈ l := by
  cases ls with
  | nil => cases h
  | cons l ls =>
    rcases List.mem_append.mp h with h | h
    · exact Or.inr ⟨l, List.mem_cons_self, h⟩
    · obtain ⟨m, hm, h⟩ := List.mem_flatMap.mp h
      rcases List.mem_append.mp h with h | h
      · exact Or.inl h
      · exact Or.inr ⟨m, List.mem_cons_of_mem l hm, h⟩

/-- Neither the keyword of a condition nor a placeholder comes before it. -/
theorem mem_selectTokens {t : Token} (h : t ∈ selectTokens dataset table columns) :
    t ≠ .word "WHERE" ∧ t.param? = none := by
  have hcolumn : ∀ c : Column, ∀ t ∈ columnTokens c, t ≠ .word "WHERE" ∧ t.param? = none := by
    intro c t ht
    unfold columnTokens at ht
    cases hf : c.function with
    | none =>
      rw [hf] at ht
      obtain rfl := List.mem_singleton.mp ht
      exact ⟨Token.noConfusion, rfl⟩
    | some f =>
      rw [hf] at ht
      simp only [List.mem_append, List.mem_cons, List.not_mem_nil, or_false] at ht
      rcases ht with ((rfl | rfl) | rfl) | rfl
      · cases f <;> exact ⟨by decide, rfl⟩
      · exact ⟨Token.noConfusion, rfl⟩
      · exact ⟨Token.noConfusion, rfl⟩
      · exact ⟨Token.noConfusion, rfl⟩
  simp only [selectTokens, List.mem_append, List.mem_singleton] at h
  rcases h with ((((rfl | h) | rfl) | rfl) | rfl) | rfl
  · exact ⟨by decide, rfl⟩
  · rcases mem_joined h with h | ⟨l, hl, h⟩
    · obtain rfl := List.mem_singleton.mp h
      exact ⟨Token.noConfusion, rfl⟩
    · obtain ⟨c, -, rfl⟩ := List.mem_map.mp hl
      exact hcolumn c t h
  · exact ⟨by decide, rfl⟩
  · exact ⟨Token.noConfusion, rfl⟩
  · exact ⟨Token.noConfusion, rfl⟩
  · exact ⟨Token.noConfusion, rfl⟩

end select

/-! The text does not depend on the values. -/
section values

/-- Column and operator of a condition. -/
def Condition.blank (c : Condition F) : String × Operator := (c.column, c.operator)

variable {floats} {params params' final final' : List QueryParameter} {text text' : String}

theorem compareSql_ok {col opStr : String} {v : FilterValue F}
    (h : compareSql floats col opStr v params = .ok (text, final)) :
    text = col ++ (" " ++ opStr ++ " ") ++ ("@" ++ paramName params.length) ∧
      final.length = params.length + 1 := by
  obtain ⟨⟨placeholder, _⟩, hpush, heq⟩ := map_ok h
  cases heq
  obtain ⟨rfl, rfl⟩ := pushValueParam_ok hpush
  exact ⟨rfl, List.length_append⟩

theorem buildConditionSql_text {c c' : Condition F} (hblank : c.blank = c'.blank)
    (hlength : params.length = params'.length)
    (h : buildConditionSql floats c params = .ok (text, final))
    (h' : buildConditionSql floats c' params' = .ok (text', final')) :
    text = text' ∧ final.length = final'.length := by
  rcases c with ⟨column, op, value⟩
  rcases c' with ⟨column', op', value'⟩
  obtain ⟨rfl, rfl⟩ := Prod.mk.inj hblank
  cases op with
  | isNull =>
    cases h
    cases h'
    exact ⟨rfl, hlength⟩
  | isNotNull =>
    cases h
    cases h'
    exact ⟨rfl, hlength⟩
  | _ =>
    obtain ⟨htext, hfinal⟩ := compareSql_ok h
    obtain ⟨htext', hfinal'⟩ := compareSql_ok h'
    rw [htext, htext', hfinal, hfinal', hlength]
    exact ⟨rfl, rfl⟩

theorem buildChildren_text {fs fs' : List (Filter F)} {depth : ℕ} {parts parts' : List String}
    (ih : ∀ f ∈ fs, ∀ (f' : Filter F) (params params' final final' : List QueryParameter)
      (text text' : String), f.map Condition.blank = f'.map Condition.blank →
      params.length = params'.length →
      buildFilterSql floats f depth params = .ok (text, final) →
      buildFilterSql floats f' depth params' = .ok (text', final') →
      text = text' ∧ final.length = final'.length)
    (hblank : fs.map (AndOr.map Condition.blank) = fs'.map (AndOr.map Condition.blank))
    (hlength : params.length = params'.length)
    (h : buildChildren floats fs depth params = .ok (parts, final))
    (h' : buildChildren floats fs' depth params' = .ok (parts', final')) :
    parts = parts' ∧ final.length = final'.length := by
  induction fs generalizing fs' params params' parts parts' with
  | nil =>
    obtain rfl : fs' = [] := List.map_eq_nil_iff.mp hblank.symm
    rw [buildChildren] at h h'
    cases h
    cases h'
    exact ⟨rfl, hlength⟩
  | cons f fs ihs =>
    cases fs' with
    | nil => cases hblank
    | cons f' fs' =>
      obtain ⟨hf, hfs⟩ := List.cons.inj hblank
      rw [buildChildren] at h h'
      cases hb : buildFilterSql floats f depth params with
      | error e =>
        rw [hb] at h
        cases h
      | ok first =>
        cases hb' : buildFilterSql floats f' depth params' with
        | error e =>
          rw [hb'] at h'
          cases h'
        | ok first' =>
          rw [hb] at h
          rw [hb'] at h'
          obtain ⟨⟨rest, _⟩, hrest, heq⟩ := map_ok h
          obtain ⟨⟨rest', _⟩, hrest', heq'⟩ := map_ok h'
          cases heq
          cases heq'
          obtain ⟨htext, hmiddle⟩ := ih f List.mem_cons_self f' _ _ _ _ _ _ hf hlength hb hb'
          obtain ⟨hparts, hfinal⟩ := ihs (fun g hg => ih g (List.mem_cons_of_mem f hg)) hfs
            hmiddle hrest hrest'
          rw [htext, hparts]
          exact ⟨rfl, hfinal⟩

/-- Filters of one shape over the same columns and operators have the same text. -/
theorem buildFilterSql_text (f : Filter F) {f' : Filter F} {depth : ℕ}
    (hblank : f.map Condition.blank = f'.map Condition.blank)
    (hlength : params.length = params'.length)
    (h : buildFilterSql floats f depth params = .ok (text, final))
    (h' : buildFilterSql floats f' depth params' = .ok (text', final')) :
    text = text' ∧ final.length = final'.length := by
  induction f using AndOr.induct
    generalizing f' depth params params' final final' text text' with
  | leaf c =>
    cases f' with
    | leaf c' =>
      rw [buildFilterSql] at h h'
      split_ifs at h h'
      exact buildConditionSql_text (AndOr.leaf.inj hblank) hlength h h'
    | all ts =>
      rw [AndOr.map_all] at hblank
      cases hblank
    | any ts =>
      rw [AndOr.map_any] at hblank
      cases hblank
  | all fs ih =>
    cases f' with
    | leaf c =>
      rw [AndOr.map_all] at hblank
      cases hblank
    | any ts =>
      rw [AndOr.map_all, AndOr.map_any] at hblank
      cases hblank
    | all fs' =>
      rw [AndOr.map_all, AndOr.map_all] at hblank
      rw [buildFilterSql] at h h'
      split_ifs at h h'
      obtain ⟨⟨parts, _⟩, hchildren, heq⟩ := map_ok h
      obtain ⟨⟨parts', _⟩, hchildren', heq'⟩ := map_ok h'
      cases heq
      cases heq'
      obtain ⟨rfl, hfinal⟩ := buildChildren_text
        (fun f hf f' _ _ _ _ _ _ => ih f hf) (AndOr.all.inj hblank) hlength hchildren hchildren'
      exact ⟨rfl, hfinal⟩
  | any fs ih =>
    cases f' with
    | leaf c =>
      rw [AndOr.map_any] at hblank
      cases hblank
    | all ts =>
      rw [AndOr.map_any, AndOr.map_all] at hblank
      cases hblank
    | any fs' =>
      rw [AndOr.map_any, AndOr.map_any] at hblank
      rw [buildFilterSql] at h h'
      split_ifs at h h'
      obtain ⟨⟨parts, _⟩, hchildren, heq⟩ := map_ok h
      obtain ⟨⟨parts', _⟩, hchildren', heq'⟩ := map_ok h'
      cases heq
      cases heq'
      obtain ⟨rfl, hfinal⟩ := buildChildren_text
        (fun f hf f' _ _ _ _ _ _ => ih f hf) (AndOr.any.inj hblank) hlength hchildren hchildren'
      exact ⟨rfl, hfinal⟩

end values

/-- The conditions of a filter, from left to right. -/
def conditions (filter : Option (Filter F)) : List (Condition F) := filter.elim [] AndOr.leaves

/-- The placeholders number the parameters, these are the values of the conditions in order, and
the condition of the query is true, false or unknown whenever the filter is. -/
structure Faithful (filter : Option (Filter F)) (sql : String) (params : List QueryParameter) :
    Prop where
  placeholders : placeholders sql = (List.range params.length).map paramName
  values : params = conditionParams floats 0 (conditions filter)
  unfiltered : filter = none → whereClause sql = none
  filtered : ∀ f, filter = some f → ∃ e, whereClause sql = some e ∧
    e.atoms.map (atomTest params) = f.leaves.map (Condition.test floats) ∧
    ∀ row : Test → Truth, e.eval (row ∘ atomTest params) = f.eval (row ∘ Condition.test floats)

section correct
variable {floats} {dataset table : String} {columns : List Column} {filter : Option (Filter F)}
  {sql : String} {params : List QueryParameter}

/-- A built query is the selection, and the condition when there is a filter. -/
theorem buildQueryString_cases
    (h : buildQueryString floats dataset table columns filter = .ok (sql, params)) :
    filter = none ∧ sql = selectFrom dataset table columns ∧ params = [] ∨
      ∃ f clause, filter = some f ∧ buildFilterSql floats f 0 [] = .ok (clause, params) ∧
        sql = selectFrom dataset table columns ++ " WHERE " ++ clause := by
  unfold buildQueryString at h
  by_cases hempty : columns.isEmpty = true
  · rw [if_pos hempty] at h
    cases h
  rw [if_neg hempty] at h
  cases hfind : columns.find? fun c => !isValidIdentifier c.identifier with
  | some c =>
    rw [hfind] at h
    cases h
  | none =>
    simp only [hfind] at h
    split_ifs at h
    cases filter with
    | none =>
      cases h
      exact Or.inl ⟨rfl, rfl, rfl⟩
    | some f =>
      obtain ⟨⟨clause, _⟩, hbuild, heq⟩ := map_ok h
      cases heq
      exact Or.inr ⟨f, clause, rfl, hbuild, rfl⟩

theorem selectTokens_no_params :
    (selectTokens dataset table columns).filterMap Token.param? = [] :=
  List.filterMap_eq_nil_iff.mpr fun _ ht => (mem_selectTokens ht).2

theorem faithful_unfiltered (hd : isValidIdentifier dataset = true)
    (ht : isValidIdentifier table = true)
    (hc : ∀ c ∈ columns, isValidIdentifier c.identifier = true) :
    Faithful floats (none : Option (Filter F)) (selectFrom dataset table columns) [] := by
  have hlex := (closed_selectFrom hd ht hc).lexes.lex
  refine ⟨?_, rfl, fun _ => ?_, fun f hf => (by cases hf)⟩
  · rw [SqlText.placeholders, hlex, selectTokens_no_params]
    rfl
  · have hdrop : (selectTokens dataset table columns).dropWhile (· ≠ .word "WHERE") = [] :=
      List.dropWhile_eq_nil_iff.mpr fun t ht => decide_eq_true (mem_selectTokens ht).1
    rw [whereClause, hlex, hdrop]

theorem faithful_filtered {f : Filter F} {clause : String}
    (hd : isValidIdentifier dataset = true) (ht : isValidIdentifier table = true)
    (hc : ∀ c ∈ columns, isValidIdentifier c.identifier = true)
    (hw : ∀ w ∈ f.widths, 1 ≤ w) (h : buildFilterSql floats f 0 [] = .ok (clause, params)) :
    Faithful floats (some f) (selectFrom dataset table columns ++ " WHERE " ++ clause)
      params := by
  obtain ⟨t, hwritten⟩ := written_filter f h
  have hpushed : params = conditionParams floats 0 f.leaves := hwritten.pushed
  have hwhere : Closed " WHERE " [.word "WHERE"] := fun _ => rfl
  have hlex := (((closed_selectFrom hd ht hc).append hwhere).append_lexes hwritten.lexes).lex
  rw [List.append_assoc, List.singleton_append] at hlex
  have hatoms : ∀ a ∈ t.render.filterMap Item.atom?, a.WellFormed := by
    rw [t.render_atoms]
    exact hwritten.wellFormed
  refine ⟨?_, hpushed, fun hf => (by cases hf), fun g hg => ?_⟩
  · rw [placeholders_of_lex selectTokens_no_params hlex hatoms, t.render_atoms, hwritten.names,
      hpushed]
    exact names_conditionParams f.leaves
  · cases hg
    have hselect : .word "WHERE" ∉ selectTokens dataset table columns :=
      fun hmem => (mem_selectTokens hmem).1 rfl
    obtain ⟨e, hparse, heatoms, heval⟩ := parse_render t (by rwa [hwritten.widths])
    have htests : t.map (atomTest params) = f.map (Condition.test floats) := by
      apply hwritten.tests params _ (List.prefix_refl params)
      rw [hpushed]
      exact numbered_conditionParams f.leaves
    refine ⟨e, (whereClause_of_lex hselect hlex hatoms).trans hparse, ?_, fun row => ?_⟩
    · rw [heatoms, ← AndOr.leaves_map, htests, AndOr.leaves_map]
    · rw [heval Truth, ← AndOr.eval_map, htests, AndOr.eval_map]

/-- Building succeeds exactly on acceptable queries. The text then has the value of the filter
on every row, its placeholders are bound in order, and it does not depend on the values. -/
theorem buildQueryString_correct (hd : isValidIdentifier dataset = true)
    (ht : isValidIdentifier table = true) (columns : List Column) (filter : Option (Filter F)) :
    ((∃ r, buildQueryString floats dataset table columns filter = .ok r) ↔
      QueryAcceptable floats columns filter) ∧
    ∀ sql params, buildQueryString floats dataset table columns filter = .ok (sql, params) →
      Faithful floats filter sql params ∧
      ∀ filter' sql' params',
        filter.map (AndOr.map Condition.blank) = filter'.map (AndOr.map Condition.blank) →
        buildQueryString floats dataset table columns filter' = .ok (sql', params') →
        sql = sql' := by
  refine ⟨buildQueryString_ok_iff, fun sql params h => ?_⟩
  have hok := buildQueryString_ok_iff.mp ⟨_, h⟩
  constructor
  · rcases buildQueryString_cases h with ⟨rfl, rfl, rfl⟩ | ⟨f, clause, rfl, hbuild, rfl⟩
    · exact faithful_unfiltered hd ht hok.identifiers
    · exact faithful_filtered hd ht hok.identifiers
        (fun w hw => ((hok.filter f rfl).widths w hw).1) hbuild
  · intro filter' sql' params' hblank h'
    rcases buildQueryString_cases h with ⟨rfl, rfl, rfl⟩ | ⟨f, clause, rfl, hbuild, rfl⟩
    · rcases buildQueryString_cases h' with ⟨rfl, rfl, rfl⟩ | ⟨f', clause', rfl, hbuild', rfl⟩
      · rfl
      · cases hblank
    · rcases buildQueryString_cases h' with ⟨rfl, rfl, rfl⟩ | ⟨f', clause', rfl, hbuild', rfl⟩
      · cases hblank
      · obtain ⟨rfl, -⟩ := buildFilterSql_text f (Option.some.inj hblank) rfl hbuild hbuild'
        rfl

/-- A request that is built has passed the checks of its dataset, its table and the module. -/
theorem buildQueryRequest_ok {config : BigQueryConfig} {module : String}
    {request : QueryTableRequest F} {r : QueryRequest}
    (h : buildQueryRequest floats config module request = .ok r) :
    isValidIdentifier request.dataset = true ∧ isValidIdentifier request.table = true ∧
      checkModulePermission config module request.dataset request.table = .ok () ∧
      buildQueryString floats request.dataset request.table request.columns request.filter =
        .ok (r.query, r.queryParameters) := by
  unfold buildQueryRequest at h
  split_ifs at h with hd ht
  cases hp : checkModulePermission config module request.dataset request.table with
  | error e =>
    rw [hp] at h
    cases h
  | ok u =>
    rw [hp] at h
    obtain ⟨⟨query, values⟩, hbuild, rfl⟩ := map_ok h
    exact ⟨by simpa using hd, by simpa using ht, rfl, hbuild⟩

end correct

section run

/-- Floats are left aside. -/
def noFloats : Floats Empty := ⟨Empty.elim, Empty.elim, Empty.elim⟩

/-- `level = 3 AND (name IS NULL OR name LIKE "a%")`. -/
def sampleFilter : Filter Empty :=
  .all [.leaf ⟨"level", .eq, .integer 3⟩,
    .any [.leaf ⟨"name", .isNull, .null⟩, .leaf ⟨"name", .like, .string "a%"⟩]]

theorem sampleFilter_correct :
    (∃ r, buildQueryString noFloats "logs" "events" [⟨"user", none⟩] (some sampleFilter) = .ok r) ∧
      ∀ sql params, buildQueryString noFloats "logs" "events" [⟨"user", none⟩]
        (some sampleFilter) = .ok (sql, params) →
        Faithful noFloats (some sampleFilter) sql params := by
  have h := @buildQueryString_correct Empty noFloats "logs" "events" (by decide) (by decide)
    [⟨"user", none⟩] (some sampleFilter)
  exact ⟨⟨_, rfl⟩, fun sql params hbuild => (h.2 sql params hbuild).1⟩

end run
end PlaidRuntime.BigQuery
