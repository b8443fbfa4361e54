import PlaidRuntime.DynamodbUtils

/-!
# Round trips between JSON and DynamoDB

What a rule puts comes back as the same JSON. Read the other way, lists of strings or of
numbers come back as sets, and a map with the one key `_binary` is taken for bytes.
-/
namespace PlaidRuntime.DynamodbRoundtrip
open Decimal SortedEntries GuestMemory DynamodbUtils

variable {F : Type} {formats : Formats F}
  {order : List (String × Except ApiError (Value F)) → List (String × Except ApiError (Value F))}

/-- `base64` decodes what it has encoded. -/
def Inverse (formats : Formats F) : Prop := ∀ blob, formats.decode (formats.encode blob) = .ok blob

/-- A `HashMap` iterates over each of its entries once. -/
def Iterates (order : List (String × Except ApiError (Value F)) →
    List (String × Except ApiError (Value F))) : Prop := ∀ l, (order l).Perm l

mutual

/-- `p` holds of the value and of all values inside it. -/
def Everywhere (p : Value F → Prop) : Value F → Prop
  | .array elems => p (.array elems) ∧ EverywhereElems p elems
  | .object entries => p (.object entries) ∧ EverywhereEntries p entries
  | v => p v

def EverywhereElems (p : Value F → Prop) : List (Value F) → Prop
  | [] => True
  | v :: vs => Everywhere p v ∧ EverywhereElems p vs

def EverywhereEntries (p : Value F → Prop) : List (String × Value F) → Prop
  | [] => True
  | (_, v) :: es => Everywhere p v ∧ EverywhereEntries p es

end

/-- Numbers are integers of an `i64`, maps are in key order, and `_binary` holds canonical
base64. -/
def Plain (formats : Formats F) : Value F → Prop
  | .number n => ∃ i, n = .int i ∧ inI64 i
  | .object entries => Sorted entries ∧
      ∀ s, entries = [("_binary", .string s)] → ∃ blob, s = formats.encode blob
  | _ => True

section lists

theorem map_ok_inv {ε α β : Type} {f : α → β} {x : Except ε α} {b : β}
    (h : x.map f = .ok b) : ∃ a, x = .ok a ∧ f a = b := by
  cases x with
  | error e => cases h
  | ok a => exact ⟨a, rfl, Except.ok.inj h⟩

theorem collect_ok {α β : Type} {f : α → Except ApiError β} {g : β → Except ApiError α}
    {xs : List α} {ys : List β} (hg : ∀ x ∈ xs, ∀ y, f x = .ok y → g y = .ok x)
    (h : collect f xs = .ok ys) : collect g ys = .ok xs := by
  induction xs generalizing ys with
  | nil =>
    cases h
    rfl
  | cons x xs ih =>
    rw [collect] at h
    cases hx : f x with
    | error e =>
      rw [hx] at h
      cases h
    | ok y =>
      rw [hx] at h
      obtain ⟨ys', hys, rfl⟩ := map_ok_inv h
      have hhead := hg x List.mem_cons_self y hx
      have htail := ih (fun z hz => hg z (List.mem_cons_of_mem x hz)) hys
      simp only [collect, hhead, htail]
      rfl

/-- When every conversion has succeeded, the loop over a map collects all entries. -/
theorem collectEntries_ok {es : List (String × Value F)}
    {l : List (String × Except ApiError (Value F))}
    (hp : l.Perm (es.map fun e => (e.1, .ok e.2))) :
    ∃ es', collectEntries l = .ok es' ∧ es'.Perm es := by
  let keep : String × Except ApiError (Value F) → Option (String × Value F) :=
    fun e => e.2.toOption.map fun v => (e.1, v)
  have hcollect : ∀ l : List (String × Except ApiError (Value F)),
      (∀ e ∈ l, ∃ k v, e = (k, .ok v)) → collectEntries l = .ok (l.filterMap keep) := by
    intro l
    induction l with
    | nil => exact fun _ => rfl
    | cons e l ih =>
      intro hall
      obtain ⟨k, v, rfl⟩ := hall e List.mem_cons_self
      rw [collectEntries, ih fun x hx => hall x (List.mem_cons_of_mem _ hx)]
      rfl
  refine ⟨l.filterMap keep, hcollect l ?_, ?_⟩
  · intro e he
    obtain ⟨x, -, rfl⟩ := List.mem_map.mp (hp.mem_iff.mp he)
    exact ⟨x.1, x.2, rfl⟩
  · have hkeep : (es.map fun e => (e.1, .ok e.2)).filterMap keep = es := by
      rw [List.filterMap_map]
      exact List.filterMap_some
    have hfilter := hp.filterMap keep
    rwa [hkeep] at hfilter

end lists

section values

theorem isBase64_isString {v : Value F} (h : isBase64 formats v = true) : v.isString = true := by
  cases v with
  | string s => rfl
  | _ => cases h

/-- Strings are taken for strings before anybody asks whether they are base64, so no array is
a binary set. -/
theorem inspectArrayMembers_cases (arr : List (Value F)) :
    inspectArrayMembers formats arr = .allStrings ∧ arr.all Value.isString = true ∨
    inspectArrayMembers formats arr = .allNumbers ∧ arr.all Value.isNumber = true ∨
    inspectArrayMembers formats arr = .nonUniform ∧ arr.all Value.isString = false ∧
      arr.all Value.isNumber = false := by
  unfold inspectArrayMembers
  cases hs : arr.all Value.isString with
  | true => exact Or.inl ⟨if_pos rfl, rfl⟩
  | false =>
    cases hn : arr.all Value.isNumber with
    | true => exact Or.inr (Or.inl ⟨by simp, rfl⟩)
    | false =>
      have hb : arr.all (isBase64 formats) = false := by
        by_contra hb
        rw [Bool.not_eq_false, List.all_eq_true] at hb
        have hall : arr.all Value.isString = true :=
          List.all_eq_true.mpr fun v hv => isBase64_isString (hb v hv)
        rw [hs] at hall
        cases hall
      exact Or.inr (Or.inr ⟨by simp [hb], rfl, rfl⟩)

theorem strings_eq {arr : List (Value F)} (h : arr.all Value.isString = true) :
    (arr.filterMap Value.asStr).map .string = arr := by
  induction arr with
  | nil => rfl
  | cons v arr ih =>
    rw [List.all_cons, Bool.and_eq_true] at h
    cases v with
    | string s => simpa [Value.asStr] using ih h.2
    | _ => cases h.1

theorem parseNumber_int {i : ℤ} (hi : inI64 i) (invalid : String → String) :
    parseNumber formats invalid (toString i) = .ok (.number (.int i)) := by
  rw [parseNumber, parseI64_toString hi]

theorem numberText_int {i : ℤ} (hi : inI64 i) (invalid : String) (x : Option F) :
    numberText formats invalid (Number.asI64 (.int i : Number F)) x = .ok (toString i) := by
  rw [Number.asI64, if_pos hi]
  cases x <;> rfl

theorem everywhere_of_mem {p : Value F → Prop} {arr : List (Value F)}
    (h : EverywhereElems p arr) {v : Value F} (hv : v ∈ arr) : Everywhere p v := by
  induction arr with
  | nil => cases hv
  | cons w arr ih =>
    rcases List.mem_cons.mp hv with rfl | hv
    · exact h.1
    · exact ih h.2 hv

theorem setNumber_back {v : Value F} (hv : Everywhere (Plain formats) v) (hn : v.isNumber = true)
    (invalid : String → String) {text : String} (h : setNumber formats v = .ok text) :
    parseNumber formats invalid text = .ok v := by
  cases v with
  | number n =>
    obtain ⟨i, rfl, hi⟩ := hv
    rw [setNumber, Value.asI64, numberText_int hi] at h
    cases h
    exact parseNumber_int hi invalid
  | _ => cases hn

theorem binaryObject_ok {obj : List (String × Value F)} (hb : isBinaryObject obj = true)
    {a : AttributeValue} (h : binaryObject formats obj = .ok a) :
    ∃ s blob, obj = [("_binary", .string s)] ∧ formats.decode s = .ok blob ∧ a = .b blob := by
  unfold isBinaryObject at hb
  rw [Bool.and_eq_true, beq_iff_eq] at hb
  obtain ⟨⟨k, v⟩, rfl⟩ := List.length_eq_one_iff.mp hb.1
  have hk : k = "_binary" := by
    by_contra hne
    have hlookup : ([(k, v)] : List (String × Value F)).lookup "_binary" = none := by
      simp [List.lookup, beq_false_of_ne (Ne.symm hne)]
    rw [hlookup] at hb
    cases hb.2
  subst hk
  have hlookup : ([("_binary", v)] : List (String × Value F)).lookup "_binary" = some v := by
    simp
  rw [binaryObject, hlookup] at h
  cases v with
  | string s =>
    obtain ⟨blob, hd, rfl⟩ := map_ok_inv h
    unfold decodeBlob at hd
    split at hd
    · rename_i blob' hdec
      cases hd
      exact ⟨s, blob, rfl, hdec, rfl⟩
    · cases hd
  | _ => cases h

theorem toAttributeEntries_keys {es : List (String × Value F)}
    {as : List (String × AttributeValue)} (h : toAttributeEntries formats es = .ok as) :
    as.map Prod.fst = es.map Prod.fst := by
  induction es generalizing as with
  | nil =>
    cases h
    rfl
  | cons e es ih =>
    obtain ⟨k, v⟩ := e
    rw [toAttributeEntries] at h
    split at h
    · cases h
    · obtain ⟨as', has, rfl⟩ := map_ok_inv h
      rw [List.map_cons, List.map_cons, ih has]

theorem sorted_of_keys {V W : Type} {es : List (String × V)} {as : List (String × W)}
    (h : as.map Prod.fst = es.map Prod.fst) (hs : Sorted es) : Sorted as := by
  rw [Sorted, ← List.pairwise_map (f := Prod.fst), h, List.pairwise_map]
  exact hs

end values

section putThenRead

mutual

theorem toJsonValue_of_put (hinv : Inverse formats) (horder : Iterates order) :
    ∀ {v : Value F} {a : AttributeValue}, Everywhere (Plain formats) v →
    toAttributeValue formats v = .ok a → toJsonValue formats order a = .ok v
  | .null, a, hv, h => by
    cases h
    rfl
  | .bool b, a, hv, h => by
    cases h
    rfl
  | .string s, a, hv, h => by
    cases h
    rfl
  | .number n, a, hv, h => by
    obtain ⟨i, rfl, hi⟩ := hv
    rw [toAttributeValue, numberText_int hi] at h
    cases h
    exact parseNumber_int hi _
  | .array arr, a, hv, h => by
    rw [toAttributeValue] at h
    split at h
    · cases h
    · rename_i hne
      rcases @inspectArrayMembers_cases F formats arr with
        ⟨hi, hs⟩ | ⟨hi, hn⟩ | ⟨hi, -, -⟩
      · rw [hi] at h
        cases h
        have hback := strings_eq hs
        have hsome : (arr.filterMap Value.asStr).isEmpty = false := by
          rw [← List.isEmpty_map (f := Value.string), hback]
          simpa using hne
        rw [toJsonValue, if_neg (by simp [hsome]), hback]
      · rw [hi] at h
        obtain ⟨texts, htexts, rfl⟩ := map_ok_inv h
        have hback : ∀ invalid, collect (parseNumber formats invalid) texts = .ok arr := by
          intro invalid
          apply collect_ok _ htexts
          intro v hv' text ht
          exact setNumber_back (everywhere_of_mem hv.2 hv') (List.all_eq_true.mp hn v hv') invalid ht
        have hsome : texts.isEmpty = false := by
          cases texts with
          | nil =>
            cases hback id
            exact absurd rfl hne
          | cons t ts => rfl
        rw [toJsonValue, if_neg (by simp [hsome]), hback]
        rfl
      · rw [hi] at h
        obtain ⟨items, hitems, rfl⟩ := map_ok_inv h
        rw [toJsonValue, toJsonValues_of_put hinv horder hv.2 hitems]
        rfl
  | .object obj, a, hv, h => by
    obtain ⟨⟨hsorted, hcanonical⟩, hentries⟩ := hv
    rw [toAttributeValue] at h
    split at h
    · rename_i hb
      obtain ⟨s, blob, rfl, hd, rfl⟩ := binaryObject_ok hb h
      obtain ⟨blob', rfl⟩ := hcanonical s rfl
      rw [hinv blob'] at hd
      cases hd
      rfl
    · obtain ⟨as, has, rfl⟩ := map_ok_inv h
      have hjson := toJsonEntries_of_put hinv horder hentries has
      have hsorted' : Sorted as := sorted_of_keys (toAttributeEntries_keys has) hsorted
      have hall := horder (toJsonEntries formats order as)
      rw [hjson] at hall
      obtain ⟨es, hcollect, hperm⟩ := collectEntries_ok hall
      rw [ofEntries_of_perm hsorted' (List.Perm.refl as), toJsonValue, hjson, hcollect]
      change Except.ok (Value.object (ofEntries es)) = _
      rw [ofEntries_of_perm hsorted hperm]

theorem toJsonValues_of_put (hinv : Inverse formats) (horder : Iterates order) :
    ∀ {vs : List (Value F)} {as : List AttributeValue},
    EverywhereElems (Plain formats) vs → toAttributeValues formats vs = .ok as →
    toJsonValues formats order as = .ok vs
  | [], as, hv, h => by
    cases h
    rfl
  | v :: vs, as, hv, h => by
    rw [toAttributeValues] at h
    split at h
    · cases h
    · rename_i a ha
      obtain ⟨as', has, rfl⟩ := map_ok_inv h
      rw [toJsonValues, toJsonValue_of_put hinv horder hv.1 ha, toJsonValues_of_put hinv horder hv.2 has]
      rfl

theorem toJsonEntries_of_put (hinv : Inverse formats) (horder : Iterates order) :
    ∀ {es : List (String × Value F)} {as : List (String × AttributeValue)}, EverywhereEntries (Plain formats) es →
    toAttributeEntries formats es = .ok as →
    toJsonEntries formats order as = es.map fun e => (e.1, .ok e.2)
  | [], as, hv, h => by
    cases h
    rfl
  | (k, v) :: es, as, hv, h => by
    rw [toAttributeEntries] at h
    split at h
    · cases h
    · rename_i a ha
      obtain ⟨as', has, rfl⟩ := map_ok_inv h
      rw [toJsonEntries, toJsonValue_of_put hinv horder hv.1 ha,
        toJsonEntries_of_put hinv horder hv.2 has]
      rfl

end

/-- What a rule puts, it reads back as it was. -/
theorem json_roundtrip (hinv : Inverse formats) (horder : Iterates order) {v : Value F}
    (hv : Everywhere (Plain formats) v) {a : AttributeValue}
    (h : toAttributeValue formats v = .ok a) : toJsonValue formats order a = .ok v :=
  toJsonValue_of_put hinv horder hv h

end putThenRead

section attributes

mutual

def EverywhereAttr (p : AttributeValue → Prop) : AttributeValue → Prop
  | .l items => p (.l items) ∧ EverywhereItems p items
  | .m entries => p (.m entries) ∧ EverywhereFields p entries
  | a => p a

def EverywhereItems (p : AttributeValue → Prop) : List AttributeValue → Prop
  | [] => True
  | a :: as => EverywhereAttr p a ∧ EverywhereItems p as

def EverywhereFields (p : AttributeValue → Prop) : List (String × AttributeValue) → Prop
  | [] => True
  | (_, a) :: es => EverywhereAttr p a ∧ EverywhereFields p es

end

def CanonicalInt (text : String) : Prop := ∃ i, inI64 i ∧ text = toString i

/-- The attributes the module supports: canonical integers, sets and lists that are not
empty. -/
def Supported : AttributeValue → Prop
  | .n x => CanonicalInt x
  | .null b => b = true
  | .ss xs => xs ≠ []
  | .ns xs => xs ≠ [] ∧ ∀ x ∈ xs, CanonicalInt x
  | .bs blobs => blobs ≠ []
  | .l items => items ≠ []
  | .m entries => Sorted entries
  | .unknown => False
  | _ => True

def NoBinarySet : AttributeValue → Prop
  | .bs _ => False
  | _ => True

def isS : AttributeValue → Bool
  | .s _ => true
  | _ => false

def isN : AttributeValue → Bool
  | .n _ => true
  | _ => false

/-- JSON can tell the attribute from one of another type. -/
def Distinct : AttributeValue → Prop
  | .l items => items.all isS = false ∧ items.all isN = false
  | .m entries => entries.map Prod.fst ≠ ["_binary"]
  | _ => True

theorem isBinaryObject_iff (entries : List (String × Value F)) :
    isBinaryObject entries = true ↔ entries.map Prod.fst = ["_binary"] := by
  unfold isBinaryObject
  constructor
  · intro h
    rw [Bool.and_eq_true, beq_iff_eq] at h
    obtain ⟨⟨k, v⟩, rfl⟩ := List.length_eq_one_iff.mp h.1
    by_contra hne
    have hk : ("_binary" == k) = false := by
      apply beq_false_of_ne
      rintro rfl
      exact hne rfl
    simp [List.lookup, hk] at h
  · intro h
    obtain ⟨⟨k, v⟩, rfl⟩ := List.length_eq_one_iff.mp (by
      have hlen := congrArg List.length h
      simpa using hlen : entries.length = 1)
    simp only [List.map_cons, List.map_nil, List.cons.injEq, and_true] at h
    subst h
    simp

theorem binaryObject_ne_m (entries : List (String × Value F))
    (fields : List (String × AttributeValue)) :
    binaryObject formats entries ≠ .ok (.m fields) := by
  intro h
  unfold binaryObject at h
  split at h
  · obtain ⟨blob, -, hb⟩ := map_ok_inv h
    cases hb
  · cases h

/-- Reading an attribute succeeds, and putting the result back restores it if and only if all
of it can be told apart. -/
structure ReadBack (formats : Formats F) (order : List (String × Except ApiError (Value F)) →
    List (String × Except ApiError (Value F))) (a : AttributeValue) (v : Value F) : Prop where
  read : toJsonValue formats order a = .ok v
  isString : v.isString = isS a
  isNumber : v.isNumber = isN a
  back : toAttributeValue formats v = .ok a ↔ EverywhereAttr Distinct a

theorem collect_numbers {xs : List String} (hx : ∀ x ∈ xs, CanonicalInt x)
    (invalid : String → String) : ∃ vs : List (Value F),
      collect (parseNumber formats invalid) xs = .ok vs ∧ vs.all Value.isNumber = true ∧
        collect (setNumber formats) vs = .ok xs := by
  induction xs with
  | nil => exact ⟨[], rfl, rfl, rfl⟩
  | cons x xs ih =>
    obtain ⟨vs, hvs, hall, hback⟩ := ih fun y hy => hx y (List.mem_cons_of_mem x hy)
    obtain ⟨i, hi, rfl⟩ := hx x List.mem_cons_self
    refine ⟨.number (.int i) :: vs, ?_, ?_, ?_⟩
    · rw [collect, parseNumber_int hi, hvs]
      rfl
    · rw [List.all_cons, hall]
      rfl
    · rw [collect, setNumber, Value.asI64, numberText_int hi, hback]
      rfl

theorem strings_all (xs : List String) :
    (xs.map (Value.string (F := F))).all Value.isString = true := by
  rw [List.all_eq_true]
  intro v hv
  obtain ⟨s, -, rfl⟩ := List.mem_map.mp hv
  rfl

theorem toJsonValues_ne_nil {as : List AttributeValue} {vs : List (Value F)}
    (h : toJsonValues formats order as = .ok vs) (hne : as ≠ []) : vs ≠ [] := by
  cases as with
  | nil => exact absurd rfl hne
  | cons a as =>
    rw [toJsonValues] at h
    split at h
    · cases h
    · obtain ⟨vs', -, rfl⟩ := map_ok_inv h
      exact List.cons_ne_nil _ _

theorem toAttributeValues_cons {v : Value F} {vs : List (Value F)} {a : AttributeValue}
    {as : List AttributeValue} : toAttributeValues formats (v :: vs) = .ok (a :: as) ↔
      toAttributeValue formats v = .ok a ∧ toAttributeValues formats vs = .ok as := by
  rw [toAttributeValues]
  cases toAttributeValue formats v with
  | error e => simp
  | ok b => cases toAttributeValues formats vs <;> simp [Except.map]

theorem toAttributeEntries_cons {k : String} {v : Value F} {es : List (String × Value F)}
    {a : AttributeValue} {as : List (String × AttributeValue)} :
    toAttributeEntries formats ((k, v) :: es) = .ok ((k, a) :: as) ↔
      toAttributeValue formats v = .ok a ∧ toAttributeEntries formats es = .ok as := by
  rw [toAttributeEntries]
  cases toAttributeValue formats v with
  | error e => simp
  | ok b => cases toAttributeEntries formats es <;> simp [Except.map]

/-- Numbers are no strings, so an array of numbers that is not empty is a number set. -/
theorem inspectArrayMembers_numbers {vs : List (Value F)} (hne : vs ≠ [])
    (hall : vs.all Value.isNumber = true) : inspectArrayMembers formats vs = .allNumbers := by
  have hs : vs.all Value.isString = false := by
    cases vs with
    | nil => exact absurd rfl hne
    | cons v vs =>
      rw [List.all_cons, Bool.and_eq_true] at hall
      cases v with
      | number n => rfl
      | _ => cases hall.1
  simp [inspectArrayMembers, hs, hall]

mutual

theorem readBack (hinv : Inverse formats) (horder : Iterates order) : ∀ {a : AttributeValue},
    EverywhereAttr Supported a → EverywhereAttr NoBinarySet a → ∃ v, ReadBack formats order a v
  | .s x, ha, hb => ⟨.string x, rfl, rfl, rfl, iff_of_true rfl trivial⟩
  | .n x, ha, hb => by
    obtain ⟨i, hi, rfl⟩ := ha
    refine ⟨.number (.int i), parseNumber_int hi _, rfl, rfl, iff_of_true ?_ trivial⟩
    rw [toAttributeValue, numberText_int hi]
    rfl
  | .bool b, ha, hb => ⟨.bool b, rfl, rfl, rfl, iff_of_true rfl trivial⟩
  | .null b, ha, hb => by
    have hb' : b = true := ha
    subst hb'
    exact ⟨.null, rfl, rfl, rfl, iff_of_true rfl trivial⟩
  | .b blob, ha, hb => by
    refine ⟨.object [("_binary", .string (formats.encode blob))], rfl, rfl, rfl,
      iff_of_true ?_ trivial⟩
    rw [toAttributeValue, if_pos (by simp [isBinaryObject])]
    simp [binaryObject, decodeBlob, hinv blob, Except.map]
  | .ss xs, ha, hb => by
    have hne : xs ≠ [] := ha
    have hemp : xs.isEmpty = false := by simpa using hne
    refine ⟨.array (xs.map .string), by rw [toJsonValue, if_neg (by simp [hemp])], rfl, rfl,
      iff_of_true ?_ trivial⟩
    rw [toAttributeValue, if_neg (by simp [hemp]), inspectArrayMembers, if_pos (strings_all xs)]
    simp [List.filterMap_map, Function.comp_def, Value.asStr]
  | .ns xs, ha, hb => by
    obtain ⟨hne, hx⟩ : xs ≠ [] ∧ ∀ x ∈ xs, CanonicalInt x := ha
    have hemp : xs.isEmpty = false := by simpa using hne
    obtain ⟨vs, hvs, hall, hback⟩ := @collect_numbers F formats xs hx
      (fun n => s!"Invalid number in number set: {n}")
    have hvne : vs ≠ [] := by
      rintro rfl
      cases hback
      exact hne rfl
    refine ⟨.array vs, ?_, rfl, rfl, iff_of_true ?_ trivial⟩
    · rw [toJsonValue, if_neg (by simp [hemp]), hvs]
      rfl
    · rw [toAttributeValue, if_neg (by simpa using hvne), inspectArrayMembers_numbers hvne hall]
      change (collect (setNumber formats) vs).map _ = _
      rw [hback]
      rfl
  | .bs blobs, ha, hb => absurd hb id
  | .unknown, ha, hb => absurd ha id
  | .l items, ha, hb => by
    obtain ⟨vs, hread, hs, hn, hback⟩ := readBack_items hinv horder ha.2 hb.2
    have hne : items ≠ [] := ha.1
    have hvne : vs ≠ [] := toJsonValues_ne_nil hread hne
    refine ⟨.array vs, by rw [toJsonValue, hread]; rfl, rfl, rfl, ?_⟩
    rw [toAttributeValue, if_neg (by simpa using hvne)]
    rcases @inspectArrayMembers_cases F formats vs with
      ⟨hi, hall⟩ | ⟨hi, hall⟩ | ⟨hi, hns, hnn⟩
    · rw [hi]
      apply iff_of_false nofun
      intro hd
      have hfalse : items.all isS = false := hd.1.1
      rw [← hs, hall] at hfalse
      cases hfalse
    · rw [hi]
      apply iff_of_false
      · intro h
        obtain ⟨xs, -, hx⟩ := map_ok_inv h
        cases hx
      · intro hd
        have hfalse : items.all isN = false := hd.1.2
        rw [← hn, hall] at hfalse
        cases hfalse
    · rw [hi]
      have hdistinct : Distinct (.l items) := ⟨hs ▸ hns, hn ▸ hnn⟩
      constructor
      · intro h
        obtain ⟨as, has, hx⟩ := map_ok_inv h
        cases hx
        exact ⟨hdistinct, hback.mp has⟩
      · intro hd
        change (toAttributeValues formats vs).map _ = _
        rw [hback.mpr hd.2]
        rfl
  | .m entries, ha, hb => by
    obtain ⟨es, hread, hkeys, hback⟩ := readBack_fields hinv horder ha.2 hb.2
    have hentries : Sorted entries := ha.1
    have hsorted : Sorted es := sorted_of_keys hkeys hentries
    have hall := horder (toJsonEntries formats order entries)
    rw [hread] at hall
    obtain ⟨es', hcollect, hperm⟩ := collectEntries_ok hall
    refine ⟨.object es, ?_, rfl, rfl, ?_⟩
    · rw [toJsonValue, hread, hcollect]
      change Except.ok (Value.object (ofEntries es')) = _
      rw [ofEntries_of_perm hsorted hperm]
    · rw [toAttributeValue]
      split
      · rename_i hbin
        have hlone := (isBinaryObject_iff es).mp hbin
        rw [hkeys] at hlone
        exact iff_of_false (binaryObject_ne_m es entries) fun hd => hd.1 hlone
      · rename_i hbin
        have hdistinct : Distinct (.m entries) := by
          intro hlone
          rw [← hkeys] at hlone
          exact hbin ((isBinaryObject_iff es).mpr hlone)
        constructor
        · intro h
          obtain ⟨as, has, hx⟩ := map_ok_inv h
          have has' : Sorted as := sorted_of_keys (toAttributeEntries_keys has) hsorted
          rw [ofEntries_of_perm has' (List.Perm.refl as)] at hx
          cases hx
          exact ⟨hdistinct, hback.mp has⟩
        · intro hd
          rw [hback.mpr hd.2]
          change Except.ok (AttributeValue.m (ofEntries entries)) = _
          rw [ofEntries_of_perm hentries (List.Perm.refl entries)]

theorem readBack_items (hinv : Inverse formats) (horder : Iterates order) :
    ∀ {as : List AttributeValue}, EverywhereItems Supported as → EverywhereItems NoBinarySet as →
    ∃ vs : List (Value F), toJsonValues formats order as = .ok vs ∧
      vs.all Value.isString = as.all isS ∧ vs.all Value.isNumber = as.all isN ∧
      (toAttributeValues formats vs = .ok as ↔ EverywhereItems Distinct as)
  | [], ha, hb => ⟨[], rfl, rfl, rfl, iff_of_true rfl trivial⟩
  | a :: as, ha, hb => by
    obtain ⟨v, hv⟩ := readBack hinv horder ha.1 hb.1
    obtain ⟨vs, hread, hs, hn, hback⟩ := readBack_items hinv horder ha.2 hb.2
    refine ⟨v :: vs, ?_, ?_, ?_, ?_⟩
    · rw [toJsonValues, hv.read, hread]
      rfl
    · rw [List.all_cons, List.all_cons, hv.isString, hs]
    · rw [List.all_cons, List.all_cons, hv.isNumber, hn]
    · rw [toAttributeValues_cons, hv.back, hback]
      rfl

theorem readBack_fields (hinv : Inverse formats) (horder : Iterates order) :
    ∀ {as : List (String × AttributeValue)}, EverywhereFields Supported as →
    EverywhereFields NoBinarySet as → ∃ es : List (String × Value F),
      toJsonEntries formats order as = es.map (fun e => (e.1, .ok e.2)) ∧
      es.map Prod.fst = as.map Prod.fst ∧
      (toAttributeEntries formats es = .ok as ↔ EverywhereFields Distinct as)
  | [], ha, hb => ⟨[], rfl, rfl, iff_of_true rfl trivial⟩
  | (k, a) :: as, ha, hb => by
    obtain ⟨v, hv⟩ := readBack hinv horder ha.1 hb.1
    obtain ⟨es, hread, hkeys, hback⟩ := readBack_fields hinv horder ha.2 hb.2
    refine ⟨(k, v) :: es, ?_, ?_, ?_⟩
    · rw [toJsonEntries, hv.read, hread]
      rfl
    · rw [List.map_cons, List.map_cons, hkeys]
    · rw [toAttributeEntries_cons, hv.back, hback]
      rfl

end

/-- A rule that reads an attribute and puts it back restores it, type included, as long as no
list in it holds strings only or numbers only and no map has the one key `_binary`. -/
theorem attribute_roundtrip_iff (hinv : Inverse formats) (horder : Iterates order)
    {a : AttributeValue} (ha : EverywhereAttr Supported a) (hb : EverywhereAttr NoBinarySet a) :
    (∀ v, toJsonValue formats order a = .ok v → toAttributeValue formats v = .ok a) ↔
      EverywhereAttr Distinct a := by
  obtain ⟨v, hv⟩ := readBack hinv horder ha hb
  constructor
  · intro h
    exact hv.back.mp (h v hv.read)
  · intro hd w hw
    rw [hv.read] at hw
    cases hw
    exact hv.back.mpr hd

end attributes

section instances

/-- `aGk=` is the base64 of two bytes; other bytes are written down as they are. -/
def sampleFormats : Formats ℕ where
  encode blob :=
    if blob = [104, 105] then "aGk="
    else String.ofList ('=' :: blob.map fun x => Char.ofNat x.toNat)
  decode s :=
    if s = "aGk=" then .ok [104, 105]
    else match s.toList with
      | '=' :: cs => .ok (cs.map fun c => UInt8.ofNat c.toNat)
      | _ => .error "Invalid byte"
  f64OfInt i := i.toNat
  f64ToString x := toString x
  parseF64 _ := none

theorem byte_of_char (x : UInt8) : UInt8.ofNat (Char.ofNat x.toNat).toNat = x := by
  have hx : x.toNat < 256 := x.toNat_lt
  have hvalid : x.toNat.isValidChar := Or.inl (by omega)
  have hc : (Char.ofNat x.toNat).toNat = x.toNat := by
    rw [Char.ofNat, dif_pos hvalid]
    rfl
  rw [hc]
  simp

theorem sampleFormats_inverse : Inverse sampleFormats := by
  intro blob
  simp only [sampleFormats]
  split
  · rename_i h
    subst h
    rfl
  · rename_i h
    have hne : String.ofList ('=' :: blob.map fun x => Char.ofNat x.toNat) ≠ "aGk=" := by
      intro he
      have hl := congrArg String.toList he
      rw [String.toList_ofList] at hl
      cases hl
    rw [if_neg hne, String.toList_ofList]
    simp [List.map_map, Function.comp_def, byte_of_char]

/-- `{"blob": {"_binary": "aGk="}, "ids": [1, 2], "mixed": [null, "x", -5]}` -/
def sampleItem : Value ℕ :=
  .object [("blob", .object [("_binary", .string "aGk=")]),
    ("ids", .array [.number (.int 1), .number (.int 2)]),
    ("mixed", .array [.null, .string "x", .number (.int (-5))])]

def sampleAttribute : AttributeValue :=
  .m [("blob", .b [104, 105]), ("ids", .ns ["1", "2"]), ("mixed", .l [.null true, .s "x", .n "-5"])]

theorem sampleItem_plain : Everywhere (Plain sampleFormats) sampleItem := by
  have hint : ∀ i, inI64 i → ∃ j, Number.int i = (Number.int j : Number ℕ) ∧ inI64 j :=
    fun i hi => ⟨i, rfl, hi⟩
  have hblob : Plain sampleFormats (.object [("_binary", .string "aGk=")]) := by
    refine ⟨List.pairwise_singleton _ _, ?_⟩
    intro s hs
    cases hs
    exact ⟨[104, 105], rfl⟩
  have hkeys : Plain sampleFormats sampleItem := by
    refine ⟨?_, ?_⟩
    · rw [Sorted, ← List.pairwise_map (f := Prod.fst)]
      decide
    · intro s hs
      exact absurd (congrArg List.length hs) (by simp)
  exact ⟨hkeys, ⟨hblob, trivial, trivial⟩,
    ⟨trivial, hint 1 (by decide), hint 2 (by decide), trivial⟩,
    ⟨trivial, trivial, trivial, hint (-5) (by decide), trivial⟩, trivial⟩

theorem json_roundtrip_item : toAttributeValue sampleFormats sampleItem = .ok sampleAttribute ∧
    toJsonValue sampleFormats List.reverse sampleAttribute = .ok sampleItem :=
  ⟨rfl, json_roundtrip sampleFormats_inverse List.reverse_perm sampleItem_plain rfl⟩

theorem sampleAttribute_supported : EverywhereAttr Supported sampleAttribute := by
  have hkeys : Supported sampleAttribute := by
    change Sorted _
    rw [Sorted, ← List.pairwise_map (f := Prod.fst)]
    decide
  have hids : Supported (.ns ["1", "2"]) := by
    refine ⟨nofun, ?_⟩
    intro x hx
    rcases List.mem_pair.mp hx with rfl | rfl
    · exact ⟨1, by decide, rfl⟩
    · exact ⟨2, by decide, rfl⟩
  exact ⟨hkeys, trivial, hids, ⟨nofun, rfl, trivial, ⟨-5, by decide, rfl⟩, trivial⟩, trivial⟩

theorem attribute_roundtrip_item :
    toJsonValue sampleFormats List.reverse sampleAttribute = .ok sampleItem ∧
    toAttributeValue sampleFormats sampleItem = .ok sampleAttribute := by
  have hplain : EverywhereAttr NoBinarySet sampleAttribute :=
    ⟨trivial, trivial, trivial, ⟨trivial, trivial, trivial, trivial, trivial⟩, trivial⟩
  have hdistinct : EverywhereAttr Distinct sampleAttribute :=
    ⟨by simp [Distinct], trivial, trivial, ⟨⟨rfl, rfl⟩, trivial, trivial, trivial, trivial⟩, trivial⟩
  have hread : toJsonValue sampleFormats List.reverse sampleAttribute = .ok sampleItem :=
    toJsonValue_of_put sampleFormats_inverse List.reverse_perm sampleItem_plain rfl
  exact ⟨hread, (attribute_roundtrip_iff sampleFormats_inverse List.reverse_perm
    sampleAttribute_supported hplain).mpr hdistinct sampleItem hread⟩

/-- A list of strings comes back as a string set. -/
theorem string_list_becomes_set :
    ¬ ∀ a, EverywhereAttr Supported a → ∀ v, toJsonValue sampleFormats List.reverse a = .ok v →
      toAttributeValue sampleFormats v = .ok a := by
  intro h
  have hset : toAttributeValue sampleFormats (.array [.string "a"]) = .ok (.ss ["a"]) := rfl
  rw [h (.l [.s "a"]) ⟨nofun, trivial, trivial⟩ (.array [.string "a"]) rfl] at hset
  cases hset

end instances
end PlaidRuntime.DynamodbRoundtrip
