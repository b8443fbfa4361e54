import PlaidRuntime.MessageCodec

/-!
# Migrating stored logbacks

`create_migration_function_harmonize_logbacks_0_22_2` of `bin/db_migrator.rs`. An old entry had the
message as its key and the delay as its value; a new one has a delayed message as its value.
-/
namespace PlaidRuntime.LogbackMigration
open GuestMemory LogbackMessage MessageCodec

/-- Where an `unwrap` fails. -/
inductive Panic
  | invalidUtf8
  | notAMessage
  | notEightBytes
  deriving DecidableEq, Repr

abbrev Fields : Type := List (String × Json)

/-- `serde_json`: values of their own besides what a struct is read from. A map has a key once. -/
structure Serde extends JsonText where
  fromStr : String → Option Json
  distinct : ∀ {s fields}, fromStr s = some (.obj fields) → (fields.map Prod.fst).Nodup

section fields

def getField (fields : Fields) (name : String) : Option Json :=
  (fields.find? fun f => f.1 = name).map Prod.snd

def removeField (fields : Fields) (name : String) : Fields := fields.filter fun f => f.1 ≠ name

def insertField (fields : Fields) (name : String) (v : Json) : Fields :=
  removeField fields name ++ [(name, v)]

def insertMissing (fields : Fields) (name : String) (v : Json) : Fields :=
  if (getField fields name).isNone then insertField fields name v else fields

/-- What `accessory_data` held is lost. -/
def replaceAccessoryData (fields : Fields) : Fields :=
  if (getField fields "accessory_data").isSome then
    insertField (insertField (removeField fields "accessory_data") "headers" (.obj []))
      "query_params" (.obj [])
  else fields

/-- The object with all that the old format lacks. -/
def complete (logSourceIfMissing id : String) (fields : Fields) : Fields :=
  let fields := insertMissing fields "source" (encodeSource (.logback logSourceIfMissing))
  let fields := replaceAccessoryData fields
  let fields := insertField fields "id" (.str id)
  insertMissing fields "logbacks_allowed" (.str "Unlimited")

end fields

section migration
variable (serde : Serde) (logSourceIfMissing id key : String) (value : Bytes)

/-- `u64::from_be_bytes`. -/
def fromBeBytes (value : Bytes) : ℕ := Nat.ofDigits 256 (value.reverse.map UInt8.toNat)

/-- The delayed message of an old entry. -/
def delayedMessage (fields : Fields) : Except Panic DelayedMessage :=
  match decodeMessage (.obj (complete logSourceIfMissing id fields)) with
  | none => .error .notAMessage
  | some message =>
    if value.length = 8 then .ok ⟨fromBeBytes value, message⟩ else .error .notEightBytes

/-- `from_slice` for delayed messages. -/
def readDelayed (value : Bytes) : Option DelayedMessage :=
  (serde.fromSlice value).bind decodeDelayed

/-- The `id` is a fresh UUID. A value has a field only if it is an object. -/
def createMigrationFunctionHarmonizeLogbacks : Except Panic (String × Bytes) :=
  match readDelayed serde value with
  | some _ => if (fromUtf8 value).isSome then .ok (key, value) else .error .invalidUtf8
  | none =>
    match serde.fromStr key with
    | some (.obj fields) =>
      if (getField fields "data").isNone then .ok (key, value)
      else (delayedMessage logSourceIfMissing id value fields).map fun delayed =>
        (id, serde.toVec (encodeDelayed delayed))
    | _ => .ok (key, value)

/-- `out` is the entry itself, or has the message of its key and the delay of its value. -/
def Preserves (out : String × Bytes) : Prop :=
  out = (key, value) ∨
    ∃ fields delayed, serde.fromStr key = some (.obj fields) ∧ readDelayed serde out.2 = some delayed ∧
      value.length = 8 ∧ delayed.delay = fromBeBytes value ∧
      (getField fields "type_").bind decodeString = some delayed.message.type_ ∧
      (getField fields "data").bind decodeVecMax = some delayed.message.data ∧
      out.1 = delayed.message.id

/-- The migration of one entry is total, preserves its meaning and is not made twice. -/
structure Migrates : Prop where
  total : ∃ out,
    createMigrationFunctionHarmonizeLogbacks serde logSourceIfMissing id key value = .ok out
  preserves : ∀ out,
    createMigrationFunctionHarmonizeLogbacks serde logSourceIfMissing id key value = .ok out →
      Preserves serde key value out
  idempotent : ∀ out,
    createMigrationFunctionHarmonizeLogbacks serde logSourceIfMissing id key value = .ok out →
      ∀ id', createMigrationFunctionHarmonizeLogbacks serde logSourceIfMissing id' out.1 out.2 = .ok out

/-- The object is a message but for what the old format lacks. -/
structure IsOldMessage (fields : Fields) : Prop where
  type_ : ((getField fields "type_").bind decodeString).isSome
  data : ((getField fields "data").bind decodeVecMax).isSome
  source : ∀ j, getField fields "source" = some j → (decodeSource j).isSome
  headers : getField fields "accessory_data" = none →
    ∀ j, getField fields "headers" = some j → (mapWithLimits j).isSome
  queryParams : getField fields "accessory_data" = none →
    ∀ j, getField fields "query_params" = some j → (mapWithLimits j).isSome
  allowed : ∀ j, getField fields "logbacks_allowed" = some j → (decodeAllowed j).isSome

/-- A value in the newest format is UTF-8 throughout; and when it is in another format and the key
is an object with data, the object is an old message and the value has eight bytes. -/
structure Migratable : Prop where
  newest : (readDelayed serde value).isSome → (fromUtf8 value).isSome
  old : readDelayed serde value = none → ∀ fields, serde.fromStr key = some (.obj fields) →
    (getField fields "data").isSome → IsOldMessage fields ∧ value.length = 8

/-- What is written is text, and read as the tree it was written for. -/
structure Writes (delayed : DelayedMessage) : Prop where
  reads : serde.RoundTrips (encodeDelayed delayed)
  utf8 : (fromUtf8 (serde.toVec (encodeDelayed delayed))).isSome

end migration

section completed
variable {fields : Fields} {name n src id : String} {v : Json} {msg : Message}

theorem fieldValues_cons {f : String × Json} : fieldValues (.obj (f :: fields)) name =
    if f.1 = name then f.2 :: fieldValues (.obj fields) name else fieldValues (.obj fields) name := by
  simp only [fieldValues, List.filter_cons, decide_eq_true_iff]
  split_ifs <;> rfl

theorem getField_eq : getField fields name = (fieldValues (.obj fields) name).head? := by
  induction fields with
  | nil => rfl
  | cons f fields ih =>
    rw [fieldValues_cons, getField, List.find?_cons]
    split_ifs with h
    · simp [h]
    · rw [← ih, getField]
      simp [h]

theorem fieldValues_removeField : fieldValues (.obj (removeField fields n)) name =
    if name = n then [] else fieldValues (.obj fields) name := by
  simp only [fieldValues, removeField, List.filter_filter]
  split_ifs with h
  · simp [h]
  · congr 1
    refine List.filter_congr fun f _ => ?_
    by_cases hf : f.1 = name <;> simp [hf, h]

theorem fieldValues_insertField : fieldValues (.obj (insertField fields n v)) name =
    if name = n then [v] else fieldValues (.obj fields) name := by
  have happend : fieldValues (.obj (insertField fields n v)) name =
      fieldValues (.obj (removeField fields n)) name ++ fieldValues (.obj [(n, v)]) name := by
    simp [fieldValues, insertField]
  rw [happend, fieldValues_removeField]
  split_ifs with h <;> simp [fieldValues, h, eq_comm]

theorem fieldValues_of_distinct (h : (fields.map Prod.fst).Nodup) :
    fieldValues (.obj fields) name = (getField fields name).toList := by
  induction fields with
  | nil => rfl
  | cons f fields ih =>
    obtain ⟨hf, hrest⟩ := List.nodup_cons.mp h
    have hother : f.1 = name → fieldValues (.obj fields) name = [] := by
      rintro rfl
      simp only [fieldValues, List.map_eq_nil_iff, List.filter_eq_nil_iff, decide_eq_true_iff]
      exact fun e he hk => hf (hk ▸ List.mem_map_of_mem he)
    rw [getField_eq, fieldValues_cons]
    split_ifs with hk
    · simp [hother hk]
    · rw [ih hrest, getField_eq, ih hrest]
      simp

theorem fieldValues_insertMissing : fieldValues (.obj (insertMissing fields n v)) name =
    if name = n ∧ getField fields n = none then [v] else fieldValues (.obj fields) name := by
  rw [insertMissing]
  cases h : getField fields n with
  | none => simp [fieldValues_insertField]
  | some j => simp

theorem fieldValues_replaceAccessoryData : fieldValues (.obj (replaceAccessoryData fields)) name =
    if getField fields "accessory_data" = none then fieldValues (.obj fields) name
    else if name = "query_params" ∨ name = "headers" then [.obj []]
    else if name = "accessory_data" then []
    else fieldValues (.obj fields) name := by
  rw [replaceAccessoryData]
  cases h : getField fields "accessory_data" with
  | none => simp
  | some j =>
    simp only [Option.isSome_some, if_true, fieldValues_insertField, fieldValues_removeField,
      reduceCtorEq, if_false]
    by_cases hquery : name = "query_params" <;> by_cases hheaders : name = "headers" <;>
      simp [hquery, hheaders]

/-- The fields of the completed object that a message is read from. -/
structure Completed (fields : Fields) (src id : String) (j : Json) : Prop where
  id : fieldValues j "id" = [.str id]
  type_ : fieldValues j "type_" = (getField fields "type_").toList
  data : fieldValues j "data" = (getField fields "data").toList
  headers : fieldValues j "headers" =
    if getField fields "accessory_data" = none then (getField fields "headers").toList else [.obj []]
  queryParams : fieldValues j "query_params" =
    if getField fields "accessory_data" = none then (getField fields "query_params").toList
    else [.obj []]
  source : fieldValues j "source" =
    [(getField fields "source").getD (encodeSource (.logback src))]
  allowed : fieldValues j "logbacks_allowed" =
    [(getField fields "logbacks_allowed").getD (.str "Unlimited")]

theorem completed (h : (fields.map Prod.fst).Nodup) :
    Completed fields src id (.obj (complete src id fields)) := by
  have hvalues : ∀ n, fieldValues (.obj fields) n = (getField fields n).toList := fun n =>
    fieldValues_of_distinct h
  have haccessory : getField (insertMissing fields "source" (encodeSource (.logback src)))
      "accessory_data" = getField fields "accessory_data" := by
    simp [getField_eq, fieldValues_insertMissing]
  have hallowed : getField (insertField (replaceAccessoryData (insertMissing fields "source"
      (encodeSource (.logback src)))) "id" (.str id)) "logbacks_allowed" =
      getField fields "logbacks_allowed" := by
    rw [getField_eq, getField_eq, fieldValues_insertField, fieldValues_replaceAccessoryData,
      fieldValues_insertMissing]
    simp
  have hgetD : ∀ (o : Option Json) (v : Json),
      (if o = none then [v] else o.toList) = [o.getD v] := by
    rintro (_ | _) _ <;> rfl
  constructor <;> simp only [complete, fieldValues_insertMissing, hallowed, fieldValues_insertField,
    fieldValues_replaceAccessoryData, haccessory, hvalues]
  all_goals simp [hgetD]

theorem field_of_values {j : Json} {o : Option Json} (h : fieldValues j name = o.toList) :
    field j name = o := by
  rw [field, h]
  cases o <;> rfl

theorem mapField_of_values {j : Json} {o : Option Json} (h : fieldValues j name = o.toList) :
    mapField j name = (o.map mapWithLimits).getD (some ∅) := by
  rw [mapField, h]
  cases o <;> rfl

theorem Completed.mapField_eq {j : Json} (hname : fieldValues j name =
    if getField fields "accessory_data" = none then (getField fields name).toList else [.obj []]) :
    mapField j name = if getField fields "accessory_data" = none then
      ((getField fields name).map mapWithLimits).getD (some ∅) else some ∅ := by
  split_ifs at hname ⊢ with h
  · exact mapField_of_values hname
  · exact mapField_of_values (o := some (.obj [])) hname

/-- A completed object is read as a message from what the old object has. -/
theorem decodeMessage_complete (h : (fields.map Prod.fst).Nodup) :
    decodeMessage (.obj (complete src id fields)) = some msg ↔
      msg.id = id ∧ (getField fields "type_").bind decodeString = some msg.type_ ∧
      (getField fields "data").bind decodeVecMax = some msg.data ∧
      (if getField fields "accessory_data" = none then
        ((getField fields "headers").map mapWithLimits).getD (some ∅) else some ∅) =
          some msg.headers ∧
      (if getField fields "accessory_data" = none then
        ((getField fields "query_params").map mapWithLimits).getD (some ∅) else some ∅) =
          some msg.queryParams ∧
      decodeSource ((getField fields "source").getD (encodeSource (.logback src))) =
        some msg.source ∧
      decodeAllowed ((getField fields "logbacks_allowed").getD (.str "Unlimited")) =
        some msg.logbacksAllowed ∧
      msg.module = none := by
  have hc : Completed fields src id (.obj (complete src id fields)) := completed h
  rw [decodeMessage_obj, field_of_values (o := some _) hc.id, field_of_values hc.type_,
    field_of_values hc.data, Completed.mapField_eq hc.headers, Completed.mapField_eq hc.queryParams,
    field_of_values (o := some _) hc.source, field_of_values (o := some _) hc.allowed]
  simp only [Option.bind_some, decodeString, Option.some.injEq, eq_comm]

/-- The completed object is a message just when the object is an old one. -/
theorem isOldMessage_iff (h : (fields.map Prod.fst).Nodup) :
    (∃ msg, decodeMessage (.obj (complete src id fields)) = some msg) ↔ IsOldMessage fields := by
  simp only [decodeMessage_complete h]
  constructor
  · rintro ⟨msg, -, htype, hdata, hheaders, hquery, hsource, hallowed, -⟩
    refine ⟨by simp [htype], by simp [hdata], fun j hj => ?_, fun ha j hj => ?_, fun ha j hj => ?_,
      fun j hj => ?_⟩
    · rw [hj, Option.getD_some] at hsource
      simp [hsource]
    · rw [if_pos ha, hj, Option.map_some, Option.getD_some] at hheaders
      simp [hheaders]
    · rw [if_pos ha, hj, Option.map_some, Option.getD_some] at hquery
      simp [hquery]
    · rw [hj, Option.getD_some] at hallowed
      simp [hallowed]
  · intro hold
    obtain ⟨type_, htype⟩ := Option.isSome_iff_exists.mp hold.type_
    obtain ⟨data, hdata⟩ := Option.isSome_iff_exists.mp hold.data
    have hmap : ∀ name, (getField fields "accessory_data" = none →
        ∀ j, getField fields name = some j → (mapWithLimits j).isSome) →
        ∃ m, (if getField fields "accessory_data" = none then
          ((getField fields name).map mapWithLimits).getD (some ∅) else some ∅) = some m := by
      intro name hname
      split_ifs with ha
      · cases hj : getField fields name with
        | none => exact ⟨∅, rfl⟩
        | some j => exact Option.isSome_iff_exists.mp (hname ha j hj)
      · exact ⟨∅, rfl⟩
    obtain ⟨headers, hheaders⟩ := hmap "headers" hold.headers
    obtain ⟨query, hquery⟩ := hmap "query_params" hold.queryParams
    obtain ⟨source, hsource⟩ : ∃ s,
        decodeSource ((getField fields "source").getD (encodeSource (.logback src))) = some s := by
      cases hj : getField fields "source" with
      | none => exact ⟨.logback src, decodeSource_encodeSource (.logback src)⟩
      | some j => exact Option.isSome_iff_exists.mp (hold.source j hj)
    obtain ⟨allowed, hallowed⟩ : ∃ a,
        decodeAllowed ((getField fields "logbacks_allowed").getD (.str "Unlimited")) = some a := by
      cases hj : getField fields "logbacks_allowed" with
      | none => exact ⟨.unlimited, rfl⟩
      | some j => exact Option.isSome_iff_exists.mp (hold.allowed j hj)
    exact ⟨⟨id, type_, data, headers, query, source, allowed, none⟩, rfl, htype, hdata, hheaders,
      hquery, hsource, hallowed, rfl⟩

end completed

section outcomes
variable {serde : Serde} {src id key : String} {value : Bytes} {fields : Fields}
  {delayed : DelayedMessage}

theorem fromBeBytes_lt (h : value.length = 8) : fromBeBytes value < 2 ^ 64 := by
  have hdigits : ∀ d ∈ value.reverse.map UInt8.toNat, d < 256 := by
    intro d hd
    obtain ⟨b, -, rfl⟩ := List.mem_map.mp hd
    exact b.toNat_lt
  have hlt := Nat.ofDigits_lt_base_pow_length (by decide) hdigits
  simpa [fromBeBytes, h] using hlt

theorem delayedMessage_ok : delayedMessage src id value fields = .ok delayed ↔
    decodeMessage (.obj (complete src id fields)) = some delayed.message ∧ value.length = 8 ∧
      delayed.delay = fromBeBytes value := by
  rcases delayed with ⟨delay, message⟩
  unfold delayedMessage
  cases h : decodeMessage (.obj (complete src id fields)) with
  | none => simp
  | some m =>
    simp only [Option.some.injEq]
    split_ifs with hlen <;> simp [hlen, and_comm, eq_comm]

/-- What is written for an old entry is read as a delayed message with the same contents. -/
theorem readDelayed_written (hw : Writes serde delayed)
    (h : delayedMessage src id value fields = .ok delayed) :
    ∃ d, readDelayed serde (serde.toVec (encodeDelayed delayed)) = some d ∧
      d.delay = delayed.delay ∧ d.message.id = delayed.message.id ∧
      d.message.type_ = delayed.message.type_ ∧ d.message.data = delayed.message.data := by
  obtain ⟨hmsg, hlen, hdelay⟩ := delayedMessage_ok.mp h
  obtain ⟨d, hd, hsame⟩ := decodeDelayed_encodeDelayed_within (hdelay ▸ fromBeBytes_lt hlen)
    (decodeMessage_within hmsg)
  refine ⟨d, ?_, hsame⟩
  rw [readDelayed, hw.reads, Option.bind_some, hd]

/-- The entry is left as it is. -/
def Untouched (serde : Serde) (key : String) (value : Bytes) : Prop :=
  ((readDelayed serde value).isSome ∧ (fromUtf8 value).isSome) ∨
    (readDelayed serde value = none ∧
      ∀ fields, serde.fromStr key = some (.obj fields) → getField fields "data" = none)

/-- The object of a key in the old format. -/
structure OldEntry (serde : Serde) (key : String) (value : Bytes) (fields : Fields) : Prop where
  notNew : readDelayed serde value = none
  object : serde.fromStr key = some (.obj fields)
  data : (getField fields "data").isSome

/-- Every entry is one of these. -/
theorem entry_cases (serde : Serde) (key : String) (value : Bytes) :
    Untouched serde key value ∨ (∃ fields, OldEntry serde key value fields) ∨
      ((readDelayed serde value).isSome ∧ fromUtf8 value = none) := by
  cases hread : readDelayed serde value with
  | some d =>
    cases htext : fromUtf8 value with
    | none => exact Or.inr (Or.inr ⟨rfl, rfl⟩)
    | some t => exact Or.inl (Or.inl ⟨by simp [hread], by simp [htext]⟩)
  | none =>
    by_cases h : ∃ fields, serde.fromStr key = some (.obj fields) ∧ (getField fields "data").isSome
    · obtain ⟨fields, hkey, hdata⟩ := h
      exact Or.inr (Or.inl ⟨fields, hread, hkey, hdata⟩)
    · refine Or.inl (Or.inr ⟨hread, fun fields hkey => ?_⟩)
      by_contra hdata
      exact h ⟨fields, hkey, Option.isSome_iff_ne_none.mpr hdata⟩

theorem harmonize_untouched (h : Untouched serde key value) :
    createMigrationFunctionHarmonizeLogbacks serde src id key value = .ok (key, value) := by
  rw [createMigrationFunctionHarmonizeLogbacks]
  rcases h with ⟨hread, htext⟩ | ⟨hread, hdata⟩
  · obtain ⟨d, hd⟩ := Option.isSome_iff_exists.mp hread
    simp only [hd, htext, if_true]
  · simp only [hread]
    split
    · rename_i fields hkey
      simp [hdata fields hkey]
    · rfl

theorem harmonize_old (h : OldEntry serde key value fields) :
    createMigrationFunctionHarmonizeLogbacks serde src id key value =
      (delayedMessage src id value fields).map fun delayed =>
        (id, serde.toVec (encodeDelayed delayed)) := by
  have hdata : ¬ (getField fields "data").isNone := by simp [← Option.isSome_iff_ne_none, h.data]
  simp only [createMigrationFunctionHarmonizeLogbacks, h.notNew, h.object, if_neg hdata]

theorem harmonize_invalid (hread : (readDelayed serde value).isSome)
    (htext : fromUtf8 value = none) :
    createMigrationFunctionHarmonizeLogbacks serde src id key value = .error .invalidUtf8 := by
  obtain ⟨d, hd⟩ := Option.isSome_iff_exists.mp hread
  simp [createMigrationFunctionHarmonizeLogbacks, hd, htext]

/-- All that the function does when it returns. -/
theorem harmonize_ok {out : String × Bytes}
    (h : createMigrationFunctionHarmonizeLogbacks serde src id key value = .ok out) :
    (Untouched serde key value ∧ out = (key, value)) ∨
      ∃ fields delayed, OldEntry serde key value fields ∧
        delayedMessage src id value fields = .ok delayed ∧
        out = (id, serde.toVec (encodeDelayed delayed)) := by
  obtain hsame | ⟨fields, hold⟩ | ⟨hread, htext⟩ := entry_cases serde key value
  · rw [harmonize_untouched hsame] at h
    exact Or.inl ⟨hsame, (Except.ok.inj h).symm⟩
  · rw [harmonize_old hold] at h
    cases hd : delayedMessage src id value fields with
    | error e => simp [hd, Except.map] at h
    | ok delayed =>
      rw [hd] at h
      exact Or.inr ⟨fields, delayed, hold, hd, (Except.ok.inj h).symm⟩
  · rw [harmonize_invalid hread htext] at h
    cases h

/-- The function returns just when no `unwrap` fails. -/
theorem total_iff :
    (∃ out, createMigrationFunctionHarmonizeLogbacks serde src id key value = .ok out) ↔
      Migratable serde key value := by
  obtain hsame | ⟨fields, hold⟩ | ⟨hread, htext⟩ := entry_cases serde key value
  · refine iff_of_true ⟨_, harmonize_untouched hsame⟩ ?_
    rcases hsame with ⟨hread, htext⟩ | ⟨hread, hdata⟩
    · exact ⟨fun _ => htext, fun hnone => absurd hread (by simp [hnone])⟩
    · refine ⟨fun h => absurd h (by simp [hread]), fun _ fields hkey h => ?_⟩
      exact absurd h (by simp [hdata fields hkey])
  · have hold' : (∃ delayed, delayedMessage src id value fields = .ok delayed) ↔
        IsOldMessage fields ∧ value.length = 8 := by
      simp only [delayedMessage_ok,
        ← @isOldMessage_iff fields src id (serde.distinct hold.object)]
      constructor
      · rintro ⟨delayed, hmsg, hlen, -⟩
        exact ⟨⟨_, hmsg⟩, hlen⟩
      · rintro ⟨⟨msg, hmsg⟩, hlen⟩
        exact ⟨⟨fromBeBytes value, msg⟩, hmsg, hlen, rfl⟩
    rw [harmonize_old hold]
    constructor
    · rintro ⟨out, hout⟩
      cases hd : delayedMessage src id value fields with
      | error e => simp [hd, Except.map] at hout
      | ok delayed =>
        refine ⟨fun h => absurd h (by simp [hold.notNew]), fun _ fields' hkey _ => ?_⟩
        obtain rfl : fields = fields' := by simpa [hold.object] using hkey
        exact hold'.mp ⟨delayed, hd⟩
    · intro h
      obtain ⟨delayed, hd⟩ := hold'.mpr (h.old hold.notNew fields hold.object hold.data)
      exact ⟨_, by rw [hd]; rfl⟩
  · refine iff_of_false ?_ fun h => absurd (h.newest hread) (by simp [htext])
    rintro ⟨out, hout⟩
    rw [harmonize_invalid hread htext] at hout
    cases hout

end outcomes

/-- An entry is migrated just when it is migratable. -/
theorem migrates_iff (serde : Serde) (logSourceIfMissing id key : String) (value : Bytes)
    (hwrites : ∀ fields delayed, serde.fromStr key = some (.obj fields) →
      delayedMessage logSourceIfMissing id value fields = .ok delayed → Writes serde delayed) :
    Migrates serde logSourceIfMissing id key value ↔ Migratable serde key value := by
  rw [← total_iff]
  refine ⟨Migrates.total, fun htotal => ⟨htotal, fun out hout => ?_, fun out hout id' => ?_⟩⟩
  · obtain ⟨-, rfl⟩ | ⟨fields, delayed, hold, hdelayed, rfl⟩ := harmonize_ok hout
    · exact Or.inl rfl
    · obtain ⟨d, hd, hdelay, hid, htype, hdata⟩ :=
        readDelayed_written (hwrites fields delayed hold.object hdelayed) hdelayed
      obtain ⟨hmsg, hlen, hbytes⟩ := delayedMessage_ok.mp hdelayed
      obtain ⟨hid', htype', hdata', -⟩ := (decodeMessage_complete (serde.distinct hold.object)).mp hmsg
      refine Or.inr ⟨fields, d, hold.object, hd, hlen, hdelay.trans hbytes, ?_, ?_, ?_⟩
      · rw [htype, htype']
      · rw [hdata, hdata']
      · rw [hid, hid']
  · obtain ⟨hsame, rfl⟩ | ⟨fields, delayed, hold, hdelayed, rfl⟩ := harmonize_ok hout
    · exact harmonize_untouched hsame
    · have hw := hwrites fields delayed hold.object hdelayed
      obtain ⟨d, hd, -⟩ := readDelayed_written hw hdelayed
      exact harmonize_untouched (Or.inl ⟨by simp [hd], hw.utf8⟩)

section entries

def jsonBytes (j : Json) : Bytes := asBytes (String.ofList (renderJson j))

/-- One key is an object, and one value is read. -/
def serdeOf (key : String) (fields : Fields) (hfields : (fields.map Prod.fst).Nodup) (j : Json) :
    Serde where
  toVec := jsonBytes
  fromSlice b := if b = jsonBytes j then some j else none
  fromStr s := if s = key then some (.obj fields) else none
  distinct := by
    intro s fields' h
    split_ifs at h
    obtain rfl : fields = fields' := by simpa using h
    exact hfields

section serdeOf
variable {key : String} {fields : Fields} {hfields : (fields.map Prod.fst).Nodup}
  {d : DelayedMessage}

theorem serdeOf_fromStr {j : Json} :
    (serdeOf key fields hfields j).fromStr key = some (.obj fields) := if_pos rfl

theorem serdeOf_writes : Writes (serdeOf key fields hfields (encodeDelayed d)) d where
  reads := if_pos rfl
  utf8 := by
    have htext := fromUtf8_asBytes (String.ofList (renderJson (encodeDelayed d)))
    exact Option.isSome_iff_exists.mpr ⟨_, htext⟩

end serdeOf

def message : Message := .new "id" "t" [1] (.logback "rule") .unlimited

/-- A delay of five seconds, as it was stored. -/
def fiveSeconds : Bytes := [0, 0, 0, 0, 0, 0, 0, 5]

theorem fiveSeconds_noText (fields : Fields) : jsonBytes (.obj fields) ≠ fiveSeconds := by
  intro h
  have htext : asBytes (String.ofList ['\x00', '\x00', '\x00', '\x00', '\x00', '\x00', '\x00', '\x05']) =
      fiveSeconds := by decide
  have hchars := String.ofList_injective (asBytes_inj (h.trans htext.symm))
  simp [renderJson] at hchars

def oldFields : Fields := [("type_", .str "t"), ("data", .arr [.num 1])]

def oldKey : String := "\x7b\"type_\":\"t\",\"data\":[1]\x7d"

def oldSerde : Serde := serdeOf oldKey oldFields (by decide) (encodeDelayed ⟨5, message⟩)

theorem readDelayed_fiveSeconds {key : String} {fields : Fields}
    {hfields : (fields.map Prod.fst).Nodup} {d : DelayedMessage} :
    readDelayed (serdeOf key fields hfields (encodeDelayed d)) fiveSeconds = none := by
  simp [readDelayed, serdeOf, encodeDelayed, (fiveSeconds_noText _).symm]

theorem old_entry_migrates : Migrates oldSerde "rule" "id" oldKey fiveSeconds := by
  have hdelayed : delayedMessage "rule" "id" fiveSeconds oldFields = .ok ⟨5, message⟩ := rfl
  refine (migrates_iff oldSerde "rule" "id" oldKey fiveSeconds ?_).mpr ⟨?_, ?_⟩
  · intro fields delayed hkey hd
    obtain rfl := Json.obj.inj (Option.some.inj (serdeOf_fromStr.symm.trans hkey))
    obtain rfl := Except.ok.inj (hdelayed.symm.trans hd)
    exact serdeOf_writes
  · intro h
    rw [oldSerde, readDelayed_fiveSeconds] at h
    cases h
  · intro _ fields hkey _
    obtain rfl := Json.obj.inj (Option.some.inj (serdeOf_fromStr.symm.trans hkey))
    exact ⟨(@isOldMessage_iff oldFields "rule" "id" (by decide)).mp ⟨message, rfl⟩, rfl⟩

def typelessFields : Fields := [("data", .arr [.num 1])]

def typelessKey : String := "\x7b\"data\":[1]\x7d"

def typelessSerde : Serde :=
  serdeOf typelessKey typelessFields (by decide) (encodeDelayed ⟨5, message⟩)

/-- The key is an object with data that is no message: the function panics. -/
theorem typeless_key_panics :
    createMigrationFunctionHarmonizeLogbacks typelessSerde "rule" "id" typelessKey fiveSeconds =
      .error .notAMessage ∧
    ¬ Migrates typelessSerde "rule" "id" typelessKey fiveSeconds := by
  have hold : OldEntry typelessSerde typelessKey fiveSeconds typelessFields :=
    ⟨readDelayed_fiveSeconds, serdeOf_fromStr, rfl⟩
  have hpanic : createMigrationFunctionHarmonizeLogbacks typelessSerde "rule" "id" typelessKey
      fiveSeconds = .error .notAMessage := by
    rw [harmonize_old hold]
    rfl
  refine ⟨hpanic, fun h => ?_⟩
  obtain ⟨out, hout⟩ := h.total
  rw [hpanic] at hout
  cases hout

end entries
end PlaidRuntime.LogbackMigration
