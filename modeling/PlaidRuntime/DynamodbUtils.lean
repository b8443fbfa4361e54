import PlaidRuntime.Decimal
import PlaidRuntime.SortedEntries
import PlaidRuntime.GuestMemory

/-!
# JSON values and DynamoDB attributes

The two conversions of `apis/aws/dynamodb_utils.rs`. A `serde_json` map and the `HashMap` of an
attribute are both written as entries in key order; the order in which a `HashMap` iterates is a
parameter.
-/
namespace PlaidRuntime.DynamodbUtils
open Decimal SortedEntries GuestMemory

/-- `F` are the values of an `f64`. -/
inductive Number (F : Type)
  | int (i : ℤ)
  | float (x : F)
  deriving DecidableEq

inductive Value (F : Type)
  | null
  | bool (b : Bool)
  | number (n : Number F)
  | string (s : String)
  | array (elems : List (Value F))
  | object (entries : List (String × Value F))

/-- `unknown` stands for the variants a later SDK may add. -/
inductive AttributeValue
  | s (x : String)
  | n (x : String)
  | bool (b : Bool)
  | null (b : Bool)
  | b (blob : Bytes)
  | ss (xs : List String)
  | ns (xs : List String)
  | bs (blobs : List Bytes)
  | l (items : List AttributeValue)
  | m (entries : List (String × AttributeValue))
  | unknown

inductive ApiError
  | serdeError (text : String)
  deriving DecidableEq, Repr

/-- Text formats of other crates and of `f64`; a failed `base64::decode` gives its message. -/
structure Formats (F : Type) where
  encode : Bytes → String
  decode : String → Except String Bytes
  f64OfInt : ℤ → F
  f64ToString : F → String
  parseF64 : String → Option F

def inI64 (i : ℤ) : Prop := -2 ^ 63 ≤ i ∧ i ≤ 2 ^ 63 - 1

instance (i : ℤ) : Decidable (inI64 i) := inferInstanceAs (Decidable (_ ∧ _))

def parseI64 : String → Option ℤ := parseInt (-2 ^ 63) (2 ^ 63 - 1)

theorem parseI64_toString {i : ℤ} (h : inI64 i) : parseI64 (toString i) = some i :=
  parseInt_toString h.1 h.2

variable {F : Type} (formats : Formats F)

def Value.isString : Value F → Bool
  | .string _ => true
  | _ => false

def Value.isNumber : Value F → Bool
  | .number _ => true
  | _ => false

def Value.asStr : Value F → Option String
  | .string s => some s
  | _ => none

def Number.asI64 : Number F → Option ℤ
  | .int i => if inI64 i then some i else none
  | .float _ => none

def Number.asF64 : Number F → Option F
  | .int i => some (formats.f64OfInt i)
  | .float x => some x

def Value.asI64 : Value F → Option ℤ
  | .number n => n.asI64
  | _ => none

def Value.asF64 : Value F → Option F
  | .number n => n.asF64 formats
  | _ => none

inductive ArrayMembers
  | allStrings
  | allNumbers
  | allBinary
  | nonUniform
  deriving DecidableEq

def isBase64 (v : Value F) : Bool :=
  match v.asStr with
  | some s => (formats.decode s).isOk
  | none => false

def inspectArrayMembers (arr : List (Value F)) : ArrayMembers :=
  if arr.all Value.isString then .allStrings
  else if arr.all Value.isNumber then .allNumbers
  else if arr.all (isBase64 formats) then .allBinary
  else .nonUniform

def decodeBlob (s : String) : Except ApiError Bytes :=
  match formats.decode s with
  | .ok blob => .ok blob
  | .error e => .error (.serdeError s!"Failed to decode base64: {e}")

/-- The text of a number; `invalid` is the message for one that is neither form. -/
def numberText (invalid : String) (i : Option ℤ) (x : Option F) : Except ApiError String :=
  match i, x with
  | some i, _ => .ok (toString i)
  | none, some x => .ok (formats.f64ToString x)
  | none, none => .error (.serdeError invalid)

def setNumber (v : Value F) : Except ApiError String :=
  numberText formats "Invalid number in number set" v.asI64 (v.asF64 formats)

def setBinary (v : Value F) : Except ApiError Bytes :=
  match v.asStr with
  | some s => decodeBlob formats s
  | none => .error (.serdeError "Invalid binary value")

/-- `collect` into a `Result`: the first error ends it. -/
def collect {α β : Type} (f : α → Except ApiError β) : List α → Except ApiError (List β)
  | [] => .ok []
  | x :: xs =>
    match f x with
    | .error e => .error e
    | .ok y => (collect f xs).map (y :: ·)

/-- An object with the one key `_binary` stands for bytes. -/
def isBinaryObject (entries : List (String × Value F)) : Bool :=
  entries.length == 1 && (entries.lookup "_binary").isSome

def binaryObject (entries : List (String × Value F)) : Except ApiError AttributeValue :=
  match entries.lookup "_binary" with
  | some (.string s) => (decodeBlob formats s).map .b
  | _ => .error (.serdeError "_binary must be a base64-encoded string")

mutual

def toAttributeValue : Value F → Except ApiError AttributeValue
  | .string s => .ok (.s s)
  | .number n =>
    (numberText formats "Unsupported number format" n.asI64 (n.asF64 formats)).map .n
  | .bool b => .ok (.bool b)
  | .null => .ok (.null true)
  | .array arr =>
    if arr.isEmpty then .error (.serdeError "Lists and sets cannot be empty")
    else match inspectArrayMembers formats arr with
      | .allStrings => .ok (.ss (arr.filterMap Value.asStr))
      | .allNumbers => (collect (setNumber formats) arr).map .ns
      | .allBinary => (collect (setBinary formats) arr).map .bs
      | .nonUniform => (toAttributeValues arr).map .l
  | .object obj =>
    if isBinaryObject obj then binaryObject formats obj
    else (toAttributeEntries obj).map fun es => .m (ofEntries es)

def toAttributeValues : List (Value F) → Except ApiError (List AttributeValue)
  | [] => .ok []
  | v :: vs =>
    match toAttributeValue v with
    | .error e => .error e
    | .ok a => (toAttributeValues vs).map (a :: ·)

def toAttributeEntries : List (String × Value F) → Except ApiError (List (String × AttributeValue))
  | [] => .ok []
  | (k, v) :: es =>
    match toAttributeValue v with
    | .error e => .error e
    | .ok a => (toAttributeEntries es).map ((k, a) :: ·)

end

/-- A number attribute as JSON, an integer when it reads as one. -/
def parseNumber (invalid : String → String) (text : String) : Except ApiError (Value F) :=
  match parseI64 text with
  | some i => .ok (.number (.int i))
  | none =>
    match formats.parseF64 text with
    | some x => .ok (.number (.float x))
    | none => .error (.serdeError (invalid text))

def collectEntries : List (String × Except ApiError (Value F)) →
    Except ApiError (List (String × Value F))
  | [] => .ok []
  | (_, .error e) :: _ => .error e
  | (k, .ok v) :: es => (collectEntries es).map ((k, v) :: ·)

section decoder
-- how the `HashMap` of an attribute iterates
variable (order : List (String × Except ApiError (Value F)) →
  List (String × Except ApiError (Value F)))

mutual

def toJsonValue : AttributeValue → Except ApiError (Value F)
  | .s s => .ok (.string s)
  | .n n => parseNumber formats (fun n => s!"Invalid number format: {n}") n
  | .b blob => .ok (.object [("_binary", .string (formats.encode blob))])
  | .bool b => .ok (.bool b)
  | .null _ => .ok .null
  | .l list => (toJsonValues list).map .array
  | .m map => (collectEntries (order (toJsonEntries map))).map fun es => .object (ofEntries es)
  | .ss strings =>
    if strings.isEmpty then .error (.serdeError "String set cannot be empty")
    else .ok (.array (strings.map .string))
  | .ns numbers =>
    if numbers.isEmpty then .error (.serdeError "Number set cannot be empty")
    else (collect (parseNumber formats fun n => s!"Invalid number in number set: {n}") numbers).map
      .array
  | .bs blobs =>
    if blobs.isEmpty then .error (.serdeError "Binary set cannot be empty")
    else .ok (.array (blobs.map fun blob => .string (formats.encode blob)))
  | .unknown => .error (.serdeError "Unsupported AttributeValue variant: Unknown")

def toJsonValues : List AttributeValue → Except ApiError (List (Value F))
  | [] => .ok []
  | a :: as =>
    match toJsonValue a with
    | .error e => .error e
    | .ok v => (toJsonValues as).map (v :: ·)

def toJsonEntries : List (String × AttributeValue) → List (String × Except ApiError (Value F))
  | [] => []
  | (k, a) :: es => (k, toJsonValue a) :: toJsonEntries es

end
end decoder
end PlaidRuntime.DynamodbUtils
