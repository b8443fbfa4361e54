import PlaidRuntime.MessageCodec

/-!
# Lists of strings as JSON

A `Vec<String>` is an array of strings. The compact text of such an array can be read back.
-/
namespace PlaidRuntime.JsonStrings
open GuestMemory MessageCodec

def encodeStrings (v : List String) : Json := .arr (v.map .str)

def decodeStrings : Json → Option (List String)
  | .arr items => items.mapM decodeString
  | _ => none

theorem decodeStrings_encodeStrings (v : List String) : decodeStrings (encodeStrings v) = some v := by
  simp only [encodeStrings, decodeStrings]
  induction v with
  | nil => rfl
  | cons s v ih => simp [decodeString, ih]

section text

def hexValue (c : Char) : ℕ := if c.isDigit then c.toNat - 48 else c.toNat - 87

/-- The escapes of one letter. -/
def unescape (c : Char) : Char :=
  if c = 'n' then '\n'
  else if c = 'r' then '\r'
  else if c = 't' then '\t'
  else if c = 'b' then Char.ofNat 8
  else if c = 'f' then Char.ofNat 12
  else c

/-- Reads the elements of an array of strings. Within a string, `cur` holds what has been read of
it backwards; `acc` holds the strings before it backwards. -/
def readStrings : Option (List Char) → List String → List Char → Option (List String)
  | some cur, acc, '"' :: cs => readStrings none (String.ofList cur.reverse :: acc) cs
  | some cur, acc, '\\' :: 'u' :: '0' :: '0' :: h :: l :: cs =>
    readStrings (some (Char.ofNat (hexValue h * 16 + hexValue l) :: cur)) acc cs
  | some cur, acc, '\\' :: c :: cs => readStrings (some (unescape c :: cur)) acc cs
  | some cur, acc, c :: cs => readStrings (some (c :: cur)) acc cs
  | none, acc, [']'] => some acc.reverse
  | none, acc, ',' :: '"' :: cs => readStrings (some []) acc cs
  | _, _, _ => none

def readArray : List Char → Option (List String)
  | ['[', ']'] => some []
  | '[' :: '"' :: cs => readStrings (some []) [] cs
  | _ => none

/-- The text level for arrays of strings. -/
def stringsText : JsonText where
  toVec j := asBytes (String.ofList (renderJson j))
  fromSlice b := (fromUtf8 b).bind fun s => (readArray s.toList).map encodeStrings

theorem hexValue_digits : ∀ n < 32,
    hexValue (Nat.digitChar (n / 16)) * 16 + hexValue (Nat.digitChar (n % 16)) = n := by
  decide

/-- Every escaped character is read back. -/
theorem readStrings_escape (c : Char) (cur : List Char) (acc : List String) (cs : List Char) :
    readStrings (some cur) acc (escapeChar c ++ cs) = readStrings (some (c :: cur)) acc cs := by
  unfold escapeChar
  split
  · subst_vars
    rfl
  split
  · subst_vars
    rfl
  split
  · subst_vars
    rfl
  split
  · subst_vars
    rfl
  split
  · subst_vars
    rfl
  split
  · rename_i h
    have hc : c = Char.ofNat 8 := by rw [← h, Char.ofNat_toNat]
    rw [hc]
    rfl
  split
  · rename_i h
    have hc : c = Char.ofNat 12 := by rw [← h, Char.ofNat_toNat]
    rw [hc]
    rfl
  split
  · rename_i h
    have hread := hexValue_digits c.toNat h
    change readStrings (some (Char.ofNat _ :: cur)) acc cs = _
    rw [hread, Char.ofNat_toNat]
  · rename_i hslash _ _ _ _ _ _
    rw [List.singleton_append]
    simp [readStrings, hslash]

theorem readStrings_escaped (s cur : List Char) (acc : List String) (cs : List Char) :
    readStrings (some cur) acc (s.flatMap escapeChar ++ cs) =
      readStrings (some (s.reverse ++ cur)) acc cs := by
  induction s generalizing cur with
  | nil => rfl
  | cons c s ih =>
    rw [List.flatMap_cons, List.append_assoc, readStrings_escape, ih, List.reverse_cons,
      List.append_assoc]
    rfl

theorem readStrings_items (s : String) (v acc : List String) :
    readStrings (some []) acc
        (s.toList.flatMap escapeChar ++ '"' :: (v.flatMap fun s => ',' :: quoteChars s) ++ [']']) =
      some (acc.reverse ++ s :: v) := by
  induction v generalizing s acc with
  | nil =>
    rw [List.flatMap_nil, List.append_assoc, readStrings_escaped, List.append_nil]
    change some ((String.ofList s.toList.reverse.reverse :: acc).reverse) = _
    rw [List.reverse_reverse, String.ofList_toList, List.reverse_cons]
  | cons t v ih =>
    rw [List.append_assoc, readStrings_escaped, List.append_nil]
    change readStrings none (String.ofList s.toList.reverse.reverse :: acc) _ = _
    rw [List.reverse_reverse, String.ofList_toList, List.flatMap_cons]
    have hnext := ih t (s :: acc)
    have hrev : (s :: acc).reverse ++ t :: v = acc.reverse ++ s :: t :: v := by simp
    rw [← hrev, ← hnext, quoteChars]
    simp only [List.append_eq, List.cons_append, List.append_assoc, List.nil_append]
    rfl

theorem renderItems_strings (s : String) (v : List String) :
    renderItems ((s :: v).map .str) = quoteChars s ++ v.flatMap fun s => ',' :: quoteChars s := by
  induction v generalizing s with
  | nil =>
    simp [renderItems, renderJson]
  | cons t v ih =>
    have hnext := ih t
    simp only [List.map_cons] at hnext
    simp only [List.map_cons, renderItems, renderJson, hnext, List.flatMap_cons, List.cons_append]

theorem stringsText_roundTrips (v : List String) : stringsText.RoundTrips (encodeStrings v) := by
  have hread : readArray (renderJson (encodeStrings v)) = some v := by
    cases v with
    | nil => rfl
    | cons s v =>
      have hitems := readStrings_items s v []
      rw [encodeStrings, renderJson, renderItems_strings]
      rw [List.reverse_nil, List.nil_append] at hitems
      rw [← hitems]
      simp only [quoteChars, List.cons_append, List.append_assoc, List.nil_append]
      rfl
  rw [JsonText.RoundTrips, stringsText]
  simp only [fromUtf8_asBytes, Option.bind_some, String.toList_ofList, hread, Option.map_some]

end text
end PlaidRuntime.JsonStrings
