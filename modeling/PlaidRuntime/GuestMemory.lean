import PlaidRuntime.MachineWord

/-!
# Host functions and the guest's memory

The error codes host functions return to a rule, and the bounds-checked accesses to the
linear memory of the WebAssembly instance (`functions/mod.rs`, `functions/memory.rs`).
-/
namespace PlaidRuntime.GuestMemory
open MachineWord

abbrev Bytes := List UInt8

inductive FunctionErrors
  | apiNotConfigured
  | returnBufferTooSmall
  | errorCouldNotSerialize
  | internalApiError
  | parametersNotUtf8
  | invalidPointer
  | cacheDisabled
  | couldNotGetAdequateMemory
  | failedToWriteGuestMemory
  | storageLimitReached
  | testMode
  | operationNotAllowed
  | sharedDbError
  | timeoutElapsed
  | failedToLogBack
  | logbackBudgetExhausted
  deriving DecidableEq, Repr

def FunctionErrors.code : FunctionErrors → ℤ
  | .apiNotConfigured => -1
  | .returnBufferTooSmall => -2
  | .errorCouldNotSerialize => -3
  | .internalApiError => -4
  | .parametersNotUtf8 => -5
  | .invalidPointer => -6
  | .cacheDisabled => -7
  | .couldNotGetAdequateMemory => -8
  | .failedToWriteGuestMemory => -9
  | .storageLimitReached => -10
  | .testMode => -11
  | .operationNotAllowed => -12
  | .sharedDbError => -13
  | .timeoutElapsed => -14
  | .failedToLogBack => -15
  | .logbackBudgetExhausted => -16

/-- The linear memory of one guest instance. -/
structure MemoryView where
  bytes : Bytes
  deriving DecidableEq, Repr

def MemoryView.read (m : MemoryView) (offset len : ℕ) : Option Bytes :=
  if offset + len ≤ m.bytes.length then some ((m.bytes.drop offset).take len) else none

def MemoryView.write (m : MemoryView) (offset : ℕ) (data : Bytes) : Option MemoryView :=
  if offset + data.length ≤ m.bytes.length then
    some ⟨m.bytes.take offset ++ data ++ m.bytes.drop (offset + data.length)⟩
  else none

theorem MemoryView.read_all (m : MemoryView) : m.read 0 m.bytes.length = some m.bytes := by
  simp [MemoryView.read]

theorem MemoryView.read_zero {m : MemoryView} {offset n : ℕ} {b : Bytes}
    (h : m.read offset n = some b) : m.read offset 0 = some [] := by
  unfold MemoryView.read at h ⊢
  split at h
  · rw [if_pos (by omega)]
    simp
  · cases h

/-- What fits the place of readable bytes can be written there and read back. -/
theorem MemoryView.write_of_read {m : MemoryView} {offset : ℕ} {b data : Bytes}
    (h : m.read offset data.length = some b) :
    ∃ m', m.write offset data = some m' ∧ m'.read offset data.length = some data := by
  unfold MemoryView.read at h
  split at h
  · rename_i hfits
    refine ⟨_, if_pos hfits, ?_⟩
    have hlen : (m.bytes.take offset).length = offset := by
      rw [List.length_take]
      omega
    simp only [MemoryView.read, List.length_append, hlen, List.append_assoc]
    rw [if_pos (by omega), List.drop_append_of_le_length hlen.ge, List.drop_of_length_le hlen.le,
      List.nil_append, List.take_left]
  · cases h

theorem MemoryView.write_fits {m : MemoryView} {offset n : ℕ} {b data : Bytes}
    (h : m.read offset n = some b) (hd : data.length ≤ n) : ∃ m', m.write offset data = some m' := by
  unfold MemoryView.read at h
  split at h
  · exact ⟨_, if_pos (by omega)⟩
  · cases h

def wasmPageSize : ℕ := 65536

def calculateMaxBufferSize (pageLimit : UInt32) : ℕ :=
  saturatingMulU32 pageLimit.toNat wasmPageSize

def fromUtf8 (b : Bytes) : Option String := String.fromUTF8? ⟨b.toArray⟩

/-- `str::as_bytes`. -/
def asBytes (s : String) : Bytes := s.toUTF8.data.toList

theorem fromUtf8_asBytes (s : String) : fromUtf8 (asBytes s) = some s := by
  have hvalid : s.toByteArray.IsValidUTF8 := s.isValidUTF8
  unfold fromUtf8 String.fromUTF8?
  exact dif_pos hvalid

theorem asBytes_of_fromUtf8 {b : Bytes} {s : String} (h : fromUtf8 b = some s) : asBytes s = b := by
  unfold fromUtf8 String.fromUTF8? at h
  split at h
  · cases h
    rfl
  · cases h

theorem asBytes_inj {s t : String} (h : asBytes s = asBytes t) : s = t := by
  have hf := fromUtf8_asBytes s
  rw [h, fromUtf8_asBytes] at hf
  exact (Option.some.inj hf).symm

/-- A prefix of the bytes is a prefix of the characters. -/
theorem asBytes_prefix_iff {p s : String} : asBytes p <+: asBytes s ↔ p.toList <+: s.toList := by
  have hbytes : ∀ t : String, asBytes t = t.toList.utf8Encode.data.toList := fun t => by
    simp [asBytes]
  rw [hbytes, hbytes]
  constructor
  · rintro ⟨rest, h⟩
    apply List.isPrefix_of_utf8Encode_append_eq_utf8Encode ⟨rest.toArray⟩
    apply ByteArray.ext
    rw [← Array.toList_inj]
    simpa using h
  · rintro ⟨rest, h⟩
    rw [← h, List.utf8Encode_append]
    exact ⟨rest.utf8Encode.data.toList, by simp⟩

theorem length_asBytes (s : String) : (asBytes s).length = s.utf8ByteSize := rfl

def safelyGetString (m : MemoryView) (buffer size : UInt32) : Except FunctionErrors String :=
  match (m.read buffer.toNat size.toNat).bind fromUtf8 with
  | some s => .ok s
  | none => .error .parametersNotUtf8

def safelyGetMemory (m : MemoryView) (buffer size : UInt32) (maxBufferSize : ℕ) :
    Except FunctionErrors Bytes :=
  if maxBufferSize < size.toNat then .error .couldNotGetAdequateMemory
  else match m.read buffer.toNat size.toNat with
    | some b => .ok b
    | none => .error .couldNotGetAdequateMemory

/-- The returned integer is `data.len() as i32`. A write through a slice of the right
length cannot fail, so the source's last error branch has no counterpart. -/
def safelyWriteDataBack (m : MemoryView) (data : Bytes) (buffer size : UInt32) :
    Except FunctionErrors (ℤ × MemoryView) :=
  if size = 0 then .ok (asI32 data.length, m)
  else if size.toNat < data.length then .error .returnBufferTooSmall
  else match m.write buffer.toNat data with
    | some m' => .ok (asI32 data.length, m')
    | none => .error .couldNotGetAdequateMemory

/-- What a host function hands back: an `i32` that is a length or an error code, and the
guest memory it leaves. -/
structure HostResult where
  ret : Except FunctionErrors ℤ
  memory : Option MemoryView

def HostResult.i32 (r : HostResult) : ℤ :=
  match r.ret with
  | .ok n => n
  | .error e => e.code

def fail (e : FunctionErrors) (m : Option MemoryView) : HostResult := ⟨.error e, m⟩

/-- The common ending of the host functions that return stored data. -/
def writeBack (m : MemoryView) (data : Bytes) (buffer size : UInt32) : HostResult :=
  match safelyWriteDataBack m data buffer size with
  | .ok (n, m') => ⟨.ok n, some m'⟩
  | .error e => ⟨.error e, some m⟩

theorem writeBack_ret_ne (m : MemoryView) (data : Bytes) (buffer size : UInt32)
    {e : FunctionErrors} (h : (writeBack m data buffer size).ret = .error e) :
    e = .returnBufferTooSmall ∨ e = .couldNotGetAdequateMemory := by
  unfold writeBack safelyWriteDataBack at h
  split_ifs at h with h0 h1
  · simp at h
    exact Or.inl h.symm
  · cases hw : m.write buffer.toNat data with
    | some m' => simp [hw] at h
    | none =>
      simp [hw] at h
      exact Or.inr h.symm

theorem safelyGetString_of_read {m : MemoryView} {buffer size : UInt32} {s : String}
    (h : m.read buffer.toNat size.toNat = some (asBytes s)) : safelyGetString m buffer size = .ok s := by
  simp [safelyGetString, h, fromUtf8_asBytes]

theorem safelyGetMemory_length {m : MemoryView} {buffer size : UInt32} {limit : ℕ} {b : Bytes}
    (h : safelyGetMemory m buffer size limit = .ok b) :
    b.length = size.toNat ∧ size.toNat ≤ limit := by
  unfold safelyGetMemory MemoryView.read at h
  split_ifs at h with h0 h1
  · cases h
    rw [List.length_take, List.length_drop]
    omega

end PlaidRuntime.GuestMemory
