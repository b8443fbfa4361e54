import PlaidRuntime.LengthPrefix
import PlaidRuntime.MessageCodec

/-!
# How a message reaches a rule

The host writes the data and the source of a message into one buffer of the guest
(`functions/message.rs`); the entrypoint macros of `plaid-stl` take it apart again
(`plaid-stl/src/lib.rs`).
-/
namespace PlaidRuntime.EntryPoint
open MachineWord GuestMemory LogbackMessage MessageCodec LengthPrefix

/-- The length of the data as `u32`, the data, the source as JSON. -/
def ruleData (text : JsonText) (msg : Message) : Bytes :=
  leBytes 4 (msg.data.length % 2 ^ 32) ++ msg.data ++ text.toVec (encodeSource msg.source)

/-- Serializing a source cannot fail, so the code -4 for that has no counterpart. -/
def fetchDataAndSource (text : JsonText) (msg : Message) (memory : Option MemoryView)
    (dataBuffer bufferSize : UInt32) : HostResult :=
  match memory with
  | none => fail .internalApiError none
  | some m => writeBack m (ruleData text msg) dataBuffer bufferSize

/-- A zeroed vector of the guest, as it lies in the guest's memory. -/
structure Buffer (n : ℕ) where
  memory : MemoryView
  ptr : UInt32
  zeroed : memory.read ptr.toNat n = some (List.replicate n 0)

/-- The content of the vector after a host call. -/
def Buffer.after {n : ℕ} (b : Buffer n) (r : HostResult) : Bytes :=
  (r.memory.bind fun m => m.read b.ptr.toNat n).getD (List.replicate n 0)

/-- The guest: its memory when it asks for the size, the pointer of an empty vector, and the
allocator, which may find no room. -/
structure Guest where
  memory : MemoryView
  dangling : UInt32
  alloc : (n : ℕ) → Option (Buffer n)

/-- How an entrypoint goes on: it exits, it traps, or it calls `main`. -/
inductive Entry (α : Type)
  | exit (code : ℤ)
  | outOfMemory
  | outOfRange
  | main (log : α) (source : LogSource)
  deriving DecidableEq

/-- `usize` has 32 bits in the guest. -/
def addUsize (a b : ℕ) : ℕ := (a + b) % 2 ^ 32

section macros
variable {α : Type}

def decodeBuffer (readLog : Bytes → Option α) (text : JsonText) (dataBuffer : Bytes) : Entry α :=
  match slice dataBuffer 0 4 with
  | none => .outOfRange
  | some head =>
    let logLength := leValue head
    match slice dataBuffer 4 (addUsize 4 logLength) with
    | none => .outOfRange
    | some log =>
      match readLog log with
      | none => .exit (-2)
      | some log =>
        match slice dataBuffer (addUsize 4 logLength) dataBuffer.length with
        | none => .outOfRange
        | some logSource =>
          match (text.fromSlice logSource).bind decodeSource with
          | none => .exit (-2)
          | some source => .main log source

/-- The second half of the macros, once the size is known. -/
def copyAndDecode (onCopy : ℤ → ℤ) (readLog : Bytes → Option α) (text : JsonText) (msg : Message)
    (g : Guest) (bufferSize : ℕ) : Entry α :=
  match g.alloc bufferSize with
  | none => .outOfMemory
  | some b =>
    let copied := fetchDataAndSource text msg (some b.memory) b.ptr (UInt32.ofNat bufferSize)
    if copied.i32 < 4 then .exit (onCopy copied.i32)
    else if copied.i32.toNat ≠ bufferSize then .exit (-1)
    else decodeBuffer readLog text (b.after copied)

/-- What the entrypoint macros share. They differ in the codes they exit with when a host call
fails and in what they make of the log. -/
def entrypointOf (onProbe onCopy : ℤ → ℤ) (readLog : Bytes → Option α) (text : JsonText)
    (msg : Message) (g : Guest) : Entry α :=
  let bufferSize := (fetchDataAndSource text msg (some g.memory) g.dangling 0).i32
  if bufferSize < 4 then .exit (onProbe bufferSize)
  else copyAndDecode onCopy readLog text msg g bufferSize.toNat

end macros

def entrypointWithSource : JsonText → Message → Guest → Entry String :=
  entrypointOf (fun _ => -3) (fun _ => -4) fromUtf8

def entrypointWithSourceAndResponse : JsonText → Message → Guest → Entry String :=
  entrypointOf (fun _ => -3) (fun _ => -4) fromUtf8

def entrypointVecWithSource : JsonText → Message → Guest → Entry Bytes :=
  entrypointOf id id some

section decoding
variable {α : Type} {text : JsonText} {msg : Message}

theorem ruleData_eq_frame (h : msg.data.length < 2 ^ 32) :
    ruleData text msg = frame 4 msg.data (text.toVec (encodeSource msg.source)) := by
  rw [ruleData, Nat.mod_eq_of_lt h]
  rfl

/-- The buffer is taken apart where it was put together. -/
theorem decodeBuffer_ruleData (readLog : Bytes → Option α) (hsize : (ruleData text msg).length < 2 ^ 31)
    (htext : text.RoundTrips (encodeSource msg.source)) :
    decodeBuffer readLog text (ruleData text msg) =
      match readLog msg.data with
      | none => .exit (-2)
      | some log => .main log msg.source := by
  have hdata : msg.data.length < 2 ^ 31 := by
    simp only [ruleData, List.length_append, leBytes_length] at hsize
    omega
  have hframe : ruleData text msg = frame 4 msg.data (text.toVec (encodeSource msg.source)) :=
    ruleData_eq_frame (by omega)
  rw [hframe] at hsize ⊢
  have hlen : leValue (leBytes 4 msg.data.length) = msg.data.length :=
    leValue_leBytes (by norm_num at hdata ⊢; omega)
  have hadd : addUsize 4 msg.data.length = 4 + msg.data.length := by
    rw [frame_length] at hsize
    exact Nat.mod_eq_of_lt (by omega)
  have hsource : (text.fromSlice (text.toVec (encodeSource msg.source))).bind decodeSource =
      some msg.source := by
    rw [htext, Option.bind_some, decodeSource_encodeSource]
  simp only [decodeBuffer, slice_frame_length, hlen, hadd, slice_frame_first, slice_frame_second,
    hsource]

end decoding

section calls
variable {α : Type} {text : JsonText} {msg : Message}

theorem fetch_probe (hsize : (ruleData text msg).length < 2 ^ 31) (m : MemoryView) (ptr : UInt32) :
    (fetchDataAndSource text msg (some m) ptr 0).i32 = (ruleData text msg).length := by
  simp [fetchDataAndSource, writeBack, safelyWriteDataBack, HostResult.i32, asI32_of_lt hsize]

/-- A buffer of the probed size gets the whole of the data. -/
theorem fetch_copy (hsize : (ruleData text msg).length < 2 ^ 31)
    (b : Buffer (ruleData text msg).length) :
    let copied := fetchDataAndSource text msg (some b.memory) b.ptr
      (UInt32.ofNat (ruleData text msg).length)
    copied.i32 = (ruleData text msg).length ∧ b.after copied = ruleData text msg := by
  intro copied
  have hn : (UInt32.ofNat (ruleData text msg).length).toNat = (ruleData text msg).length :=
    toNat_ofNat_u32 hsize
  have hpos : UInt32.ofNat (ruleData text msg).length ≠ 0 := by
    intro h0
    rw [h0] at hn
    simp only [UInt32.toNat_zero, ruleData, List.length_append, leBytes_length] at hn
    omega
  obtain ⟨m', hwrite, hread⟩ := @MemoryView.write_of_read _ _ _ (ruleData text msg) b.zeroed
  have hcopied : copied = ⟨.ok (asI32 (ruleData text msg).length), some m'⟩ := by
    simp [copied, fetchDataAndSource, writeBack, safelyWriteDataBack, hpos, hn, hwrite]
  rw [hcopied]
  exact ⟨asI32_of_lt hsize, by simp [Buffer.after, hread]⟩

/-- The size returned by the first call is the size the second one writes, and the entrypoint
gets the data, as far as it can read it, and the source. -/
theorem entrypointOf_decodes {onProbe onCopy : ℤ → ℤ} {readLog : Bytes → Option α} {g : Guest}
    {b : Buffer (ruleData text msg).length} (hsize : (ruleData text msg).length < 2 ^ 31)
    (htext : text.RoundTrips (encodeSource msg.source))
    (halloc : g.alloc (ruleData text msg).length = some b) :
    entrypointOf onProbe onCopy readLog text msg g =
      match readLog msg.data with
      | none => .exit (-2)
      | some log => .main log msg.source := by
  obtain ⟨hcopy, hafter⟩ := fetch_copy hsize b
  have hlow : ¬ ((ruleData text msg).length : ℤ) < 4 := by
    simp only [ruleData, List.length_append, leBytes_length]
    omega
  have hprobe := fetch_probe hsize g.memory g.dangling
  rw [entrypointOf, hprobe, if_neg hlow, Int.toNat_natCast, copyAndDecode, halloc]
  simp only [hcopy, if_neg hlow, Int.toNat_natCast, ne_eq, not_true_eq_false, if_false, hafter]
  exact decodeBuffer_ruleData readLog hsize htext

/-- Host and library agree: both calls return the size of what is written, the buffer holds it
in full, and the macros hand on the same data and source; data that is not UTF-8 ends the
macros that want a string with -2. -/
theorem entrypoint_decodes {g : Guest} {b : Buffer (ruleData text msg).length}
    (hsize : (ruleData text msg).length < 2 ^ 31)
    (htext : text.RoundTrips (encodeSource msg.source))
    (halloc : g.alloc (ruleData text msg).length = some b) :
    let copied := fetchDataAndSource text msg (some b.memory) b.ptr
      (UInt32.ofNat (ruleData text msg).length)
    (fetchDataAndSource text msg (some g.memory) g.dangling 0).i32 = (ruleData text msg).length ∧
    copied.i32 = (ruleData text msg).length ∧
    b.after copied = ruleData text msg ∧
    entrypointVecWithSource text msg g = .main msg.data msg.source ∧
    (∀ s, fromUtf8 msg.data = some s →
      entrypointWithSource text msg g = .main s msg.source ∧
      entrypointWithSourceAndResponse text msg g = .main s msg.source) ∧
    (fromUtf8 msg.data = none →
      entrypointWithSource text msg g = .exit (-2) ∧
      entrypointWithSourceAndResponse text msg g = .exit (-2)) := by
  intro copied
  obtain ⟨hcopy, hafter⟩ := fetch_copy hsize b
  refine ⟨fetch_probe hsize _ _, hcopy, hafter, entrypointOf_decodes hsize htext halloc, ?_, ?_⟩
  · intro s hs
    have hmain := @entrypointOf_decodes _ text msg (fun _ => -3) (fun _ => -4) fromUtf8 g b hsize
      htext halloc
    rw [hs] at hmain
    exact ⟨hmain, hmain⟩
  · intro hs
    have hexit := @entrypointOf_decodes _ text msg (fun _ => -3) (fun _ => -4) fromUtf8 g b hsize
      htext halloc
    rw [hs] at hexit
    exact ⟨hexit, hexit⟩

end calls

section instances

/-- A guest with all its memory free. -/
def freeGuest : Guest where
  memory := ⟨[]⟩
  dangling := 1
  alloc n := some ⟨⟨List.replicate n 0⟩, 0, by simp [MemoryView.read]⟩

def helloMessage : Message :=
  .new "id" "greeting" (asBytes "hello") (.logback "sender.wasm") (.limited 0)

def helloText : JsonText := textOf (encodeSource helloMessage.source)

theorem hello_decoded :
    entrypointVecWithSource helloText helloMessage freeGuest =
      .main (asBytes "hello") (.logback "sender.wasm") ∧
    entrypointWithSource helloText helloMessage freeGuest =
      .main "hello" (.logback "sender.wasm") := by
  have h := @entrypoint_decodes helloText helloMessage freeGuest _ (by decide +kernel)
    (textOf_roundTrips _) rfl
  exact ⟨h.2.2.2.1, (h.2.2.2.2.1 "hello" (fromUtf8_asBytes "hello")).1⟩

end instances
end PlaidRuntime.EntryPoint
