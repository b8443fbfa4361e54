import PlaidRuntime.Fallible
import PlaidRuntime.GuestMemory

/-!
# Signatures of a module

`check_module_signatures` (`loader/signing.rs`): a module is loaded when enough authorised signers
have signed the hash of its bytes. The directory is listed in any order.
-/
namespace PlaidRuntime.ModuleSigning
open Fallible GuestMemory

inductive Errors
  | invalidFileType (expected received : String)
  | signingError (e : String)
  | notEnoughValidSignatures (valid required : ℕ)
  | fileError (e : String)
  deriving DecidableEq, Repr

/-- `content` is what reading the file as text gives. -/
structure DirEntry where
  fileName : String
  content : Except String String

/-- The crates around it. `verifies` is what a correct verification decides: the signature was made
by its key over the message in the namespace. -/
structure Sshcerts (PublicKey SshSignature Fingerprint : Type) where
  digest : Bytes → Bytes
  encodeHex : Bytes → String
  fingerprint : PublicKey → Fingerprint
  fingerprintText : Fingerprint → String
  fingerprintText_injective : Function.Injective fingerprintText
  pubkey : SshSignature → PublicKey
  fromArmoredString : String → Except String SshSignature
  fromSshSignature : Bytes → SshSignature → String → Option PublicKey → Except String SshSignature
  verifies : Bytes → SshSignature → String → Prop
  fromSshSignature_ok : ∀ message signature ns verified,
    fromSshSignature message signature ns (some (pubkey signature)) = .ok verified ↔
      verifies message signature ns ∧ verified = signature

structure ModuleSigningConfiguration (PublicKey : Type) where
  authorizedSigners : List PublicKey
  signaturesDir : String
  signatureNamespace : String
  signaturesRequired : ℕ

/-- `read_dir`; an entry can be bad by itself. -/
abbrev ReadDir : Type := String → Except String (List (Except String DirEntry))

def readInSignature (entry : DirEntry) : Except Errors String :=
  if entry.fileName.endsWith ".sig" then entry.content.mapError .fileError
  else .error (.invalidFileType ".sig" entry.fileName)

variable {PublicKey SshSignature Fingerprint : Type} [DecidableEq Fingerprint]
  (ssh : Sshcerts PublicKey SshSignature Fingerprint)
  (signing : ModuleSigningConfiguration PublicKey)

def verifySignatureFile (entry : DirEntry) (moduleHash : Bytes) (ns : String) :
    Except Errors PublicKey := do
  let signature ← readInSignature entry
  let sshSignature ← (ssh.fromArmoredString signature).mapError .signingError
  let pubkey := ssh.pubkey sshSignature
  let verified ← (ssh.fromSshSignature moduleHash sshSignature ns (some pubkey)).mapError .signingError
  return ssh.pubkey verified

/-- The loop over the files; `validSignatures` is the set of fingerprints met so far. -/
def countSignatures (moduleHash : Bytes) : Finset String → List DirEntry → Except Errors Unit
  | validSignatures, [] =>
    .error (.notEnoughValidSignatures validSignatures.card signing.signaturesRequired)
  | validSignatures, entry :: entries =>
    match verifySignatureFile ssh entry moduleHash signing.signatureNamespace with
    | .error _ => countSignatures moduleHash validSignatures entries
    | .ok pubkey =>
      if signing.authorizedSigners.any fun s => ssh.fingerprint s = ssh.fingerprint pubkey then
        let validSignatures :=
          insert (ssh.fingerprintText (ssh.fingerprint pubkey)) validSignatures
        if signing.signaturesRequired ≤ validSignatures.card then .ok ()
        else countSignatures moduleHash validSignatures entries
      else countSignatures moduleHash validSignatures entries

/-- The entries that could be listed. -/
def readable (entries : List (Except String DirEntry)) : List DirEntry :=
  entries.filterMap Except.toOption

def moduleHash (moduleBytes : Bytes) : Bytes := asBytes (ssh.encodeHex (ssh.digest moduleBytes))

def checkModuleSignatures (readDir : ReadDir) (filename : String) (moduleBytes : Bytes) :
    Except Errors Unit :=
  match readDir s!"{signing.signaturesDir}/{filename}" with
  | .error e => .error (.fileError e)
  | .ok entries =>
    if (readable entries).length < signing.signaturesRequired then
      .error (.notEnoughValidSignatures 0 signing.signaturesRequired)
    else countSignatures ssh signing (moduleHash ssh moduleBytes) ∅ (readable entries)

section threshold

/-- The entry is a `.sig` file whose signature verifies and was made by a key with this
fingerprint. -/
def SignedBy (moduleHash : Bytes) (entry : DirEntry) (f : Fingerprint) : Prop :=
  entry.fileName.endsWith ".sig" = true ∧ ∃ text signature, entry.content = .ok text ∧
    ssh.fromArmoredString text = .ok signature ∧
    ssh.verifies moduleHash signature signing.signatureNamespace ∧
    ssh.fingerprint (ssh.pubkey signature) = f

/-- The fingerprints of the authorised signers of a module, each counted once. -/
def authorisedSigners (moduleHash : Bytes) (entries : List DirEntry) : Set Fingerprint :=
  {f | (∃ signer ∈ signing.authorizedSigners, ssh.fingerprint signer = f) ∧
    ∃ entry ∈ entries, SignedBy ssh signing moduleHash entry f}

/-- The fingerprint an entry adds to the set, if it adds one. -/
def acceptedSigner (moduleHash : Bytes) (entry : DirEntry) : Option Fingerprint :=
  match verifySignatureFile ssh entry moduleHash signing.signatureNamespace with
  | .error _ => none
  | .ok pubkey =>
    if signing.authorizedSigners.any fun s => ssh.fingerprint s = ssh.fingerprint pubkey then
      some (ssh.fingerprint pubkey)
    else none

def acceptedSigners (moduleHash : Bytes) (entries : List DirEntry) : Finset Fingerprint :=
  (entries.filterMap (acceptedSigner ssh signing moduleHash)).toFinset

variable {ssh signing} {moduleHash : Bytes}

omit [DecidableEq Fingerprint] in
theorem verifySignatureFile_ok {entry : DirEntry} {f : Fingerprint} :
    (∃ pubkey, verifySignatureFile ssh entry moduleHash signing.signatureNamespace = .ok pubkey ∧
      ssh.fingerprint pubkey = f) ↔ SignedBy ssh signing moduleHash entry f := by
  simp only [verifySignatureFile, SignedBy, bind_ok, mapError_ok, ssh.fromSshSignature_ok]
  unfold readInSignature
  by_cases hname : entry.fileName.endsWith ".sig" = true
  · simp only [hname, if_true, mapError_ok, true_and]
    constructor
    · intro h
      obtain ⟨_, ⟨text, htext, signature, hsig, verified, ⟨hver, heq⟩, hkey⟩, hf⟩ := h
      cases hkey
      rw [heq] at hf
      exact ⟨text, signature, htext, hsig, hver, hf⟩
    · intro h
      obtain ⟨text, signature, htext, hsig, hver, hf⟩ := h
      exact ⟨_, ⟨text, htext, signature, hsig, signature, ⟨hver, rfl⟩, rfl⟩, hf⟩
  · simp [hname]

theorem acceptedSigner_iff {entry : DirEntry} {f : Fingerprint} :
    acceptedSigner ssh signing moduleHash entry = some f ↔
      (∃ signer ∈ signing.authorizedSigners, ssh.fingerprint signer = f) ∧
        SignedBy ssh signing moduleHash entry f := by
  rw [← verifySignatureFile_ok]
  unfold acceptedSigner
  cases verifySignatureFile ssh entry moduleHash signing.signatureNamespace with
  | error e => simp
  | ok pubkey =>
    simp only [List.any_eq_true, decide_eq_true_eq, Option.ite_none_right_eq_some,
      Option.some.injEq, Except.ok.injEq, exists_eq_left']
    constructor
    · intro h
      rw [← h.2]
      exact ⟨h.1, rfl⟩
    · intro h
      rw [h.2]
      exact ⟨h.1, rfl⟩

/-- The set that the loop would collect if it never stopped early. -/
theorem coe_acceptedSigners (entries : List DirEntry) :
    (acceptedSigners ssh signing moduleHash entries : Set Fingerprint) =
      authorisedSigners ssh signing moduleHash entries := by
  ext f
  simp only [acceptedSigners, authorisedSigners, List.coe_toFinset, List.mem_filterMap,
    acceptedSigner_iff, Set.mem_ofPred_eq]
  constructor
  · intro h
    obtain ⟨entry, hmem, hauth, hsigned⟩ := h
    exact ⟨hauth, entry, hmem, hsigned⟩
  · intro h
    obtain ⟨hauth, entry, hmem, hsigned⟩ := h
    exact ⟨entry, hmem, hauth, hsigned⟩

theorem card_acceptedSigners_le (entries : List DirEntry) :
    (acceptedSigners ssh signing moduleHash entries).card ≤ entries.length :=
  (List.toFinset_card_le _).trans (List.length_filterMap_le _ _)

/-- One file: nothing happens, or its signer is added and the threshold looked at. -/
theorem countSignatures_cons (valid : Finset String) (entry : DirEntry) (entries : List DirEntry) :
    countSignatures ssh signing moduleHash valid (entry :: entries) =
      match acceptedSigner ssh signing moduleHash entry with
      | none => countSignatures ssh signing moduleHash valid entries
      | some f =>
        if signing.signaturesRequired ≤ (insert (ssh.fingerprintText f) valid).card then .ok ()
        else countSignatures ssh signing moduleHash (insert (ssh.fingerprintText f) valid) entries := by
  rw [countSignatures, acceptedSigner]
  cases verifySignatureFile ssh entry moduleHash signing.signatureNamespace with
  | error e => rfl
  | ok pubkey =>
    by_cases hauth : signing.authorizedSigners.any
        fun s => ssh.fingerprint s = ssh.fingerprint pubkey
    · simp only [hauth, if_true]
    · simp only [hauth, if_false, Bool.false_eq_true]

/-- Below the threshold, the loop goes on to accept exactly when the signers of the remaining files
reach it. -/
theorem countSignatures_ok {valid : Finset String} {entries : List DirEntry}
    (hvalid : valid.card < max 1 signing.signaturesRequired) :
    countSignatures ssh signing moduleHash valid entries = .ok () ↔
      max 1 signing.signaturesRequired ≤ (valid ∪
        (acceptedSigners ssh signing moduleHash entries).image ssh.fingerprintText).card := by
  induction entries generalizing valid with
  | nil =>
    have hnot : ¬ max 1 signing.signaturesRequired ≤ valid.card := Nat.not_le.mpr hvalid
    simpa [countSignatures, acceptedSigners] using hnot
  | cons entry entries ih =>
    rw [countSignatures_cons]
    cases haccepted : acceptedSigner ssh signing moduleHash entry with
    | none =>
      have hsame : acceptedSigners ssh signing moduleHash (entry :: entries) =
          acceptedSigners ssh signing moduleHash entries := by
        simp [acceptedSigners, haccepted]
      rw [hsame]
      exact ih hvalid
    | some f =>
      have hadd : valid ∪ (acceptedSigners ssh signing moduleHash (entry :: entries)).image
            ssh.fingerprintText = insert (ssh.fingerprintText f) valid ∪
          (acceptedSigners ssh signing moduleHash entries).image ssh.fingerprintText := by
        simp [acceptedSigners, haccepted, Finset.image_insert, Finset.union_insert,
          Finset.insert_union]
      rw [hadd]
      have hpos : 1 ≤ (insert (ssh.fingerprintText f) valid).card :=
        Finset.card_pos.mpr (Finset.insert_nonempty _ _)
      simp only
      split_ifs with henough
      · have hle : (insert (ssh.fingerprintText f) valid).card ≤ (insert (ssh.fingerprintText f) valid ∪
            (acceptedSigners ssh signing moduleHash entries).image ssh.fingerprintText).card :=
          Finset.card_le_card Finset.subset_union_left
        simp only [true_iff]
        omega
      · exact ih (by omega)

/-- A module passes exactly when at least the required number of authorised signers, and at least
one, have signed it. -/
theorem check_module_signatures_iff (readDir : ReadDir) (filename : String) (moduleBytes : Bytes) :
    checkModuleSignatures ssh signing readDir filename moduleBytes = .ok () ↔
      ∃ entries, readDir s!"{signing.signaturesDir}/{filename}" = .ok entries ∧
        max 1 signing.signaturesRequired ≤ (authorisedSigners ssh signing
          (ModuleSigning.moduleHash ssh moduleBytes) (readable entries)).ncard := by
  unfold checkModuleSignatures
  cases readDir s!"{signing.signaturesDir}/{filename}" with
  | error e => simp
  | ok entries =>
    simp only [Except.ok.injEq, exists_eq_left']
    rw [← coe_acceptedSigners, Set.ncard_coe_finset]
    split_ifs with hfew
    · have hle : (acceptedSigners ssh signing (ModuleSigning.moduleHash ssh moduleBytes)
          (readable entries)).card ≤ (readable entries).length := card_acceptedSigners_le _
      simp only [false_iff]
      omega
    · have hcount : countSignatures ssh signing (ModuleSigning.moduleHash ssh moduleBytes) ∅
          (readable entries) = .ok () ↔ _ := countSignatures_ok (by simp)
      rw [hcount, Finset.empty_union,
        Finset.card_image_of_injective _ ssh.fingerprintText_injective]

end threshold

section sample

/-- A signature is the letter of its signer and the text it is over: the namespace and the hash. -/
def letters : Sshcerts Char (Char × List Char) Char where
  digest b := b
  encodeHex b := String.ofList (b.map fun x => if x = 0 then 'o' else 'i')
  fingerprint c := c
  fingerprintText c := String.ofList [c]
  fingerprintText_injective a b h := by simpa using h
  pubkey := Prod.fst
  fromArmoredString text :=
    match text.toList with
    | signer :: rest => .ok (signer, rest)
    | [] => .error "no signature"
  fromSshSignature message signature ns _ :=
    if asBytes (ns ++ String.ofList signature.2) = asBytes ns ++ message then .ok signature
    else .error "verification failed"
  verifies message signature ns := asBytes (ns ++ String.ofList signature.2) = asBytes ns ++ message
  fromSshSignature_ok message signature ns verified := by
    split_ifs with h
    · simp [h, eq_comm]
    · simp [h]

def twoOfThree : ModuleSigningConfiguration Char := ⟨['a', 'b', 'c'], "signatures", "plaid", 2⟩

/-- A signature with a copy, a file that is no signature, and signatures by a stranger and over
another hash. -/
def oneSigner : List (Except String DirEntry) :=
  [.ok ⟨"readme.txt", .ok "boo"⟩, .ok ⟨"a.sig", .ok "aoo"⟩, .ok ⟨"copy.sig", .ok "aoo"⟩,
    .error "bad entry", .ok ⟨"stranger.sig", .ok "xoo"⟩, .ok ⟨"other.sig", .ok "bio"⟩]

def twoSigners : List (Except String DirEntry) := oneSigner ++ [.ok ⟨"b.sig", .ok "boo"⟩]

/-- Only the second of two signers lets the module through. -/
theorem check_module_signatures_sample :
    (∃ entries, (fun _ => .ok twoSigners : ReadDir) "signatures/rule.wasm" = .ok entries ∧
      2 ≤ (authorisedSigners letters twoOfThree (moduleHash letters [0, 0])
        (readable entries)).ncard) ∧
    ¬∃ entries, (fun _ => .ok oneSigner : ReadDir) "signatures/rule.wasm" = .ok entries ∧
      2 ≤ (authorisedSigners letters twoOfThree (moduleHash letters [0, 0])
        (readable entries)).ncard := by
  have hiff := fun files : List (Except String DirEntry) =>
    @check_module_signatures_iff _ _ _ _ letters twoOfThree (fun _ => .ok files) "rule.wasm" [0, 0]
  exact ⟨(hiff twoSigners).mp (by decide +kernel), fun h => absurd ((hiff oneSigner).mpr h)
    (by decide +kernel)⟩

end sample
end PlaidRuntime.ModuleSigning
