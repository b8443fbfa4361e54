import PlaidRuntime.DynamodbUtils
import PlaidRuntime.Fallible
import PlaidRuntime.KeyedContent
import PlaidRuntime.MachineWord

/-!
# Issuing a JWT

Key configuration and `issue_jwt` (`apis/web/mod.rs`), up to the claims that are signed. A
`HashMap` is its entries in the order it iterates; `get_time` is read at most twice.
-/
namespace PlaidRuntime.JwtIssuance
open DynamodbUtils Fallible KeyedContent MachineWord

inductive WebError
  | moduleUnauthorizedToUseKey (text : String)
  | failedToEncodeJwt (text : String)
  | unsupportedHeaderField (text : String)
  | badRequest (text : String)
  | unsupportedField (text : String)
  | failedToParsePrivateKey (text : String)
  | enforcedClaimsConflict (text : String)
  deriving DecidableEq, Repr

inductive ApiError
  | badRequest
  | webError (e : WebError)
  deriving DecidableEq, Repr

inductive JwtKeyType
  | es256
  | rs256
  deriving DecidableEq, Repr

inductive Algorithm
  | hs256
  | es256
  | rs256
  deriving DecidableEq, Repr

def JwtKeyType.algorithm : JwtKeyType → Algorithm
  | .es256 => .es256
  | .rs256 => .rs256

structure Header where
  typ : Option String
  alg : Algorithm
  kid : Option String
  cty : Option String
  jku : Option String
  x5u : Option String
  x5t : Option String
  x5tS256 : Option String
  deriving DecidableEq, Repr

def Header.default : Header := ⟨some "JWT", .hs256, none, none, none, none, none, none⟩

/-- `HashMap<String, Value>`. -/
abbrev Claims (F : Type) : Type := AList fun _ : String => Value F

variable {F EncodingKey Token : Type}

/-- The crates around it: key parsing, signing and the claims read back from a signed token.
`value` is the number a finite `f64` stands for. -/
structure Jsonwebtoken (F EncodingKey Token : Type) where
  value : F → ℚ
  fromEcPem : String → Except String EncodingKey
  fromRsaPem : String → Except String EncodingKey
  encode : Header → Claims F → EncodingKey → Except String Token
  claim : Token → String → Option (Value F)
  claim_encode : ∀ header claims key token, encode header claims key = .ok token →
    ∀ name, claim token name = claims.lookup name

def JwtKeyType.parseEncodingKey (lib : Jsonwebtoken F EncodingKey Token) (t : JwtKeyType)
    (pem : String) : Except WebError EncodingKey :=
  match t with
  | .es256 => (lib.fromEcPem pem).mapError fun e =>
    .failedToParsePrivateKey s!"Failed to parse ES256 EC key: {e}"
  | .rs256 => (lib.fromRsaPem pem).mapError fun e =>
    .failedToParsePrivateKey s!"Failed to parse RS256 RSA key: {e}"

def reservedEnforcedClaims : List String := ["sub", "iat", "exp"]

structure JwtConfigRaw (F : Type) where
  privateKey : String
  keyType : JwtKeyType
  allowedRules : List String
  enforceAccurateIat : Option Bool
  maxTtl : Option ℕ
  allowlistedExtraHeaders : Option (List String)
  allowlistedExtraFields : Option (List String)
  enforcedClaims : Claims F

/-- A key as the deserializer lets it through. -/
structure JwtConfig (F EncodingKey : Type) where
  keyType : JwtKeyType
  privateKey : EncodingKey
  allowedRules : List String
  enforceAccurateIat : Option Bool
  maxTtl : Option ℕ
  allowlistedExtraHeaders : Option (List String)
  allowlistedExtraFields : Option (List String)
  enforcedClaims : Claims F
  enforced_reserved : ∀ k ∈ reservedEnforcedClaims, enforcedClaims.lookup k = none

inductive ConfigError
  | custom (text : String)
  /-- Its text is the `Debug` form of the error. -/
  | key (e : WebError)
  deriving DecidableEq, Repr

/-- The first enforced claim that is a reserved one. -/
def reservedClaim (enforced : Claims F) : Option String :=
  enforced.keys.find? fun k => decide (k ∈ reservedEnforcedClaims)

theorem lookup_of_reservedClaim {enforced : Claims F} (h : reservedClaim enforced = none) :
    ∀ k ∈ reservedEnforcedClaims, enforced.lookup k = none := by
  intro k hk
  rw [AList.lookup_eq_none, AList.mem_keys]
  intro hmem
  have := List.find?_eq_none.mp h k hmem
  simp [hk] at this

def JwtConfig.deserialize (lib : Jsonwebtoken F EncodingKey Token) (raw : JwtConfigRaw F) :
    Except ConfigError (JwtConfig F EncodingKey) :=
  match h : reservedClaim raw.enforcedClaims with
  | some k => .error (.custom s!"enforced_claims may not include reserved claim [{k}]")
  | none =>
    match raw.keyType.parseEncodingKey lib raw.privateKey with
    | .error e => .error (.key e)
    | .ok encodingKey =>
      .ok ⟨raw.keyType, encodingKey, raw.allowedRules, raw.enforceAccurateIat, raw.maxTtl,
        raw.allowlistedExtraHeaders, raw.allowlistedExtraFields, raw.enforcedClaims,
        lookup_of_reservedClaim h⟩

/-- A configuration is accepted exactly when it enforces no reserved claim and its key parses. -/
theorem deserialize_ok_iff {lib : Jsonwebtoken F EncodingKey Token} {raw : JwtConfigRaw F} :
    (∃ key, JwtConfig.deserialize lib raw = .ok key) ↔
      (∀ k ∈ reservedEnforcedClaims, raw.enforcedClaims.lookup k = none) ∧
        ∃ encodingKey, raw.keyType.parseEncodingKey lib raw.privateKey = .ok encodingKey := by
  unfold JwtConfig.deserialize
  split
  · rename_i k hk
    refine ⟨fun ⟨_, h⟩ => (by cases h), fun ⟨h, _⟩ => ?_⟩
    have hmem : k ∈ raw.enforcedClaims := AList.mem_keys.mpr (List.mem_of_find?_eq_some hk)
    have hreserved := List.find?_some hk
    exact absurd hmem (AList.lookup_eq_none.mp (h k (of_decide_eq_true hreserved)))
  · rename_i hnone
    cases raw.keyType.parseEncodingKey lib raw.privateKey with
    | error e => simp
    | ok encodingKey => simpa using lookup_of_reservedClaim hnone

/-- `WebConfig`. -/
abbrev Keys (F EncodingKey : Type) : Type := AList fun _ : String => JwtConfig F EncodingKey

def allowlistableHeaders : List String := ["cty", "jku", "x5u", "x5t", "x5t_s256"]

def JwtConfig.sanitize (key : JwtConfig F EncodingKey) : JwtConfig F EncodingKey :=
  match key.allowlistedExtraHeaders with
  | none => key
  | some configured =>
    { key with
      allowlistedExtraHeaders := some (configured.filter (· ∈ allowlistableHeaders)) }

def sanitizeConfig (keys : Keys F EncodingKey) : Keys F EncodingKey :=
  putAll ∅ ((pairs keys).map fun e => (e.1, e.2.sanitize))

structure JwtParams (F : Type) where
  kid : String
  sub : String
  iat : Option ℕ
  exp : Option ℕ
  aud : Option String
  extraHeaders : Claims F
  extraFields : Claims F

/-- What `get_time` gives when `iat` and when `exp` are set. -/
structure Clock where
  atIat : ℕ
  atExp : ℕ
  deriving DecidableEq, Repr

/-- The `White_Space` characters of `char::is_whitespace`. -/
def isWhitespace (c : Char) : Bool :=
  let n := c.toNat
  (9 ≤ n && n ≤ 13) || n == 0x20 || n == 0x85 || n == 0xA0 || n == 0x1680 ||
    (0x2000 ≤ n && n ≤ 0x200A) || n == 0x2028 || n == 0x2029 || n == 0x202F || n == 0x205F ||
    n == 0x3000

def unsupportedField {α : Type} (text : String) : Except ApiError α :=
  .error (.webError (.unsupportedField text))

def unsupportedHeaderField {α : Type} (text : String) : Except ApiError α :=
  .error (.webError (.unsupportedHeaderField text))

def Value.u64 (n : ℕ) : Value F := .number (.int n)

/-! The claims, in the order in which they are set. -/
section claims
variable (key : JwtConfig F EncodingKey) (request : JwtParams F) (clock : Clock)

def issuedAt : Option ℕ :=
  if key.enforceAccurateIat.getD false then some clock.atIat else request.iat

def setIat (claims : Claims F) : Claims F :=
  match issuedAt key request clock with
  | some t => claims.insert "iat" (Value.u64 t)
  | none => claims

def setAud (claims : Claims F) : Except ApiError (Claims F) :=
  match request.aud with
  | none => .ok claims
  | some aud =>
    if aud.toList.all isWhitespace then unsupportedField "aud cannot be empty"
    else .ok (claims.insert "aud" (.string aud))

def expiry : Except ApiError ℕ :=
  match key.maxTtl, request.exp with
  | some maxTtl, none => .ok (addU64 clock.atExp maxTtl)
  | some maxTtl, some t => .ok (min t (addU64 clock.atExp maxTtl))
  | none, none =>
    unsupportedField "The key does not enforce a max TTL, so an exp field must be passed"
  | none, some t => .ok t

/-- `sub`, `iat`, `aud` and `exp`. -/
def ownClaims : Except ApiError (Claims F) := do
  let claims : Claims F := (∅ : Claims F).insert "sub" (.string request.sub)
  let claims ← setAud request (setIat key request clock claims)
  let exp ← expiry key request clock
  return claims.insert "exp" (Value.u64 exp)

def addField (allowlisted : List String) (claims : Claims F) (e : String × Value F) :
    Except ApiError (Claims F) :=
  if e.1 ∈ allowlisted then .ok (claims.insert e.1 e.2)
  else unsupportedField s!"The request contained field [{e.1}] but it is not allowed"

def addExtraFields (claims : Claims F) : Except ApiError (Claims F) :=
  if request.extraFields.entries.isEmpty then .ok claims
  else
    match key.allowlistedExtraFields with
    | some allowlisted => (pairs request.extraFields).foldlM (addField allowlisted) claims
    | none => unsupportedField "The request contains extra fields but none is allowed"

end claims

/-! Equality of JSON values; two floats are equal when they are the same number. -/
section equality
variable (value : F → ℚ)

def Number.same : Number F → Number F → Bool
  | .int i, .int j => i == j
  | .float x, .float y => decide (value x = value y)
  | _, _ => false

mutual

def Value.same : Value F → Value F → Bool
  | .null, .null => true
  | .bool a, .bool b => a == b
  | .number m, .number n => Number.same value m n
  | .string s, .string t => s == t
  | .array xs, .array ys => sameElems xs ys
  | .object xs, .object ys => sameEntries xs ys
  | _, _ => false

def sameElems : List (Value F) → List (Value F) → Bool
  | [], [] => true
  | x :: xs, y :: ys => Value.same x y && sameElems xs ys
  | _, _ => false

def sameEntries : List (String × Value F) → List (String × Value F) → Bool
  | [], [] => true
  | (k, x) :: xs, (l, y) :: ys => k == l && Value.same x y && sameEntries xs ys
  | _, _ => false

end

def enforceClaim (claims : Claims F) (e : String × Value F) : Except ApiError (Claims F) :=
  match claims.lookup e.1 with
  | some existing =>
    if Value.same value existing e.2 then .ok (claims.insert e.1 e.2)
    else .error (.webError (.enforcedClaimsConflict
      s!"Claim [{e.1}] is enforced by config and cannot be set to a different value"))
  | none => .ok (claims.insert e.1 e.2)

def enforceClaims (key : JwtConfig F EncodingKey) (claims : Claims F) :
    Except ApiError (Claims F) :=
  (pairs key.enforcedClaims).foldlM (enforceClaim value) claims

end equality

/-- Other names do not come through the allowlist. -/
def addHeader (header : Header) (k v : String) : Header :=
  match k with
  | "cty" => { header with cty := some v }
  | "jku" => { header with jku := some v }
  | "x5u" => { header with x5u := some v }
  | "x5t" => { header with x5t := some v }
  | "x5t_s256" => { header with x5tS256 := some v }
  | _ => header

def addExtraHeader (allowlisted : List String) (header : Header) (e : String × Value F) :
    Except ApiError Header :=
  if e.1 ∈ allowlisted then
    match e.2.asStr with
    | some v => .ok (addHeader header e.1 v)
    | none => unsupportedHeaderField s!"Could not parse value for header [{e.1}] as a string"
  else unsupportedHeaderField s!"The request contained header [{e.1}] but it is not allowed"

def buildHeader (key : JwtConfig F EncodingKey) (request : JwtParams F) :
    Except ApiError Header :=
  let header := { Header.default with alg := key.keyType.algorithm, kid := some request.kid }
  if request.extraHeaders.entries.isEmpty then .ok header
  else
    match key.allowlistedExtraHeaders with
    | some allowlisted => (pairs request.extraHeaders).foldlM (addExtraHeader allowlisted) header
    | none => unsupportedHeaderField "The request contains extra headers but none is allowed"

/-- The claims to sign for a request and a key. -/
def signedClaims (value : F → ℚ) (key : JwtConfig F EncodingKey) (request : JwtParams F)
    (clock : Clock) : Except ApiError (Claims F) := do
  let claims ← ownClaims key request clock
  let claims ← addExtraFields key request claims
  enforceClaims value key claims

/-- `Web` with its configuration. -/
structure Web (F EncodingKey : Type) where
  keys : Keys F EncodingKey

def Web.new (keys : Keys F EncodingKey) : Web F EncodingKey := ⟨sanitizeConfig keys⟩

/-- `params` is the request as it was parsed, if it was. -/
def issueJwt (lib : Jsonwebtoken F EncodingKey Token) (web : Web F EncodingKey)
    (params : Option (JwtParams F)) (module : String) (clock : Clock) :
    Except ApiError Token :=
  match params with
  | none => .error .badRequest
  | some request =>
    match web.keys.lookup request.kid with
    | none => .error (.webError (.badRequest
        s!"Module [{module}] tried to use [{request.kid}] that does not exist"))
    | some key =>
      if module ∈ key.allowedRules then do
        let claims ← signedClaims lib.value key request clock
        let header ← buildHeader key request
        (lib.encode header claims key.privateKey).mapError fun e =>
          .webError (.failedToEncodeJwt e)
      else .error (.webError (.moduleUnauthorizedToUseKey
        s!"Module [{module}] is not authorized to use key [{request.kid}]"))

/-- A number that is at most `n`. -/
def Value.AtMost (value : F → ℚ) (n : ℕ) : Value F → Prop
  | .number (.int i) => i ≤ n
  | .number (.float x) => value x ≤ n
  | _ => False

/-- What the policy of a key and a request ask of the claims of a token, and that what was set
first stays. -/
structure Respects (value : F → ℚ) (key : JwtConfig F EncodingKey) (request : JwtParams F)
    (clock : Clock) (claim : String → Option (Value F)) : Prop where
  exp : ∀ maxTtl, key.maxTtl = some maxTtl →
    ∃ v, claim "exp" = some v ∧ Value.AtMost value (clock.atExp + maxTtl) v
  iat : key.enforceAccurateIat = some true → claim "iat" = some (Value.u64 clock.atIat)
  sub : claim "sub" = some (.string request.sub)
  kept : ∀ claims, ownClaims key request clock = .ok claims → ∀ name ∈ ["sub", "iat", "exp"],
    ∀ v, claims.lookup name = some v → claim name = some v

/-- The earliest of the expiry asked for and the end of the longest validity. -/
def grantedExp (key : JwtConfig F EncodingKey) (request : JwtParams F) (clock : Clock) :
    Option ℕ :=
  (request.exp.toList ++ (key.maxTtl.map (addU64 clock.atExp)).toList).min?

/-- An extra field under one of the three names repeats what the policy or the request says. -/
structure ExtrasAgree (key : JwtConfig F EncodingKey) (request : JwtParams F) (clock : Clock) :
    Prop where
  sub : ∀ v, request.extraFields.lookup "sub" = some v → v = .string request.sub
  iat : ∀ v t, request.extraFields.lookup "iat" = some v →
    (if key.enforceAccurateIat = some true then some clock.atIat else request.iat) = some t →
    v = Value.u64 t
  exp : ∀ v t, request.extraFields.lookup "exp" = some v →
    grantedExp key request clock = some t → v = Value.u64 t

section issuing
variable {lib : Jsonwebtoken F EncodingKey Token} {keys : Keys F EncodingKey}
  {key : JwtConfig F EncodingKey} {request : JwtParams F} {clock : Clock} {module : String}
  {claims claims' : Claims F} {token : Token} {value : F → ℚ}

theorem isEmpty_pairs {c : Claims F} (h : c.entries.isEmpty = true) : pairs c = [] := by
  rw [pairs, List.isEmpty_iff.mp h, List.map_nil]

theorem addField_ok {allowlisted : List String} {e : String × Value F}
    (h : addField allowlisted claims e = .ok claims') : claims' = claims.insert e.1 e.2 := by
  unfold addField at h
  split_ifs at h with hallowed
  · cases h
    rfl
  · cases h

theorem addExtraFields_ok (h : addExtraFields key request claims = .ok claims') :
    claims' = putAll claims (pairs request.extraFields) := by
  unfold addExtraFields at h
  split_ifs at h with hempty
  · cases h
    rw [isEmpty_pairs hempty]
    rfl
  · cases hallow : key.allowlistedExtraFields with
    | none =>
      rw [hallow] at h
      cases h
    | some allowlisted =>
      rw [hallow] at h
      exact foldlM_putAll (fun _ _ _ _ => addField_ok) h

/-- No extra field gets past the allowlist. -/
theorem addField_allowed {allowlisted : List String} {l : List (String × Value F)}
    (h : l.foldlM (addField allowlisted) claims = .ok claims') : ∀ e ∈ l, e.1 ∈ allowlisted := by
  induction l generalizing claims with
  | nil => exact fun e he => absurd he List.not_mem_nil
  | cons e l ih =>
    rw [List.foldlM_cons] at h
    by_cases hallowed : e.1 ∈ allowlisted
    · have hstep : addField allowlisted claims e = .ok (claims.insert e.1 e.2) := if_pos hallowed
      rw [hstep] at h
      intro e' he'
      rcases List.mem_cons.mp he' with rfl | he'
      · exact hallowed
      · exact ih h e' he'
    · have hstep : addField allowlisted claims e =
          unsupportedField s!"The request contained field [{e.1}] but it is not allowed" :=
        if_neg hallowed
      rw [hstep] at h
      cases h

theorem addExtraFields_allowed (h : addExtraFields key request claims = .ok claims')
    {name : String} {v : Value F} (hv : request.extraFields.lookup name = some v) :
    ∃ allowlisted, key.allowlistedExtraFields = some allowlisted ∧ name ∈ allowlisted := by
  have hmem := mem_pairs.mpr hv
  unfold addExtraFields at h
  split_ifs at h with hempty
  · rw [isEmpty_pairs hempty] at hmem
    cases hmem
  · cases hallow : key.allowlistedExtraFields with
    | none =>
      rw [hallow] at h
      cases h
    | some allowlisted =>
      rw [hallow] at h
      exact ⟨allowlisted, rfl, addField_allowed h _ hmem⟩

theorem enforceClaim_ok {e : String × Value F} (h : enforceClaim value claims e = .ok claims') :
    claims' = claims.insert e.1 e.2 := by
  unfold enforceClaim at h
  cases hl : claims.lookup e.1 with
  | none =>
    rw [hl] at h
    cases h
    rfl
  | some existing =>
    simp only [hl] at h
    split_ifs at h with hsame
    cases h
    rfl

theorem enforceClaims_ok (h : enforceClaims value key claims = .ok claims') :
    claims' = putAll claims (pairs key.enforcedClaims) :=
  foldlM_putAll (fun _ _ _ _ => enforceClaim_ok) h

theorem setAud_lookup (h : setAud request claims = .ok claims') {name : String}
    (hname : name ≠ "aud") : claims'.lookup name = claims.lookup name := by
  unfold setAud at h
  cases haud : request.aud with
  | none =>
    rw [haud] at h
    cases h
    rfl
  | some aud =>
    simp only [haud] at h
    split_ifs at h with hblank
    · cases h
    · cases h
      exact AList.lookup_insert_ne hname

theorem setIat_lookup {name : String} (hname : name ≠ "iat") :
    (setIat key request clock claims).lookup name = claims.lookup name := by
  unfold setIat
  cases issuedAt key request clock with
  | none => rfl
  | some t => exact AList.lookup_insert_ne hname

/-- The three claims as they are set from the request, the key and the clock. -/
theorem ownClaims_lookup (h : ownClaims key request clock = .ok claims) :
    claims.lookup "sub" = some (.string request.sub) ∧
      claims.lookup "iat" = (issuedAt key request clock).map Value.u64 ∧
      ∃ t, expiry key request clock = .ok t ∧ claims.lookup "exp" = some (Value.u64 t) := by
  obtain ⟨withAud, haud, h⟩ := bind_ok.mp h
  obtain ⟨t, hexp, h⟩ := bind_ok.mp h
  cases h
  refine ⟨?_, ?_, t, hexp, AList.lookup_insert _⟩
  · rw [AList.lookup_insert_ne (by decide), setAud_lookup haud (by decide),
      setIat_lookup (by decide), AList.lookup_insert]
  · rw [AList.lookup_insert_ne (by decide), setAud_lookup haud (by decide)]
    unfold setIat
    cases issuedAt key request clock with
    | none => exact AList.lookup_insert_ne (by decide)
    | some t => exact AList.lookup_insert _

theorem signedClaims_ok (h : signedClaims value key request clock = .ok claims) :
    ∃ own, ownClaims key request clock = .ok own ∧
      (∃ extended, addExtraFields key request own = .ok extended) ∧
      claims = putAll (putAll own (pairs request.extraFields)) (pairs key.enforcedClaims) := by
  obtain ⟨own, hown, h⟩ := bind_ok.mp h
  obtain ⟨extended, hextra, h⟩ := bind_ok.mp h
  refine ⟨own, hown, ⟨extended, hextra⟩, ?_⟩
  rw [enforceClaims_ok h, addExtraFields_ok hextra]

/-- Enforced claims cannot touch the reserved names, extra fields can. -/
theorem signedClaims_lookup (h : signedClaims value key request clock = .ok claims)
    {own : Claims F} (hown : ownClaims key request clock = .ok own) {name : String}
    (hname : name ∈ reservedEnforcedClaims) :
    claims.lookup name = (request.extraFields.lookup name).or (own.lookup name) := by
  obtain ⟨own', hown', -, rfl⟩ := signedClaims_ok h
  rw [hown] at hown'
  cases hown'
  rw [lookup_putAll_pairs, key.enforced_reserved name hname, Option.none_or, lookup_putAll_pairs]

theorem expiry_iff {t : ℕ} :
    expiry key request clock = .ok t ↔ grantedExp key request clock = some t := by
  unfold expiry grantedExp unsupportedField
  cases key.maxTtl <;> cases request.exp <;> simp [List.min?, eq_comm]

/-- The sum may wrap around, which only makes it smaller. -/
theorem expiry_le {t maxTtl : ℕ} (h : expiry key request clock = .ok t)
    (hm : key.maxTtl = some maxTtl) : t ≤ clock.atExp + maxTtl := by
  have hadd : addU64 clock.atExp maxTtl ≤ clock.atExp + maxTtl := Nat.mod_le _ _
  unfold expiry at h
  rw [hm] at h
  cases hexp : request.exp with
  | none =>
    rw [hexp] at h
    cases h
    exact hadd
  | some asked =>
    rw [hexp] at h
    cases h
    exact (min_le_right _ _).trans hadd

theorem issuedAt_eq : issuedAt key request clock =
    if key.enforceAccurateIat = some true then some clock.atIat else request.iat := by
  unfold issuedAt
  rcases key.enforceAccurateIat with - | - | - <;> rfl

theorem lookup_sanitizeConfig (kid : String) :
    (sanitizeConfig keys).lookup kid = (keys.lookup kid).map JwtConfig.sanitize := by
  have hkeys : (((pairs keys).map fun e => (e.1, e.2.sanitize)).map Prod.fst).Nodup := by
    simpa [Function.comp_def] using pairs_keys_nodup keys
  cases h : keys.lookup kid with
  | some key =>
    exact lookup_putAll_of_mem hkeys (List.mem_map.mpr ⟨_, mem_pairs.mpr h, rfl⟩)
  | none =>
    refine (lookup_putAll_of_notMem ?_).trans (AList.lookup_empty kid)
    simpa [Function.comp_def] using notMem_pairs_keys h

/-- Only headers change, so the claims are those of the key as configured. -/
theorem signedClaims_sanitize :
    signedClaims value key.sanitize request clock = signedClaims value key request clock := by
  unfold JwtConfig.sanitize
  cases key.allowlistedExtraHeaders <;> rfl

theorem sanitize_allowedRules : key.sanitize.allowedRules = key.allowedRules := by
  unfold JwtConfig.sanitize
  cases key.allowlistedExtraHeaders <;> rfl

/-- What was signed for a request, and under which header. -/
theorem issueJwt_ok (hkey : keys.lookup request.kid = some key)
    (h : issueJwt lib (Web.new keys) (some request) module clock = .ok token) :
    ∃ claims header, signedClaims lib.value key request clock = .ok claims ∧
      buildHeader key.sanitize request = .ok header ∧
      lib.encode header claims key.sanitize.privateKey = .ok token := by
  simp only [issueJwt, Web.new, lookup_sanitizeConfig, hkey, Option.map_some,
    sanitize_allowedRules, signedClaims_sanitize] at h
  split_ifs at h
  obtain ⟨claims, hclaims, h⟩ := bind_ok.mp h
  obtain ⟨header, hheader, h⟩ := bind_ok.mp h
  exact ⟨claims, header, hclaims, hheader, mapError_ok.mp h⟩

theorem or_keeps_iff {α : Type} {e o : Option α} :
    (∀ v, o = some v → e.or o = some v) ↔ ∀ w v, e = some w → o = some v → w = v := by
  cases e with
  | none => simp
  | some w => cases o <;> simp

/-- What was set first stays exactly when the extra fields agree with it. -/
theorem kept_iff {own : Claims F} (hown : ownClaims key request clock = .ok own) :
    (∀ name ∈ reservedEnforcedClaims, ∀ v, own.lookup name = some v →
      (request.extraFields.lookup name).or (own.lookup name) = some v) ↔
      ExtrasAgree key request clock := by
  obtain ⟨hsub, hiat, t, hexp, hexp'⟩ := ownClaims_lookup hown
  simp only [or_keeps_iff, reservedEnforcedClaims, List.forall_mem_cons, List.not_mem_nil,
    false_implies, implies_true, and_true, hsub, hiat, hexp', Option.map_eq_some_iff,
    Option.some.injEq]
  constructor
  · rintro ⟨hs, hi, he⟩
    refine ⟨fun v hv => hs v _ hv rfl, ?_, ?_⟩
    · intro v t hv ht
      rw [← issuedAt_eq] at ht
      exact hi v _ hv ⟨t, ht, rfl⟩
    · intro v t' hv ht'
      rw [← expiry_iff, hexp] at ht'
      cases ht'
      exact he v _ hv rfl
  · intro hagree
    refine ⟨?_, ?_, ?_⟩
    · rintro w v hw rfl
      exact hagree.sub w hw
    · rintro w v hw ⟨t, ht, rfl⟩
      rw [issuedAt_eq] at ht
      exact hagree.iat w t hw ht
    · rintro w v hw rfl
      exact hagree.exp w t hw (expiry_iff.mp hexp)

/-- An issued token respects the policy exactly when the extra fields agree with it. -/
theorem issued_respects_iff (hkey : keys.lookup request.kid = some key)
    (h : issueJwt lib (Web.new keys) (some request) module clock = .ok token) :
    Respects lib.value key request clock (lib.claim token) ↔ ExtrasAgree key request clock := by
  obtain ⟨claims, header, hclaims, -, hencode⟩ := issueJwt_ok hkey h
  have hclaim := lib.claim_encode _ _ _ _ hencode
  obtain ⟨own, hown, -, -⟩ := signedClaims_ok hclaims
  have hfinal : ∀ name ∈ reservedEnforcedClaims, lib.claim token name =
      (request.extraFields.lookup name).or (own.lookup name) := fun name hname =>
    (hclaim name).trans (signedClaims_lookup hclaims hown hname)
  rw [← kept_iff hown]
  constructor
  · intro hr name hname v hv
    rw [← hfinal name hname]
    exact hr.kept own hown name hname v hv
  · intro hkept
    have hstays : ∀ name ∈ reservedEnforcedClaims, ∀ v, own.lookup name = some v →
        lib.claim token name = some v := by
      intro name hname v hv
      rw [hfinal name hname]
      exact hkept name hname v hv
    obtain ⟨hsub, hiat, t, hexp, hexp'⟩ := ownClaims_lookup hown
    constructor
    · intro maxTtl hm
      refine ⟨_, hstays "exp" (by decide) _ hexp', ?_⟩
      have hle : t ≤ clock.atExp + maxTtl := expiry_le hexp hm
      exact Int.ofNat_le.mpr hle
    · intro henforce
      apply hstays "iat" (by decide)
      rw [hiat, issuedAt_eq, if_pos henforce, Option.map_some]
    · exact hstays "sub" (by decide) _ hsub
    · intro own' hown' name hname v hv
      rw [hown] at hown'
      cases hown'
      exact hstays name hname v hv

/-- Keys that allow no extra field of a reserved name only sign tokens that respect them. -/
theorem allowlist_protects (hkey : keys.lookup request.kid = some key)
    (hallow : ∀ allowlisted, key.allowlistedExtraFields = some allowlisted →
      ∀ name ∈ reservedEnforcedClaims, name ∉ allowlisted)
    (h : issueJwt lib (Web.new keys) (some request) module clock = .ok token) :
    ExtrasAgree key request clock := by
  obtain ⟨claims, -, hclaims, -⟩ := issueJwt_ok hkey h
  obtain ⟨own, -, ⟨extended, hextra⟩, -⟩ := signedClaims_ok hclaims
  have hnone : ∀ name ∈ reservedEnforcedClaims, ∀ v,
      request.extraFields.lookup name ≠ some v := by
    intro name hname v hv
    obtain ⟨allowlisted, ha, hmem⟩ := addExtraFields_allowed hextra hv
    exact hallow allowlisted ha name hname hmem
  exact ⟨fun v hv => absurd hv (hnone "sub" (by decide) v),
    fun v _ hv => absurd hv (hnone "iat" (by decide) v),
    fun v _ hv => absurd hv (hnone "exp" (by decide) v)⟩

end issuing

section run

/-- Signing keeps header and claims readable. -/
def plainJwt : Jsonwebtoken ℚ String (Header × Claims ℚ) where
  value := id
  fromEcPem := .ok
  fromRsaPem := .ok
  encode header claims _ := .ok (header, claims)
  claim token name := token.2.lookup name
  claim_encode := by
    rintro header claims key token ⟨⟩ name
    rfl

/-- A key of one minute whose rule may pass `exp` itself. -/
def shortKey : JwtConfig ℚ String where
  keyType := .es256
  privateKey := "pem"
  allowedRules := ["rule"]
  enforceAccurateIat := some true
  maxTtl := some 60
  allowlistedExtraHeaders := none
  allowlistedExtraFields := some ["exp", "role"]
  enforcedClaims := ∅
  enforced_reserved _ _ := rfl

def requestWith (field : String) (v : Value ℚ) : JwtParams ℚ where
  kid := "kid"
  sub := "user"
  iat := none
  exp := none
  aud := none
  extraHeaders := ∅
  extraFields := (∅ : Claims ℚ).insert field v

def shortKeys : Keys ℚ String := (∅ : Keys ℚ String).insert "kid" shortKey

theorem role_agrees : ∃ token,
    issueJwt plainJwt (Web.new shortKeys) (some (requestWith "role" (.string "x"))) "rule"
      ⟨1000, 1000⟩ = .ok token ∧
    Respects plainJwt.value shortKey (requestWith "role" (.string "x")) ⟨1000, 1000⟩
      (plainJwt.claim token) := by
  have hagree : ExtrasAgree shortKey (requestWith "role" (.string "x")) ⟨1000, 1000⟩ :=
    ⟨fun v hv => (by cases hv), fun v _ hv => (by cases hv), fun v _ hv => (by cases hv)⟩
  refine ⟨_, rfl, ?_⟩
  exact (@issued_respects_iff _ _ _ plainJwt shortKeys _ _ _ "rule" _ rfl rfl).mpr hagree

/-- The rule sets an expiry long after the minute the key allows. -/
theorem exp_field_outlives_key :
    ¬ ∀ (keys : Keys ℚ String) (key : JwtConfig ℚ String) (request : JwtParams ℚ)
      (module : String) (clock : Clock) (token : Header × Claims ℚ),
      keys.lookup request.kid = some key →
      issueJwt plainJwt (Web.new keys) (some request) module clock = .ok token →
      ∀ maxTtl, key.maxTtl = some maxTtl → ∃ v, plainJwt.claim token "exp" = some v ∧
        Value.AtMost plainJwt.value (clock.atExp + maxTtl) v := by
  intro h
  obtain ⟨v, hv, hle⟩ := h shortKeys shortKey (requestWith "exp" (Value.u64 100000)) "rule"
    ⟨1000, 1000⟩ _ rfl rfl 60 rfl
  cases hv
  have hlt : (100000 : ℤ) ≤ 1060 := hle
  omega

end run
end PlaidRuntime.JwtIssuance
