import PlaidRuntime.JwtIssuance

/-!
# What a signed token may hold

`issue_jwt` again, with the `unreachable!()` of `add_header` as an outcome of its own: that branch
is not taken once `sanitize_config` has run, and a token holds nothing but what the key permits.
-/
namespace PlaidRuntime.JwtPermits
open DynamodbUtils Fallible JwtIssuance KeyedContent

variable {F EncodingKey Token : Type}

/-- How issuing ends without a token. -/
inductive Stop where
  | panicked
  | refused (e : JwtIssuance.ApiError)
  deriving DecidableEq, Repr

/-- Reading the header of a signed token back. -/
structure HeaderReader (lib : Jsonwebtoken F EncodingKey Token) where
  header : Token → Header
  header_encode : ∀ h claims key token, lib.encode h claims key = .ok token → header token = h

/-- `add_header` with its last branch. -/
def addHeaderRun (header : Header) (k v : String) : Except Stop Header :=
  match k with
  | "cty" => .ok { header with cty := some v }
  | "jku" => .ok { header with jku := some v }
  | "x5u" => .ok { header with x5u := some v }
  | "x5t" => .ok { header with x5t := some v }
  | "x5t_s256" => .ok { header with x5tS256 := some v }
  | _ => .error .panicked

def addExtraHeaderRun (allowlisted : List String) (header : Header) (e : String × Value F) :
    Except Stop Header :=
  if e.1 ∈ allowlisted then
    match e.2.asStr with
    | some v => addHeaderRun header e.1 v
    | none => .error (.refused (.webError (.unsupportedHeaderField
        s!"Could not parse value for header [{e.1}] as a string")))
  else .error (.refused (.webError (.unsupportedHeaderField
    s!"The request contained header [{e.1}] but it is not allowed")))

def buildHeaderRun (key : JwtConfig F EncodingKey) (request : JwtParams F) : Except Stop Header :=
  let header := { Header.default with alg := key.keyType.algorithm, kid := some request.kid }
  if request.extraHeaders.entries.isEmpty then .ok header
  else
    match key.allowlistedExtraHeaders with
    | some allowlisted => (pairs request.extraHeaders).foldlM (addExtraHeaderRun allowlisted) header
    | none => .error (.refused (.webError (.unsupportedHeaderField
        "The request contains extra headers but none is allowed")))

/-- `issue_jwt`. -/
def issueJwtRun (lib : Jsonwebtoken F EncodingKey Token) (web : Web F EncodingKey)
    (params : Option (JwtParams F)) (module : String) (clock : Clock) : Except Stop Token :=
  match params with
  | none => .error (.refused .badRequest)
  | some request =>
    match web.keys.lookup request.kid with
    | none => .error (.refused (.webError (.badRequest
        s!"Module [{module}] tried to use [{request.kid}] that does not exist")))
    | some key =>
      if module ∈ key.allowedRules then do
        let claims ← (signedClaims lib.value key request clock).mapError Stop.refused
        let header ← buildHeaderRun key request
        (lib.encode header claims key.privateKey).mapError fun e =>
          .refused (.webError (.failedToEncodeJwt e))
      else .error (.refused (.webError (.moduleUnauthorizedToUseKey
        s!"Module [{module}] is not authorized to use key [{request.kid}]")))

/-- An optional header by its name. -/
def optionalHeader (header : Header) (name : String) : Option String :=
  match name with
  | "cty" => header.cty
  | "jku" => header.jku
  | "x5u" => header.x5u
  | "x5t" => header.x5t
  | "x5t_s256" => header.x5tS256
  | _ => none

/-- The request asks for an audience other than the enforced one and hides it under an extra
field of the same name. -/
def AudMasked (value : F → ℚ) (key : JwtConfig F EncodingKey) (request : JwtParams F) : Prop :=
  ∃ aud enforced field, request.aud = some aud ∧ key.enforcedClaims.lookup "aud" = some enforced ∧
    Value.same value (.string aud) enforced = false ∧
    request.extraFields.lookup "aud" = some field

/-- The name is on an allowlist. -/
def Allowed (allowlisted : Option (List String)) (name : String) : Prop :=
  ∃ names, allowlisted = some names ∧ name ∈ names

/-- What the key, as it was configured, permits of a request and of the token issued for it. -/
structure Permitted {lib : Jsonwebtoken F EncodingKey Token} (reader : HeaderReader lib)
    (key : JwtConfig F EncodingKey) (request : JwtParams F) (token : Token) : Prop where
  fields : ∀ name v, request.extraFields.lookup name = some v →
    Allowed key.allowlistedExtraFields name
  headers : ∀ name v, request.extraHeaders.lookup name = some v →
    Allowed key.allowlistedExtraHeaders name ∧ name ∈ allowlistableHeaders
  audEnforced : ∀ aud enforced, request.aud = some aud →
    key.enforcedClaims.lookup "aud" = some enforced →
    Value.same lib.value (.string aud) enforced = true
  fieldsEnforced : ∀ name v enforced, request.extraFields.lookup name = some v →
    key.enforcedClaims.lookup name = some enforced → Value.same lib.value v enforced = true
  contained : ∀ name v, lib.claim token name = some v → name ∈ ["sub", "iat", "aud", "exp"] ∨
    Allowed key.allowlistedExtraFields name ∨ name ∈ key.enforcedClaims
  enforced : ∀ name v, key.enforcedClaims.lookup name = some v → lib.claim token name = some v
  extra : ∀ name v, request.extraFields.lookup name = some v → ∃ w,
    lib.claim token name = some w ∧ (w = v ∨ key.enforcedClaims.lookup name = some w ∧
      Value.same lib.value v w = true)
  algorithm : (reader.header token).alg = key.keyType.algorithm
  kid : (reader.header token).kid = some request.kid
  typ : (reader.header token).typ = some "JWT"
  optional : ∀ name t, optionalHeader (reader.header token) name = some t →
    name ∈ allowlistableHeaders ∧ Allowed key.allowlistedExtraHeaders name ∧
      request.extraHeaders.lookup name = some (.string t)

section headers
variable {allowlisted : List String} {header header' : Header} {e : String × Value F}
  {l : List (String × Value F)} {key : JwtConfig F EncodingKey} {request : JwtParams F}

theorem addHeaderRun_allowlistable {k : String} (h : k ∈ allowlistableHeaders) (v : String) :
    addHeaderRun header k v = .ok (addHeader header k v) := by
  simp only [allowlistableHeaders, List.mem_cons, List.not_mem_nil, or_false] at h
  obtain rfl | rfl | rfl | rfl | rfl := h <;> rfl

/-- The names left by `sanitize_config` are the ones `add_header` knows. -/
theorem addExtraHeaderRun_eq (h : ∀ k ∈ allowlisted, k ∈ allowlistableHeaders) :
    addExtraHeaderRun allowlisted header e =
      (addExtraHeader allowlisted header e).mapError Stop.refused := by
  unfold addExtraHeaderRun addExtraHeader
  split_ifs with hk
  · cases e.2.asStr with
    | none => rfl
    | some v => exact addHeaderRun_allowlistable (h _ hk) v
  · rfl

theorem sanitize_allowlistedExtraHeaders : key.sanitize.allowlistedExtraHeaders =
    key.allowlistedExtraHeaders.map fun configured =>
      configured.filter (· ∈ allowlistableHeaders) := by
  unfold JwtConfig.sanitize
  cases h : key.allowlistedExtraHeaders with
  | none => rw [h, Option.map_none]
  | some configured => rfl

theorem sanitize_keyType : key.sanitize.keyType = key.keyType := by
  unfold JwtConfig.sanitize
  cases key.allowlistedExtraHeaders <;> rfl

theorem buildHeaderRun_sanitize : buildHeaderRun key.sanitize request =
    (buildHeader key.sanitize request).mapError Stop.refused := by
  unfold buildHeaderRun buildHeader
  rw [sanitize_allowlistedExtraHeaders]
  split_ifs with hempty
  · rfl
  · cases key.allowlistedExtraHeaders with
    | none => rfl
    | some configured =>
      refine foldlM_mapError (fun header e _ => addExtraHeaderRun_eq fun k hk => ?_) _
      exact of_decide_eq_true (List.mem_filter.mp hk).2

theorem addExtraHeader_ok (h : addExtraHeader allowlisted header e = .ok header') :
    e.1 ∈ allowlisted ∧ ∃ t, e.2 = .string t ∧ header' = addHeader header e.1 t := by
  unfold addExtraHeader at h
  split_ifs at h with hk
  · refine ⟨hk, ?_⟩
    cases hv : e.2 with
    | string t =>
      rw [hv] at h
      exact ⟨t, rfl, (Except.ok.inj h).symm⟩
    | _ =>
      rw [hv] at h
      cases h
  · cases h

theorem addHeader_fixed (k v : String) : (addHeader header k v).alg = header.alg ∧
    (addHeader header k v).kid = header.kid ∧ (addHeader header k v).typ = header.typ := by
  unfold addHeader
  split <;> exact ⟨rfl, rfl, rfl⟩

theorem optionalHeader_addHeader {k v name t : String}
    (h : optionalHeader (addHeader header k v) name = some t) :
    name = k ∧ t = v ∨ optionalHeader header name = some t := by
  unfold addHeader at h
  split at h <;> unfold optionalHeader at h ⊢ <;> split at h <;> simp_all

theorem optionalHeader_allowlistable {name t : String}
    (h : optionalHeader header name = some t) : name ∈ allowlistableHeaders := by
  unfold optionalHeader at h
  split at h <;> simp_all [allowlistableHeaders]

/-- What the requested headers make of a header. -/
theorem foldlM_addExtraHeader_ok (h : l.foldlM (addExtraHeader allowlisted) header = .ok header') :
    (∀ e ∈ l, e.1 ∈ allowlisted) ∧
      (header'.alg = header.alg ∧ header'.kid = header.kid ∧ header'.typ = header.typ) ∧
      ∀ name t, optionalHeader header' name = some t →
        (name, .string t) ∈ l ∨ optionalHeader header name = some t := by
  induction l generalizing header with
  | nil =>
    cases h
    exact ⟨by simp, ⟨rfl, rfl, rfl⟩, fun name t ht => Or.inr ht⟩
  | cons e l ih =>
    obtain ⟨next, hnext, h⟩ := bind_ok.mp h
    obtain ⟨hallowed, v, hv, rfl⟩ := addExtraHeader_ok hnext
    obtain ⟨hl, ⟨halg, hkid, htyp⟩, hopt⟩ := ih h
    obtain ⟨halg', hkid', htyp'⟩ := @addHeader_fixed header e.1 v
    refine ⟨List.forall_mem_cons.mpr ⟨hallowed, hl⟩,
      ⟨halg.trans halg', hkid.trans hkid', htyp.trans htyp'⟩, fun name t ht => ?_⟩
    rcases hopt name t ht with hmem | ht
    · exact Or.inl (List.mem_cons_of_mem e hmem)
    · rcases optionalHeader_addHeader ht with ⟨rfl, rfl⟩ | ht
      · rw [← hv]
        exact Or.inl List.mem_cons_self
      · exact Or.inr ht

/-- A header that is built has only what was asked for and what the key allows. -/
theorem buildHeader_ok (h : buildHeader key.sanitize request = .ok header) :
    (∀ name v, request.extraHeaders.lookup name = some v →
      Allowed key.allowlistedExtraHeaders name ∧ name ∈ allowlistableHeaders) ∧
    (header.alg = key.keyType.algorithm ∧ header.kid = some request.kid ∧
      header.typ = some "JWT") ∧
    ∀ name t, optionalHeader header name = some t →
      request.extraHeaders.lookup name = some (.string t) := by
  have hdefault : ∀ name, optionalHeader { Header.default with
      alg := key.keyType.algorithm, kid := some request.kid } name = none := by
    intro name
    unfold optionalHeader
    split <;> rfl
  unfold buildHeader at h
  rw [sanitize_allowlistedExtraHeaders, sanitize_keyType] at h
  split_ifs at h with hempty
  · cases h
    refine ⟨fun name v hv => ?_, ⟨rfl, rfl, rfl⟩, fun name t ht => ?_⟩
    · have hmem := mem_pairs.mpr hv
      rw [isEmpty_pairs hempty] at hmem
      cases hmem
    · rw [hdefault] at ht
      cases ht
  · cases hallow : key.allowlistedExtraHeaders with
    | none =>
      rw [hallow] at h
      cases h
    | some configured =>
      rw [hallow] at h
      obtain ⟨hl, hfixed, hopt⟩ := foldlM_addExtraHeader_ok h
      refine ⟨fun name v hv => ?_, hfixed, fun name t ht => ?_⟩
      · have hmem := List.mem_filter.mp (hl _ (mem_pairs.mpr hv))
        exact ⟨⟨configured, rfl, hmem.1⟩, of_decide_eq_true hmem.2⟩
      · rcases hopt name t ht with hmem | ht
        · exact mem_pairs.mp hmem
        · rw [hdefault] at ht
          cases ht

end headers

section claims
variable {value : F → ℚ} {key : JwtConfig F EncodingKey} {request : JwtParams F} {clock : Clock}
  {claims claims' own : Claims F}

theorem enforceClaim_same {e : String × Value F} (h : enforceClaim value claims e = .ok claims')
    {v : Value F} (hv : claims.lookup e.1 = some v) : Value.same value v e.2 = true := by
  unfold enforceClaim at h
  simp only [hv] at h
  split_ifs at h with hsame
  · exact hsame

/-- Writing one enforced claim leaves the names of the others as they are. -/
theorem enforceClaims_same {l : List (String × Value F)} (hl : (l.map Prod.fst).Nodup)
    (h : l.foldlM (enforceClaim value) claims = .ok claims') :
    ∀ e ∈ l, ∀ v, claims.lookup e.1 = some v → Value.same value v e.2 = true := by
  induction l generalizing claims with
  | nil => simp
  | cons e l ih =>
    obtain ⟨next, hnext, h⟩ := bind_ok.mp h
    rw [List.map_cons, List.nodup_cons] at hl
    rw [List.forall_mem_cons]
    refine ⟨fun v hv => enforceClaim_same hnext hv, fun e' he' v hv => ih hl.2 h e' he' v ?_⟩
    have hne : e'.1 ≠ e.1 := by
      intro heq
      exact hl.1 (heq ▸ List.mem_map_of_mem he')
    rw [enforceClaim_ok hnext, AList.lookup_insert_ne hne, hv]

theorem ownClaims_aud (h : ownClaims key request clock = .ok own) :
    own.lookup "aud" = request.aud.map Value.string := by
  obtain ⟨withAud, haud, h⟩ := bind_ok.mp h
  obtain ⟨t, hexp, h⟩ := bind_ok.mp h
  cases h
  rw [AList.lookup_insert_ne (by decide)]
  unfold setAud at haud
  cases hr : request.aud with
  | none =>
    rw [hr] at haud
    cases haud
    unfold setIat
    cases issuedAt key request clock with
    | none => exact AList.lookup_insert_ne (by decide)
    | some t =>
      exact (AList.lookup_insert_ne (by decide)).trans (AList.lookup_insert_ne (by decide))
  | some aud =>
    simp only [hr] at haud
    split_ifs at haud
    · cases haud
    · cases haud
      exact AList.lookup_insert _

theorem ownClaims_names (h : ownClaims key request clock = .ok own) {name : String} {v : Value F}
    (hv : own.lookup name = some v) : name ∈ ["sub", "iat", "aud", "exp"] := by
  by_contra hname
  simp only [List.mem_cons, List.not_mem_nil, or_false, not_or] at hname
  obtain ⟨hsub, hiat, haud, hexp⟩ := hname
  obtain ⟨withAud, hset, h⟩ := bind_ok.mp h
  obtain ⟨t, -, h⟩ := bind_ok.mp h
  cases h
  rw [AList.lookup_insert_ne hexp, setAud_lookup hset haud, setIat_lookup hiat,
    AList.lookup_insert_ne hsub, AList.lookup_empty] at hv
  cases hv

end claims

section issuing
variable {lib : Jsonwebtoken F EncodingKey Token} {keys : Keys F EncodingKey}
  {key : JwtConfig F EncodingKey} {request : JwtParams F} {clock : Clock} {module : String}
  {params : Option (JwtParams F)} {token : Token}

/-- After `sanitize_config` the two ways of reading `issue_jwt` agree. -/
theorem issueJwtRun_new : issueJwtRun lib (Web.new keys) params module clock =
    (issueJwt lib (Web.new keys) params module clock).mapError Stop.refused := by
  cases params with
  | none => rfl
  | some request =>
    simp only [issueJwtRun, issueJwt, Web.new, lookup_sanitizeConfig]
    cases keys.lookup request.kid with
    | none => rfl
    | some key =>
      simp only [Option.map_some]
      split_ifs
      · rw [mapError_bind]
        congr 1
        funext claims
        rw [mapError_bind, buildHeaderRun_sanitize]
        congr 1
        funext header
        cases lib.encode header claims key.sanitize.privateKey <;> rfl
      · rfl

/-- A token that was signed holds what its key permits exactly when the request hides no audience
under an extra field. -/
theorem permitted_iff (reader : HeaderReader lib) (hkey : keys.lookup request.kid = some key)
    (h : issueJwtRun lib (Web.new keys) (some request) module clock = .ok token) :
    Permitted reader key request token ↔ ¬ AudMasked lib.value key request := by
  rw [issueJwtRun_new, mapError_ok] at h
  obtain ⟨claims, header, hclaims, hheader, hencode⟩ := issueJwt_ok hkey h
  have hclaim := lib.claim_encode _ _ _ _ hencode
  have hread := reader.header_encode _ _ _ _ hencode
  obtain ⟨own, hown, hclaims⟩ := bind_ok.mp hclaims
  obtain ⟨extended, hextra, hclaims⟩ := bind_ok.mp hclaims
  obtain ⟨hheaders, ⟨halg, hkid, htyp⟩, hopt⟩ := buildHeader_ok hheader
  have hsame : ∀ name enforced, key.enforcedClaims.lookup name = some enforced →
      ∀ v, extended.lookup name = some v → Value.same lib.value v enforced = true :=
    fun name enforced he => enforceClaims_same (pairs_keys_nodup _) hclaims _ (mem_pairs.mpr he)
  have hext : ∀ name, extended.lookup name =
      (request.extraFields.lookup name).or (own.lookup name) := by
    intro name
    rw [addExtraFields_ok hextra, lookup_putAll_pairs]
  have htoken : ∀ name, lib.claim token name =
      (key.enforcedClaims.lookup name).or (extended.lookup name) := by
    intro name
    rw [hclaim, enforceClaims_ok hclaims, lookup_putAll_pairs]
  constructor
  · intro hp hmasked
    obtain ⟨aud, enforced, field, haud, he, hdiff, -⟩ := hmasked
    rw [hp.audEnforced aud enforced haud he] at hdiff
    cases hdiff
  · intro hmasked
    have hfield : ∀ name v enforced, request.extraFields.lookup name = some v →
        key.enforcedClaims.lookup name = some enforced → Value.same lib.value v enforced = true :=
      fun name v enforced hv he => hsame name enforced he v (by rw [hext, hv]; rfl)
    constructor
    · exact fun name v hv => addExtraFields_allowed hextra hv
    · exact hheaders
    · intro aud enforced haud he
      cases hf : request.extraFields.lookup "aud" with
      | some field =>
        by_contra hdiff
        exact hmasked ⟨aud, enforced, field, haud, he, by simpa using hdiff, hf⟩
      | none => exact hsame "aud" enforced he _ (by rw [hext, hf, ownClaims_aud hown, haud]; rfl)
    · exact hfield
    · intro name v hv
      rw [htoken, hext, Option.or_eq_some_iff, Option.or_eq_some_iff] at hv
      rcases hv with he | ⟨-, hx | ⟨-, ho⟩⟩
      · exact Or.inr (Or.inr (AList.lookup_isSome.mp (by rw [he]; rfl)))
      · exact Or.inr (Or.inl (addExtraFields_allowed hextra hx))
      · exact Or.inl (ownClaims_names hown ho)
    · intro name v he
      rw [htoken, he]
      rfl
    · intro name v hv
      cases he : key.enforcedClaims.lookup name with
      | none => exact ⟨v, by rw [htoken, he, hext, hv]; rfl, Or.inl rfl⟩
      | some w => exact ⟨w, by rw [htoken, he]; rfl, Or.inr ⟨rfl, hfield name v w hv he⟩⟩
    · rw [hread, halg]
    · rw [hread, hkid]
    · rw [hread, htyp]
    · intro name t ht
      rw [hread] at ht
      have hrequested := hopt name t ht
      obtain ⟨hallowed, hname⟩ := hheaders name _ hrequested
      exact ⟨hname, hallowed, hrequested⟩

/-- No request reaches the last branch of `add_header`, and the tokens that are issued hold what
is permitted exactly when no audience is hidden. -/
theorem issued_permitted_iff (reader : HeaderReader lib)
    (hkey : keys.lookup request.kid = some key) :
    issueJwtRun lib (Web.new keys) (some request) module clock ≠ .error .panicked ∧
      ∀ token, issueJwtRun lib (Web.new keys) (some request) module clock = .ok token →
        (Permitted reader key request token ↔ ¬ AudMasked lib.value key request) := by
  refine ⟨?_, fun token h => permitted_iff reader hkey h⟩
  rw [issueJwtRun_new]
  cases issueJwt lib (Web.new keys) (some request) module clock with
  | error e => simp [Except.mapError]
  | ok token => simp [Except.mapError]

end issuing

section run

def plainReader : HeaderReader plainJwt where
  header token := token.1
  header_encode := by
    rintro h claims key token ⟨⟩
    rfl

/-- A key of one minute with a fixed audience that a rule may repeat. -/
def audKey : JwtConfig ℚ String where
  keyType := .es256
  privateKey := "pem"
  allowedRules := ["rule"]
  enforceAccurateIat := some true
  maxTtl := some 60
  allowlistedExtraHeaders := some ["cty", "alg"]
  allowlistedExtraFields := some ["aud"]
  enforcedClaims := (∅ : Claims ℚ).insert "aud" (.string "service")
  enforced_reserved k hk := by
    simp only [reservedEnforcedClaims, List.mem_cons, List.not_mem_nil, or_false] at hk
    obtain rfl | rfl | rfl := hk <;> rfl

def audKeys : Keys ℚ String := (∅ : Keys ℚ String).insert "kid" audKey

/-- The enforced audience as an extra field, under whichever one is asked for. -/
def requestFor (aud : String) : JwtParams ℚ :=
  { requestWith "aud" (.string "service") with aud := some aud }

theorem repeated_aud_permitted :
    ∃ token, issueJwtRun plainJwt (Web.new audKeys) (some (requestFor "service")) "rule"
      ⟨1000, 1000⟩ = .ok token ∧ Permitted plainReader audKey (requestFor "service") token := by
  have hagree : ¬ AudMasked plainJwt.value audKey (requestFor "service") := by
    rintro ⟨aud, enforced, field, ⟨⟩, ⟨⟩, hdiff, -⟩
    cases hdiff
  refine ⟨_, rfl, ?_⟩
  exact ((@issued_permitted_iff _ _ _ plainJwt audKeys audKey (requestFor "service")
    ⟨1000, 1000⟩ "rule" plainReader rfl).2 _ rfl).mpr hagree

/-- A request for another audience gets its token. -/
theorem hidden_aud_signed :
    ¬ ∀ (keys : Keys ℚ String) (key : JwtConfig ℚ String) (request : JwtParams ℚ)
      (module : String) (clock : Clock) (token : Header × Claims ℚ),
      keys.lookup request.kid = some key →
      issueJwtRun plainJwt (Web.new keys) (some request) module clock = .ok token →
      Permitted plainReader key request token := by
  intro h
  have hp := h audKeys audKey (requestFor "other") "rule" ⟨1000, 1000⟩ _ rfl rfl
  have hdiff := hp.audEnforced "other" (.string "service") rfl rfl
  cases hdiff

end run
end PlaidRuntime.JwtPermits
