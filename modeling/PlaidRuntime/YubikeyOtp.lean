import PlaidRuntime.ParameterText

/-!
# Verifying a YubiKey OTP

`verify_otp` of `apis/yubikey/otp.rs` and the exchange it is one side of. The request is signed as
text and read as parameters; the response is any text, but what its signature holds for was signed
by one of the two sides.
-/
namespace PlaidRuntime.YubikeyOtp
open ParameterText SeparatedText SortedEntries

inductive YubikeyError where
  | randError
  | networkError
  | noStatus
  | noData
  | badData
  | noSignature
  | badSignature
  | noSuchClient
  | operationNotAllowed
  | missingParameter
  | notEnoughAnswers
  | missingNonce
  | nonceMismatch
  | signatureMismatch
  | other (text : String)
  deriving DecidableEq, Repr

/-- `validate_client_id` has let the identifier through. -/
structure YubikeyConfig where
  clientId : ℕ
  clientId_lt : clientId < 2 ^ 64
  clientId_ne : clientId ≠ 0

/-- `hmac` under the shared key, and `base64`. -/
structure Hmac (Tag : Type) where
  sign : Text → Tag
  encode : Tag → Text
  decode : Text → Option Tag
  decode_encode : ∀ tag, decode (encode tag) = some tag
  encode_alphabet : ∀ tag, ∀ c ∈ encode tag, c ≠ '&' ∧ c ≠ '#' ∧ c ≠ '\n'

def idKey : Text := ['i', 'd']
def nonceKey : Text := ['n', 'o', 'n', 'c', 'e']
def otpKey : Text := ['o', 't', 'p']
def statusKey : Text := ['s', 't', 'a', 't', 'u', 's']
def hKey : Text := ['h']
def okText : Text := ['O', 'K']

def hexEncode (data : List UInt8) : Text :=
  data.flatMap fun byte => [Nat.digitChar (byte.toNat / 16), Nat.digitChar (byte.toNat % 16)]

/-- `id=…&nonce=…&otp=…`, with the otp as the rule passed it. -/
def requestText (clientId : ℕ) (nonce otp : Text) : Text :=
  joined [(idKey, Nat.toDigits 10 clientId), (nonceKey, nonce), (otpKey, otp)]

/-- What the network makes of a request. -/
inductive Delivery where
  | lost
  | unreadable
  | text (data : Text)
  deriving DecidableEq, Repr

/-- A line without its carriage return. -/
def stripCr (line : Text) : Text :=
  if line.getLast? = some '\r' then line.dropLast else line

/-- `str::lines`: what follows the last line feed is a line unless it is empty, and keeps its
carriage return. -/
def lines (data : Text) : List Text :=
  let parts := data.splitOn '\n'
  parts.dropLast.map stripCr ++ parts.getLast?.toList.filter (· ≠ [])

def responseItems (data : Text) : List Entry :=
  ofEntries ((lines data).filterMap fun line => if '=' ∈ line then some (splitPiece line) else none)

/-- The items once `h` has been removed. -/
def unsigned (data : Text) : List Entry := (responseItems data).filter fun e => e.1 ≠ hKey

section verifying
variable {Tag : Type} [DecidableEq Tag] (hmac : Hmac Tag)

def signedRequest (request : Text) : Text :=
  request ++ appended [(hKey, hmac.encode (hmac.sign request))]

/-- The checks on a response; every status is passed on as it is. -/
def verifyResponse (nonce data : Text) : Except YubikeyError Text :=
  match (responseItems data).lookup hKey with
  | none => .error .noSignature
  | some signature =>
    let items := unsigned data
    if items.isEmpty then .error (.other "Nothing but a signature was returned")
    else
      match hmac.decode signature with
      | none => .error .badData
      | some tag =>
        if hmac.sign (joined items) ≠ tag then .error .badSignature
        else
          match items.lookup nonceKey with
          | none => .error .missingNonce
          | some returned =>
            if nonce ≠ returned then .error .nonceMismatch
            else
              match items.lookup statusKey with
              | none => .error .noStatus
              | some status => .ok status

def yubicloudVerify : Text := "https://api.yubico.com/wsapi/2.0/verify".toList

/-- `verify_otp`; `random` is `none` when no nonce can be drawn. -/
def verifyOtp (config : YubikeyConfig) (random : Option (Vector UInt8 16))
    (network : Text → Delivery) (otp : Text) : Except YubikeyError Text :=
  match random with
  | none => .error .randError
  | some bytes =>
    let nonce := hexEncode bytes.toList
    let request := requestText config.clientId nonce otp
    match network (yubicloudVerify ++ '?' :: signedRequest hmac request) with
    | .lost => .error .networkError
    | .unreadable => .error .noData
    | .text data => verifyResponse hmac nonce data

end verifying

/-! The other side. -/
section server

/-- How a part of a query arrives: escapes are read, `+` is a blank and line breaks are gone. -/
structure QueryReader where
  decode : Text → Text
  shortens : Shortens decode
  plain : ∀ s, (∀ c ∈ s, c ≠ '%' ∧ c ≠ '+' ∧ c ≠ '\t' ∧ c ≠ '\n' ∧ c ≠ '\r') → decode s = s

/-- The query of a URL ends where its fragment starts. -/
def arrived (query : Text) : Text := query.takeWhile (· ≠ '#')

/-- The last `h`, as it was sent. -/
def sentSignature (query : Text) : Option Text :=
  ((query.splitOn '&').map splitPiece).reverse.lookup hKey

/-- A call of `verify_otp`, the server it talks to and the texts that were signed elsewhere. -/
structure Exchange where
  config : YubikeyConfig
  random : Vector UInt8 16
  /-- The status of an otp under a nonce. -/
  verdict : Text → Text → Text
  /-- Further lines of the answer. -/
  fields : List Entry
  /-- Requests and responses of other calls. -/
  others : List Text
  verdict_word : ∀ otp nonce, ∀ c ∈ verdict otp nonce, c.isUpper = true ∨ c = '_'
  fields_plain : ∀ e ∈ fields, Plain e ∧ e.1 ∉ [hKey, nonceKey, otpKey, statusKey]
  fields_fresh : ∀ e ∈ fields, ¬ hexEncode random.toList <:+: e.1 ∧
    ¬ hexEncode random.toList <:+: e.2

namespace Exchange
variable {Tag : Type} [DecidableEq Tag] (hmac : Hmac Tag) (reader : QueryReader) (x : Exchange)
  (otp : Text)

def nonce : Text := hexEncode x.random.toList

def request : Text := requestText x.config.clientId x.nonce otp

/-- No text that was signed elsewhere has the nonce of this call in it. Drawing nonces afresh does
not give this: once the nonce is on the wire, another call may be made with an otp that spells it. -/
def OthersFresh : Prop := ∀ t ∈ x.others, ¬ x.nonce <:+: t

/-- The parameters the server reads, but for the signature. -/
def parameters : List Entry :=
  read reader.decode hKey (arrived (signedRequest hmac (x.request otp)))

/-- The signature is the one of the parameters, and their text was signed. -/
def Accepts : Prop :=
  sentSignature (arrived (signedRequest hmac (x.request otp))) =
      some (hmac.encode (hmac.sign (joined (x.parameters hmac reader otp)))) ∧
    joined (x.parameters hmac reader otp) ∈ x.request otp :: x.others

/-- The lines of an answer about an otp under a nonce. -/
def answer (otp nonce : Text) : List Entry :=
  ofEntries (x.fields ++ [(nonceKey, nonce), (otpKey, otp), (statusKey, x.verdict otp nonce)])

/-- The texts signed under the key by the time the response arrives. -/
inductive Signed : Text → Prop
  | request : Signed (x.request otp)
  | other (t : Text) : t ∈ x.others → Signed t
  | answer (otp' nonce : Text) : x.Accepts hmac reader otp →
      (x.parameters hmac reader otp).lookup otpKey = some otp' →
      (x.parameters hmac reader otp).lookup nonceKey = some nonce →
      Signed (joined (x.answer otp' nonce))

/-- A response whose signature holds for a text that was signed. -/
def Genuine (data : Text) : Prop :=
  ∀ signature, (responseItems data).lookup hKey = some signature →
    hmac.decode signature = some (hmac.sign (joined (unsigned data))) →
    x.Signed hmac reader otp (joined (unsigned data))

/-- The server has validated this otp under the nonce of this call. -/
structure Validated : Prop where
  accepts : x.Accepts hmac reader otp
  otp_read : (x.parameters hmac reader otp).lookup otpKey = some otp
  nonce_read : (x.parameters hmac reader otp).lookup nonceKey = some x.nonce
  verdict_ok : x.verdict otp x.nonce = okText

end Exchange

variable {Tag : Type} [DecidableEq Tag] (hmac : Hmac Tag) (reader : QueryReader)

/-- Whatever is delivered, `OK` means that the server has validated the otp under the nonce, as long
as no other call has signed the nonce. -/
def BindsOtp (otp : Text) : Prop :=
  ∀ (x : Exchange) (network : Text → Delivery), x.OthersFresh →
    (∀ url data, network url = .text data → x.Genuine hmac reader otp data) →
    verifyOtp hmac x.config (some x.random) network otp = .ok okText →
    x.Validated hmac reader otp

/-- The otp is a shorter one and further parameters, which the server takes as they stand and which
follow `otp` in the alphabet. -/
def AddsParameters (otp : Text) : Prop :=
  ∃ shorter es, es ≠ [] ∧ otp = shorter ++ appended es ∧ '#' ∉ otp ∧ '\n' ∉ shorter ∧
    Sorted ((otpKey, shorter) :: es) ∧ ∀ e ∈ (otpKey, shorter) :: es, Verbatim reader.decode e

/-- The otp has `&status=OK` in it, at its end or before a parameter that follows `status` in the
alphabet, and no line break. -/
def CarriesStatus (otp : Text) : Prop :=
  '\n' ∉ otp ∧ ∃ front es, otp = front ++ appended ((statusKey, okText) :: es) ∧
    Sorted ((statusKey, okText) :: es) ∧ ∀ e ∈ es, '=' ∉ e.1

end server

section texts
variable {data : Text}

def hexDigits : Text :=
  ['0', '1', '2', '3', '4', '5', '6', '7', '8', '9', 'a', 'b', 'c', 'd', 'e', 'f']

theorem names_lt : hKey < idKey ∧ idKey < nonceKey ∧ nonceKey < otpKey ∧ otpKey < statusKey := by
  decide

theorem names_word : ∀ key ∈ [hKey, idKey, nonceKey, otpKey, statusKey],
    key.length < 32 ∧ '=' ∉ key ∧ '&' ∉ key := by
  decide

theorem plain_named {key v : Text} (hkey : key ∈ [hKey, idKey, nonceKey, otpKey, statusKey])
    (hv : '&' ∉ v) : Plain (key, v) :=
  ⟨(names_word key hkey).2.1, (names_word key hkey).2.2, hv⟩

theorem plain_ok : Plain (statusKey, okText) := plain_named (by simp) (by simp [okText])

theorem hexEncode_chars {data : List UInt8} : ∀ c ∈ hexEncode data, c ∈ hexDigits := by
  have hdigit : ∀ n < 16, Nat.digitChar n ∈ hexDigits := by decide
  intro c hc
  obtain ⟨byte, -, hc⟩ := List.mem_flatMap.mp hc
  have hlt := byte.toNat_lt
  rw [List.mem_cons, List.mem_singleton] at hc
  rcases hc with rfl | rfl
  · exact hdigit _ (by omega)
  · exact hdigit _ (by omega)

theorem hexEncode_length (data : List UInt8) : (hexEncode data).length = 2 * data.length := by
  induction data with
  | nil => rfl
  | cons byte data ih =>
    rw [hexEncode, List.flatMap_cons, List.length_append, ← hexEncode, ih, List.length_cons]
    simp
    omega

theorem Exchange.nonce_length (x : Exchange) : x.nonce.length = 32 := by
  rw [Exchange.nonce, hexEncode_length, Vector.length_toList]

theorem notMem_of_lines {line : Text} (h : line ∈ lines data) : '\n' ∉ line := by
  rw [lines, List.mem_append, List.mem_map] at h
  rcases h with ⟨part, hpart, rfl⟩ | h
  · have hn := notMem_of_mem_splitOn (List.mem_of_mem_dropLast hpart)
    unfold stripCr
    split_ifs
    · exact fun hmem => hn (List.mem_of_mem_dropLast hmem)
    · exact hn
  · have hlast := Option.mem_toList.mp (List.mem_filter.mp h).1
    exact notMem_of_mem_splitOn (List.mem_of_getLast? hlast)

theorem responseItems_entry {e : Entry} (h : e ∈ responseItems data) :
    '=' ∉ e.1 ∧ '\n' ∉ render e := by
  obtain ⟨line, hline, he⟩ := List.mem_filterMap.mp (mem_of_mem_ofEntries h)
  split_ifs at he with heq
  obtain rfl := Option.some.inj he
  exact ⟨notMem_splitPiece line, by rw [render_splitPiece heq]; exact notMem_of_lines hline⟩

theorem unsigned_entry {e : Entry} (h : e ∈ unsigned data) : '=' ∉ e.1 ∧ '\n' ∉ render e :=
  responseItems_entry (List.mem_filter.mp h).1

theorem unsigned_sorted (data : Text) : Sorted (unsigned data) :=
  (ofEntries_sorted _).filter _

theorem notMem_joined {c : Char} {es : List Entry} (hc : c ≠ '&')
    (h : ∀ e ∈ es, c ∉ render e) : c ∉ joined es := by
  induction es with
  | nil => simp [joined]
  | cons e es ih =>
    rw [List.forall_mem_cons] at h
    by_cases hes : es = []
    · subst hes
      simpa [joined] using h.1
    · rw [joined_cons hes]
      simp [h.1, hc, ih h.2]

end texts

section requests
variable {Tag : Type} {hmac : Hmac Tag} {reader : QueryReader} {x : Exchange} {otp s t : Text}

theorem arrived_of_notMem (h : '#' ∉ t) : arrived t = t := by
  refine List.takeWhile_eq_self_iff.mpr fun c hc => decide_eq_true fun heq => h ?_
  exact heq ▸ hc

/-- What follows a fragment does not arrive. -/
theorem arrived_append (h : '#' ∈ s) : arrived (s ++ t) = arrived s := by
  induction s with
  | nil => cases h
  | cons c s ih =>
    by_cases hc : c = '#'
    · subst hc
      rfl
    · have hs := ih ((List.mem_cons.mp h).resolve_left fun heq => hc heq.symm)
      simpa [arrived, hc] using hs

theorem size_arrived_lt (h : '#' ∈ t) : size (arrived t) < size t := by
  induction t with
  | nil => cases h
  | cons c t ih =>
    by_cases hc : c = '#'
    · subst hc
      simp [arrived, size]
    · have ht := ih ((List.mem_cons.mp h).resolve_left fun heq => hc heq.symm)
      have hcons : ∀ s, size (c :: s) = size [c] + size s := fun s => size_append [c] s
      have hfirst : arrived (c :: t) = c :: arrived t := by simp [arrived, hc]
      rw [hfirst, hcons (arrived t), hcons t]
      omega

theorem signedRequest_eq : signedRequest hmac t =
    t ++ '&' :: render (hKey, hmac.encode (hmac.sign t)) := by
  simp [signedRequest, appended]

theorem encode_notMem (tag : Tag) : '&' ∉ hmac.encode tag ∧ '#' ∉ hmac.encode tag ∧
    '\n' ∉ hmac.encode tag :=
  ⟨fun h => (hmac.encode_alphabet tag _ h).1 rfl, fun h => (hmac.encode_alphabet tag _ h).2.1 rfl,
    fun h => (hmac.encode_alphabet tag _ h).2.2 rfl⟩

/-- Without a fragment the server reads the request as it was signed. -/
theorem parameters_eq (h : '#' ∉ x.request otp) :
    x.parameters hmac reader otp = read reader.decode hKey (x.request otp) := by
  obtain ⟨hamp, hhash, -⟩ := @encode_notMem _ hmac (hmac.sign (x.request otp))
  have harrived : '#' ∉ signedRequest hmac (x.request otp) := by
    simp [signedRequest_eq, render, hKey, h, hhash]
  rw [Exchange.parameters, arrived_of_notMem harrived, signedRequest_eq,
    read_append_ignored (by decide) (by decide) hamp]

/-- With one it reads less than what was signed. -/
theorem size_parameters_lt (h : '#' ∈ x.request otp) (hne : x.parameters hmac reader otp ≠ []) :
    size (joined (x.parameters hmac reader otp)) < size (x.request otp) := by
  have hle : size (joined (x.parameters hmac reader otp)) ≤
      size (arrived (signedRequest hmac (x.request otp))) := size_read_le reader.shortens hne
  rw [signedRequest_eq, arrived_append h] at hle
  exact lt_of_le_of_lt hle (size_arrived_lt h)

theorem nonce_notMem {c : Char} (h : c ∉ hexDigits) : c ∉ x.nonce :=
  fun hc => h (hexEncode_chars c hc)

theorem clientId_notMem {c : Char} (h : c.isDigit = false) :
    c ∉ Nat.toDigits 10 x.config.clientId := by
  intro hc
  rw [Nat.isDigit_of_mem_toDigits (by decide) (by decide) hc] at h
  cases h

/-- The pieces of a request: the otp is the only one that may be several. -/
theorem splitOn_request {first : Text} {rest : List Text} (h : otp.splitOn '&' = first :: rest) :
    (x.request otp).splitOn '&' = render (idKey, Nat.toDigits 10 x.config.clientId) ::
      render (nonceKey, x.nonce) :: render (otpKey, first) :: rest := by
  have hid : Plain (idKey, Nat.toDigits 10 x.config.clientId) :=
    plain_named (by simp) (clientId_notMem rfl)
  have hnonce : Plain (nonceKey, x.nonce) :=
    plain_named (by simp) (nonce_notMem (by simp [hexDigits]))
  have hrequest : x.request otp = render (idKey, Nat.toDigits 10 x.config.clientId) ++ '&' ::
      (render (nonceKey, x.nonce) ++ '&' :: render (otpKey, otp)) := by
    simp [Exchange.request, requestText, joined, List.intercalate_cons_of_ne_nil]
  have hotp : (render (otpKey, otp)).splitOn '&' = render (otpKey, first) :: rest := by
    simp [render, otpKey, List.splitOn_cons_eq_if_modifyHead, h]
  rw [hrequest, List.splitOn_append_cons_self_of_not_mem hid.notMem_render,
    List.splitOn_append_cons_self_of_not_mem hnonce.notMem_render, hotp]

/-- When the parameters spell the request, the otp was read up to its first `&`. -/
theorem parameters_of_request
    (h : joined (x.parameters hmac reader otp) = x.request otp) :
    ∃ first es, x.parameters hmac reader otp =
        (idKey, Nat.toDigits 10 x.config.clientId) :: (nonceKey, x.nonce) :: (otpKey, first) :: es ∧
      otp = first ++ appended es ∧ '#' ∉ otp ∧
      ∀ e ∈ x.parameters hmac reader otp, Verbatim reader.decode e := by
  have hrequest : x.request otp ≠ [] := by
    simp [Exchange.request, requestText, joined, render, List.intercalate_cons_of_ne_nil]
  have hne : x.parameters hmac reader otp ≠ [] := by
    intro hnil
    rw [hnil] at h
    exact hrequest h.symm
  have hhash : '#' ∉ x.request otp := by
    intro hin
    have hlt := @size_parameters_lt _ hmac reader _ _ hin hne
    rw [h] at hlt
    exact lt_irrefl _ hlt
  rw [parameters_eq hhash] at h ⊢
  obtain ⟨hsplit, hverbatim⟩ := verbatim_of_read reader.shortens hrequest h
  obtain ⟨first, rest, hfirst⟩ := List.exists_cons_of_ne_nil (List.splitOn_ne_nil '&' otp)
  rw [splitOn_request hfirst] at hsplit
  obtain ⟨e₁, l₁, hl₁, hr₁, h₁⟩ := List.map_eq_cons_iff.mp hsplit.symm
  obtain ⟨e₂, l₂, rfl, hr₂, h₂⟩ := List.map_eq_cons_iff.mp h₁
  obtain ⟨e₃, es, rfl, hr₃, rfl⟩ := List.map_eq_cons_iff.mp h₂
  have hplain : ∀ e ∈ [e₁, e₂, e₃], '=' ∉ e.1 := by
    intro e he
    refine (hverbatim e ?_).1.1.1
    rw [hl₁]
    exact List.mem_append_left es he
  obtain rfl := render_inj (hplain e₁ (by simp)) (names_word idKey (by simp)).2.1 hr₁
  obtain rfl := render_inj (hplain e₂ (by simp)) (names_word nonceKey (by simp)).2.1 hr₂
  obtain rfl := render_inj (hplain e₃ (by simp)) (names_word otpKey (by simp)).2.1 hr₃
  refine ⟨first, es, hl₁, ?_, ?_, fun e he => (hverbatim e he).1⟩
  · rw [← intercalate_cons_map, ← hfirst, List.intercalate_splitOn]
  · intro hin
    refine hhash ?_
    simp [Exchange.request, requestText, joined, render, List.intercalate_cons_of_ne_nil, hin]

end requests

section responses
variable {Tag : Type} [DecidableEq Tag] {hmac : Hmac Tag} {nonce data status : Text}

theorem verifyResponse_ok : verifyResponse hmac nonce data = .ok status ↔
    ∃ signature, (responseItems data).lookup hKey = some signature ∧
      hmac.decode signature = some (hmac.sign (joined (unsigned data))) ∧
      (unsigned data).lookup nonceKey = some nonce ∧
      (unsigned data).lookup statusKey = some status := by
  constructor
  · intro h
    unfold verifyResponse at h
    cases hsig : (responseItems data).lookup hKey with
    | none => simp [hsig] at h
    | some signature =>
      simp only [hsig] at h
      split_ifs at h
      cases htag : hmac.decode signature with
      | none => simp [htag] at h
      | some tag =>
        simp only [htag] at h
        split_ifs at h with hsign
        cases hn : (unsigned data).lookup nonceKey with
        | none => simp [hn] at h
        | some returned =>
          simp only [hn] at h
          split_ifs at h with hreturned
          cases hst : (unsigned data).lookup statusKey with
          | none => simp [hst] at h
          | some found =>
            simp only [hst, Except.ok.injEq] at h
            rw [not_not] at hsign hreturned
            exact ⟨signature, rfl, by rw [hsign, htag], by rw [hreturned], by rw [h]⟩
  · intro h
    obtain ⟨signature, hsig, htag, hn, hst⟩ := h
    have hitems : (unsigned data).isEmpty = false := by
      cases hdata : unsigned data with
      | nil => simp [hdata] at hn
      | cons e es => rfl
    simp [verifyResponse, hsig, hitems, htag, hn, hst]

/-- A response with the given items and their signature, in lines that end with `\r\n`. -/
def responseText (hmac : Hmac Tag) (es : List Entry) : Text :=
  (es ++ [(hKey, hmac.encode (hmac.sign (joined es)))]).flatMap fun e => render e ++ ['\r', '\n']

theorem lines_flatMap {l : List Text} (h : ∀ line ∈ l, '\n' ∉ line) :
    lines (l.flatMap fun line => line ++ ['\r', '\n']) = l := by
  have hsplit : (l.flatMap fun line => line ++ ['\r', '\n']).splitOn '\n' =
      l.map (fun line => line ++ ['\r']) ++ [[]] := by
    induction l with
    | nil => rfl
    | cons line l ih =>
      rw [List.forall_mem_cons] at h
      have hline : '\n' ∉ line ++ ['\r'] := by simp [h.1]
      have hcons : (line :: l).flatMap (fun line => line ++ ['\r', '\n']) =
          (line ++ ['\r']) ++ '\n' :: l.flatMap fun line => line ++ ['\r', '\n'] := by simp
      rw [hcons, List.splitOn_append_cons_self_of_not_mem hline, ih h.2]
      simp
  have hstrip : ∀ line : Text, stripCr (line ++ ['\r']) = line := by simp [stripCr]
  simp [lines, hsplit, Function.comp_def, hstrip]

variable {es : List Entry}

omit [DecidableEq Tag] in
/-- Items in the order of their keys are read back. -/
theorem responseItems_responseText (hs : Sorted es)
    (he : ∀ e ∈ es, '=' ∉ e.1 ∧ '\n' ∉ render e) : responseItems (responseText hmac es) =
      insertEntry hKey (hmac.encode (hmac.sign (joined es))) es := by
  have hall : ∀ e ∈ es ++ [(hKey, hmac.encode (hmac.sign (joined es)))],
      '=' ∉ e.1 ∧ '\n' ∉ render e := by
    intro e hmem
    rcases List.mem_append.mp hmem with hmem | hmem
    · exact he e hmem
    · obtain rfl := List.mem_singleton.mp hmem
      refine ⟨(names_word hKey (by simp)).2.1, ?_⟩
      simp [render, hKey, (encode_notMem _).2.2]
  have hlines : lines (responseText hmac es) =
      (es ++ [(hKey, hmac.encode (hmac.sign (joined es)))]).map render := by
    rw [responseText, ← lines_flatMap (l := List.map render _), List.flatMap_map]
    intro line hline
    obtain ⟨e, hmem, rfl⟩ := List.mem_map.mp hline
    exact (hall e hmem).2
  have hread : ∀ l : List Entry, (∀ e ∈ l, '=' ∉ e.1) → (l.map render).filterMap
      (fun line => if '=' ∈ line then some (splitPiece line) else none) = l := by
    intro l hl
    induction l with
    | nil => rfl
    | cons e l ih =>
      rw [List.forall_mem_cons] at hl
      have hin : '=' ∈ render e := by simp [render]
      simp [hin, splitPiece_render hl.1, ih hl.2]
  rw [responseItems, hlines, hread _ fun e hmem => (hall e hmem).1, ofEntries_append_singleton,
    ofEntries_of_sorted hs]

/-- A response that is signed is taken for what it says. -/
theorem verifyResponse_responseText (hs : Sorted es)
    (he : ∀ e ∈ es, '=' ∉ e.1 ∧ '\n' ∉ render e) (hh : hKey ∉ es.map Prod.fst)
    (hn : (nonceKey, nonce) ∈ es) (hst : (statusKey, status) ∈ es) :
    unsigned (responseText hmac es) = es ∧
      verifyResponse hmac nonce (responseText hmac es) = .ok status := by
  have hunsigned : unsigned (responseText hmac es) = es := by
    rw [unsigned, responseItems_responseText hs he]
    exact insertEntry_filter (fun e => decide_eq_true_iff) hh
  refine ⟨hunsigned, verifyResponse_ok.mpr ⟨hmac.encode (hmac.sign (joined es)), ?_, ?_, ?_, ?_⟩⟩
  · rw [responseItems_responseText hs he, (insertEntry_sorted hs).lookup_eq_some]
    exact (insertEntry_perm hh).mem_iff.mpr List.mem_cons_self
  · rw [hmac.decode_encode, hunsigned]
  · rw [hunsigned, hs.lookup_eq_some]
    exact hn
  · rw [hunsigned, hs.lookup_eq_some]
    exact hst

end responses

section binding
variable {Tag : Type} {hmac : Hmac Tag} {reader : QueryReader} {x : Exchange}
  {otp data otp' nonce : Text}

theorem parameters_sorted : Sorted (x.parameters hmac reader otp) := ofEntries_sorted _

theorem mem_answer {e : Entry} (h : e ∈ x.answer otp' nonce) : e ∈ x.fields ∨
    e = (nonceKey, nonce) ∨ e = (otpKey, otp') ∨ e = (statusKey, x.verdict otp' nonce) := by
  have hmem := mem_of_mem_ofEntries h
  simpa using hmem

theorem otp_mem_answer : (otpKey, otp') ∈ x.answer otp' nonce := by
  have hanswer : x.answer otp' nonce = insertEntry statusKey (x.verdict otp' nonce)
      (insertEntry otpKey otp' (insertEntry nonceKey nonce (ofEntries x.fields))) := by
    simp [Exchange.answer, ofEntries]
  rw [hanswer]
  exact mem_insertEntry_of_ne (mem_insertEntry_self _ _ _) (ne_of_lt names_lt.2.2.2)

/-- Only an answer about a request of this call has the nonce of this call. -/
theorem parameters_of_answer (hothers : x.OthersFresh) (h : x.Accepts hmac reader otp)
    (hotp : (x.parameters hmac reader otp).lookup otpKey = some otp')
    (hnonce : (x.parameters hmac reader otp).lookup nonceKey = some nonce)
    (hin : x.nonce <:+: joined (x.answer otp' nonce)) :
    joined (x.parameters hmac reader otp) = x.request otp := by
  rcases List.mem_cons.mp h.2 with h | hother
  · exact h
  · exfalso
    have hfresh := hothers _ hother
    have hlength := x.nonce_length
    have hne : x.nonce ≠ [] := by
      intro hnil
      simp [hnil] at hlength
    have hshort : ∀ key ∈ [hKey, idKey, nonceKey, otpKey, statusKey], ¬ x.nonce <:+: key := by
      intro key hkey hwithin
      have := (names_word key hkey).1
      have := hwithin.length_le
      omega
    have hread : ∀ v key, (x.parameters hmac reader otp).lookup key = some v →
        ¬ x.nonce <:+: v := fun v key hv hwithin =>
      hfresh (hwithin.trans (parts_infix_joined (parameters_sorted.lookup_eq_some.mp hv)).2)
    obtain ⟨e, he, hwithin⟩ := infix_joined (nonce_notMem (by decide)) (nonce_notMem (by decide))
      hne hin
    rcases mem_answer he with he | rfl | rfl | rfl
    · rcases hwithin with hwithin | hwithin
      · exact (x.fields_fresh e he).1 hwithin
      · exact (x.fields_fresh e he).2 hwithin
    · rcases hwithin with hwithin | hwithin
      · exact hshort nonceKey (by simp) hwithin
      · exact hread nonce nonceKey hnonce hwithin
    · rcases hwithin with hwithin | hwithin
      · exact hshort otpKey (by simp) hwithin
      · exact hread otp' otpKey hotp hwithin
    · rcases hwithin with hwithin | hwithin
      · exact hshort statusKey (by simp) hwithin
      · -- a status is written in capitals, a nonce is not
        obtain ⟨c, hc⟩ := List.exists_mem_of_ne_nil _ hne
        have hword := x.verdict_word otp' nonce c (hwithin.subset hc)
        have hhex : ∀ c ∈ hexDigits, ¬ (c.isUpper = true ∨ c = '_') := by simp [hexDigits]
        exact hhex c (hexEncode_chars c hc) hword

/-- In an answer about an otp of one piece, the status is the verdict. -/
theorem verdict_of_status (hamp : '&' ∉ otp') (h : joined (unsigned data) =
      joined (x.answer otp' x.nonce)) (hst : (statusKey, okText) ∈ unsigned data) :
    x.verdict otp' x.nonce = okText := by
  have hverdict : '&' ∉ x.verdict otp' x.nonce := by
    intro hc
    have hword := x.verdict_word _ _ _ hc
    simp at hword
  have hplain : ∀ e ∈ x.answer otp' x.nonce, Plain e := by
    intro e he
    rcases mem_answer he with he | rfl | rfl | rfl
    · exact (x.fields_plain e he).1
    · exact plain_named (by simp) (nonce_notMem (by simp [hexDigits]))
    · exact plain_named (by simp) hamp
    · exact plain_named (by simp) hverdict
  have hmem := render_mem_splitOn hst plain_ok
  rw [h, splitOn_joined hplain (List.ne_nil_of_mem otp_mem_answer)] at hmem
  obtain ⟨e, he, hrender⟩ := List.mem_map.mp hmem
  obtain rfl := render_inj (hplain e he).1 plain_ok.1 hrender
  rcases mem_answer he with he | heq | heq | heq
  · exact absurd (x.fields_plain _ he).2 (by simp)
  · exact absurd (congrArg Prod.fst heq) (ne_of_gt (names_lt.2.2.1.trans names_lt.2.2.2))
  · exact absurd (congrArg Prod.fst heq) (ne_of_gt names_lt.2.2.2)
  · exact (congrArg Prod.snd heq).symm

/-- A request that is taken for a response has the status in its otp. -/
theorem carriesStatus_of_request (h : joined (unsigned data) = x.request otp)
    (hst : (statusKey, okText) ∈ unsigned data) : CarriesStatus otp := by
  have hbreak : '\n' ∉ x.request otp := by
    rw [← h]
    exact notMem_joined (by decide) fun e he => (unsigned_entry he).2
  obtain ⟨es, es', hitems⟩ := List.append_of_mem hst
  obtain ⟨l, l', hsplit, hjoin⟩ := splitOn_joined_append es es' plain_ok
  obtain ⟨first, rest, hfirst⟩ := List.exists_cons_of_ne_nil (List.splitOn_ne_nil '&' otp)
  rw [← hitems, h, splitOn_request hfirst] at hsplit
  have hne : ∀ key ∈ [hKey, idKey, nonceKey, otpKey, statusKey], ∀ v : Text, key < statusKey →
      render (key, v) ≠ render (statusKey, okText) := by
    intro key hkey v hlt hrender
    have heq := render_inj (e := (key, v)) (names_word key hkey).2.1 plain_ok.1 hrender
    exact ne_of_lt hlt (congrArg Prod.fst heq)
  have hotp := hne otpKey (by simp) first names_lt.2.2.2
  have hnonce := hne nonceKey (by simp) x.nonce (names_lt.2.2.1.trans names_lt.2.2.2)
  have hid := hne idKey (by simp) (Nat.toDigits 10 x.config.clientId)
    (names_lt.2.1.trans (names_lt.2.2.1.trans names_lt.2.2.2))
  have hrest : ∃ l₃, rest = l₃ ++ render (statusKey, okText) :: l' := by
    match l with
    | [] => exact absurd (List.cons.inj hsplit).1 hid
    | [_] => exact absurd (List.cons.inj (List.cons.inj hsplit).2).1 hnonce
    | [_, _] => exact absurd (List.cons.inj (List.cons.inj (List.cons.inj hsplit).2).2).1 hotp
    | _ :: _ :: _ :: l₃ => exact ⟨l₃, (List.cons.inj (List.cons.inj (List.cons.inj hsplit).2).2).2⟩
  obtain ⟨l₃, rfl⟩ := hrest
  have hsorted := unsigned_sorted data
  rw [hitems] at hsorted
  refine ⟨?_, ['&'].intercalate (first :: l₃), es', ?_, ?_, ?_⟩
  · intro hin
    refine hbreak ?_
    simp [Exchange.request, requestText, joined, render, List.intercalate_cons_of_ne_nil, hin]
  · have hotp' : otp = ['&'].intercalate ((first :: l₃) ++ render (statusKey, okText) :: l') := by
      rw [List.cons_append, ← hfirst, List.intercalate_splitOn]
    rw [hotp', intercalate_append (by simp) (by simp), hjoin]
    simp [appended]
  · exact (List.pairwise_append.mp hsorted).2.1
  · intro e he
    have hmem : e ∈ unsigned data := by
      rw [hitems]
      exact List.mem_append_right _ (List.mem_cons_of_mem _ he)
    exact (unsigned_entry hmem).1

variable [DecidableEq Tag]

/-- An otp that neither adds parameters nor carries the status is bound. -/
theorem bindsOtp_of (hadds : ¬ AddsParameters reader otp) (hcarries : ¬ CarriesStatus otp) :
    BindsOtp hmac reader otp := by
  intro x network hothers hgenuine hok
  unfold verifyOtp at hok
  simp only at hok
  split at hok
  · cases hok
  · cases hok
  · rename_i data hdata
    obtain ⟨signature, hsig, htag, hn, hst⟩ := verifyResponse_ok.mp hok
    have hn := (unsigned_sorted data).lookup_eq_some.mp hn
    have hst := (unsigned_sorted data).lookup_eq_some.mp hst
    have hnonce : x.nonce <:+: joined (unsigned data) := (parts_infix_joined hn).2
    have hsigned := hgenuine _ data hdata signature hsig htag
    generalize htext : joined (unsigned data) = text at hsigned
    cases hsigned with
    | request => exact absurd (carriesStatus_of_request htext hst) hcarries
    | other _ hother => exact absurd (htext ▸ hnonce) (hothers _ hother)
    | answer otp' nonce haccepts hotp' hnonce' =>
      have hrequest := parameters_of_answer hothers haccepts hotp' hnonce' (htext ▸ hnonce)
      obtain ⟨first, es, hparams, hotp, hhash, hverbatim⟩ := parameters_of_request hrequest
      have hfirst : (x.parameters hmac reader otp).lookup otpKey = some first :=
        parameters_sorted.lookup_eq_some.mpr (by simp [hparams])
      have hown : (x.parameters hmac reader otp).lookup nonceKey = some x.nonce :=
        parameters_sorted.lookup_eq_some.mpr (by simp [hparams])
      obtain rfl := Option.some.inj (hotp'.symm.trans hfirst)
      obtain rfl := Option.some.inj (hnonce'.symm.trans hown)
      have hsorted : Sorted (x.parameters hmac reader otp) := parameters_sorted
      rw [hparams] at hsorted hverbatim
      have hlast : ∀ e ∈ (otpKey, otp') :: es, Verbatim reader.decode e :=
        fun e he => hverbatim e (List.mem_cons_of_mem _ (List.mem_cons_of_mem _ he))
      by_cases hes : es = []
      · subst hes
        have hsame : otp = otp' := by simpa [appended] using hotp
        subst hsame
        have hamp : '&' ∉ otp := (hlast _ List.mem_cons_self).1.2.2
        exact ⟨haccepts, hfirst, hown, verdict_of_status hamp htext hst⟩
      · refine absurd ⟨otp', es, hes, hotp, hhash, ?_, hsorted.of_cons.of_cons, hlast⟩ hadds
        intro hbreak
        have hin : '\n' ∈ joined (unsigned data) :=
          htext ▸ (parts_infix_joined otp_mem_answer).2.subset hbreak
        exact notMem_joined (by decide) (fun e he => (unsigned_entry he).2) hin

/-- The otp of a key has no separators. -/
theorem not_adds_of_notMem (h : '&' ∉ otp) : ¬ AddsParameters reader otp ∧ ¬ CarriesStatus otp := by
  refine ⟨fun hadds => ?_, fun hcarries => ?_⟩
  · obtain ⟨front, es, hes, rfl, -⟩ := hadds
    obtain ⟨e, es, rfl⟩ := List.exists_cons_of_ne_nil hes
    simp [appended] at h
  · obtain ⟨-, front, es, rfl, -⟩ := hcarries
    simp [appended] at h

end binding

section attacks
variable {Tag : Type} {hmac : Hmac Tag} {reader : QueryReader} {x : Exchange} {otp front : Text}
  {es : List Entry} {network : Text → Delivery}

/-- A call on its own, with the nonce that is all zeros. -/
def lone (verdict : Text → Text → Text)
    (h : ∀ otp nonce, ∀ c ∈ verdict otp nonce, c.isUpper = true ∨ c = '_') : Exchange where
  config := ⟨1, by norm_num, by norm_num⟩
  random := Vector.replicate 16 0
  verdict := verdict
  fields := []
  others := []
  verdict_word := h
  fields_plain _ he := absurd he List.not_mem_nil
  fields_fresh _ he := absurd he List.not_mem_nil

theorem lone_fresh {verdict : Text → Text → Text}
    {h : ∀ otp nonce, ∀ c ∈ verdict otp nonce, c.isUpper = true ∨ c = '_'} :
    (lone verdict h).OthersFresh := fun _ ht => absurd ht List.not_mem_nil

/-- The entries of a request before and up to the otp. -/
def requestEntries (x : Exchange) (first : Text) : List Entry :=
  [(idKey, Nat.toDigits 10 x.config.clientId), (nonceKey, x.nonce), (otpKey, first)]

theorem request_append : x.request (front ++ appended es) =
    joined (requestEntries x front ++ es) := by
  rw [joined_append (by simp [requestEntries])]
  exact joined_concat [(idKey, Nat.toDigits 10 x.config.clientId), (nonceKey, x.nonce)] otpKey
    front (appended es)

/-- The names of a request are in alphabetical order, after `h`. -/
theorem requestEntries_sorted (h : Sorted ((otpKey, front) :: es)) (v : Text) :
    Sorted ((hKey, v) :: (requestEntries x front ++ es)) := by
  obtain ⟨hid, hnonce, hotp, -⟩ := names_lt
  exact sorted_cons_cons.mpr ⟨hid, sorted_cons_cons.mpr ⟨hnonce, sorted_cons_cons.mpr ⟨hotp, h⟩⟩⟩

theorem notMem_request {c : Char} (hotp : c ∉ otp) (hdigit : c.isDigit = false)
    (hhex : c ∉ hexDigits)
    (hkeys : c ∉ ['i', 'd', 'n', 'o', 'c', 'e', 't', 'p', '=', '&']) : c ∉ x.request otp := by
  have hid := @clientId_notMem x c hdigit
  have hnonce := @nonce_notMem x c hhex
  simp only [List.mem_cons, List.not_mem_nil, or_false, not_or] at hkeys
  simp [Exchange.request, requestText, joined, render, List.intercalate_cons_of_ne_nil, idKey,
    nonceKey, otpKey, hid, hnonce, hotp, hkeys]

/-- The signature arrives when nothing cuts the request off. -/
theorem sentSignature_request (h : '#' ∉ x.request otp) :
    sentSignature (arrived (signedRequest hmac (x.request otp))) =
      some (hmac.encode (hmac.sign (x.request otp))) := by
  obtain ⟨hamp, hhash, -⟩ := @encode_notMem _ hmac (hmac.sign (x.request otp))
  have harrived : '#' ∉ signedRequest hmac (x.request otp) := by
    simp [signedRequest_eq, render, hKey, h, hhash]
  have hlast : (render (hKey, hmac.encode (hmac.sign (x.request otp)))).splitOn '&' =
      [render (hKey, hmac.encode (hmac.sign (x.request otp)))] :=
    List.splitOn_eq_singleton (by simp [render, hKey, hamp])
  have hpiece : splitPiece (render (hKey, hmac.encode (hmac.sign (x.request otp)))) =
      (hKey, hmac.encode (hmac.sign (x.request otp))) :=
    splitPiece_render (names_word hKey (by simp)).2.1
  rw [arrived_of_notMem harrived, signedRequest_eq, sentSignature,
    List.splitOn_append_cons_self, hlast]
  simp [hpiece]

/-- Words that arrive as they are sent. -/
theorem verbatim_of_word {key v : Text} (heq : '=' ∉ key) (h : ∀ c ∈ key ++ v, c ≠ '&' ∧ c ≠ '%' ∧
    c ≠ '+' ∧ c ≠ '\t' ∧ c ≠ '\n' ∧ c ≠ '\r') : Verbatim reader.decode (key, v) := by
  refine ⟨⟨heq, fun hc => ?_, fun hc => ?_⟩, reader.plain _ fun c hc => ?_,
    reader.plain _ fun c hc => ?_⟩
  · exact (h _ (List.mem_append_left _ hc)).1 rfl
  · exact (h _ (List.mem_append_right _ hc)).1 rfl
  · exact (h c (List.mem_append_left _ hc)).2
  · exact (h c (List.mem_append_right _ hc)).2

theorem requestEntries_verbatim (h : ∀ e ∈ (otpKey, front) :: es, Verbatim reader.decode e) :
    ∀ e ∈ requestEntries x front ++ es, Verbatim reader.decode e := by
  have hid : Verbatim reader.decode (idKey, Nat.toDigits 10 x.config.clientId) := by
    refine verbatim_of_word (by decide) fun c hc => ?_
    rcases List.mem_append.mp hc with hc | hc
    · exact (by simp [idKey] : ∀ c ∈ idKey, c ≠ '&' ∧ c ≠ '%' ∧ c ≠ '+' ∧ c ≠ '\t' ∧ c ≠ '\n' ∧
        c ≠ '\r') c hc
    · have hdigit := Nat.isDigit_of_mem_toDigits (by decide) (by decide) hc
      refine ⟨?_, ?_, ?_, ?_, ?_, ?_⟩ <;> rintro rfl <;> cases hdigit
  have hnonce : Verbatim reader.decode (nonceKey, x.nonce) := by
    refine verbatim_of_word (by decide) fun c hc => ?_
    rcases List.mem_append.mp hc with hc | hc
    · exact (by simp [nonceKey] : ∀ c ∈ nonceKey, c ≠ '&' ∧ c ≠ '%' ∧ c ≠ '+' ∧ c ≠ '\t' ∧ c ≠ '\n' ∧
        c ≠ '\r') c hc
    · exact (by simp [hexDigits] : ∀ c ∈ hexDigits, c ≠ '&' ∧ c ≠ '%' ∧ c ≠ '+' ∧ c ≠ '\t' ∧
        c ≠ '\n' ∧ c ≠ '\r') c (hexEncode_chars c hc)
  intro e he
  rcases List.mem_cons.mp he with rfl | he
  · exact hid
  · rcases List.mem_cons.mp he with rfl | he
    · exact hnonce
    · exact h e he

/-- The server takes the parameters of an otp that adds some. -/
theorem accepts_added (hsorted : Sorted ((otpKey, front) :: es))
    (hverbatim : ∀ e ∈ (otpKey, front) :: es, Verbatim reader.decode e)
    (hhash : '#' ∉ front ++ appended es) :
    x.parameters hmac reader (front ++ appended es) = requestEntries x front ++ es ∧
      x.Accepts hmac reader (front ++ appended es) := by
  have hrequest : '#' ∉ x.request (front ++ appended es) :=
    notMem_request hhash (by decide) (by decide) (by decide)
  have hentries := requestEntries_sorted (x := x) hsorted []
  obtain ⟨hfirst, hentries⟩ := List.pairwise_cons.mp hentries
  have hparams : x.parameters hmac reader (front ++ appended es) =
      requestEntries x front ++ es := by
    rw [parameters_eq hrequest, request_append]
    exact read_joined hentries (by simp [requestEntries]) (requestEntries_verbatim hverbatim)
      fun e he => (ne_of_lt (hfirst e he)).symm
  refine ⟨hparams, ?_, ?_⟩
  · rw [hparams, ← request_append]
    exact sentSignature_request hrequest
  · rw [hparams, ← request_append]
    exact List.mem_cons_self

variable [DecidableEq Tag]

/-- Delivering a response that was signed, in the order of its names. -/
theorem verifyOtp_responseText (hs : Sorted ((hKey, []) :: es))
    (he : ∀ e ∈ es, '=' ∉ e.1 ∧ '\n' ∉ render e) (hn : (nonceKey, x.nonce) ∈ es)
    (hst : (statusKey, okText) ∈ es) (hsigned : x.Signed hmac reader otp (joined es)) :
    x.Genuine hmac reader otp (responseText hmac es) ∧
      verifyOtp hmac x.config (some x.random) (fun _ => .text (responseText hmac es)) otp =
        .ok okText := by
  obtain ⟨hfirst, hs⟩ := List.pairwise_cons.mp hs
  have hh : hKey ∉ es.map Prod.fst := by
    intro hmem
    obtain ⟨e, hmem, heq⟩ := List.mem_map.mp hmem
    exact absurd heq.symm (ne_of_lt (hfirst e hmem))
  obtain ⟨hunsigned, hok⟩ := @verifyResponse_responseText _ _ hmac _ _ _ hs he hh hn hst
  refine ⟨fun signature _ _ => ?_, hok⟩
  rw [hunsigned]
  exact hsigned

/-- A call on its own to a server that takes every otp. -/
def trusting : Exchange := lone (fun _ _ => okText) (by simp [okText])

/-- The server validates an otp up to the parameters it adds, and its answer is taken. -/
theorem trusting_answers (hsorted : Sorted ((otpKey, front) :: es))
    (hverbatim : ∀ e ∈ (otpKey, front) :: es, Verbatim reader.decode e)
    (hhash : '#' ∉ front ++ appended es) (hbreak : '\n' ∉ front) :
    (trusting.parameters hmac reader (front ++ appended es)).lookup otpKey = some front ∧
      ∃ data, trusting.Genuine hmac reader (front ++ appended es) data ∧
        verifyOtp hmac trusting.config (some trusting.random) (fun _ => .text data)
          (front ++ appended es) = .ok okText := by
  obtain ⟨hparams, haccepts⟩ := @accepts_added _ hmac reader trusting _ _ hsorted hverbatim hhash
  have hfirst : (trusting.parameters hmac reader (front ++ appended es)).lookup otpKey = some front :=
    parameters_sorted.lookup_eq_some.mpr (by simp [hparams, requestEntries])
  have hown : (trusting.parameters hmac reader (front ++ appended es)).lookup nonceKey =
      some trusting.nonce :=
    parameters_sorted.lookup_eq_some.mpr (by simp [hparams, requestEntries])
  have hlines : Sorted [(hKey, []), (nonceKey, trusting.nonce), (otpKey, front),
      (statusKey, okText)] := by
    obtain ⟨hid, hnonce, hotp, hstatus⟩ := names_lt
    exact sorted_cons_cons.mpr ⟨hid.trans hnonce, sorted_cons_cons.mpr ⟨hotp,
      sorted_cons_cons.mpr ⟨hstatus, List.pairwise_singleton _ _⟩⟩⟩
  have hanswer : trusting.answer front trusting.nonce =
      [(nonceKey, trusting.nonce), (otpKey, front), (statusKey, okText)] :=
    ofEntries_of_sorted hlines.of_cons
  have hsigned := Exchange.Signed.answer front trusting.nonce haccepts hfirst hown
  rw [hanswer] at hsigned
  have hnonce : '\n' ∉ trusting.nonce := nonce_notMem (by decide)
  have hchars : ∀ e ∈ [(nonceKey, trusting.nonce), (otpKey, front), (statusKey, okText)],
      '=' ∉ e.1 ∧ '\n' ∉ render e := by
    simp [render, nonceKey, otpKey, statusKey, okText, hnonce, hbreak]
  exact ⟨hfirst, _, verifyOtp_responseText hlines hchars (by simp) (by simp) hsigned⟩

/-- The server validates the shorter otp. -/
theorem not_bindsOtp_of_adds (h : AddsParameters reader otp) : ¬ BindsOtp hmac reader otp := by
  obtain ⟨front, es, hes, rfl, hhash, hbreak, hsorted, hverbatim⟩ := h
  obtain ⟨hfirst, data, hgenuine, hok⟩ :=
    @trusting_answers _ hmac reader _ _ _ hsorted hverbatim hhash hbreak
  intro hbinds
  have hvalidated := hbinds trusting _ lone_fresh
    (fun url data hdata => Delivery.text.inj hdata ▸ hgenuine) hok
  -- the server has read the part before the parameters
  have hsame := Option.some.inj (hfirst.symm.trans hvalidated.otp_read)
  cases es with
  | nil => exact hes rfl
  | cons e es => simp [appended] at hsame

/-- The request comes back as the response, whatever the server says. -/
theorem not_bindsOtp_of_carries (h : CarriesStatus otp) : ¬ BindsOtp hmac reader otp := by
  obtain ⟨hbreak, front, es, rfl, hsorted, hkeys⟩ := h
  let x := lone (fun _ _ => ['B', 'A', 'D', '_', 'O', 'T', 'P']) (by simp)
  have hotp : Sorted ((otpKey, front) :: (statusKey, okText) :: es) :=
    sorted_cons_cons.mpr ⟨names_lt.2.2.2, hsorted⟩
  have hlines := @requestEntries_sorted x _ _ hotp []
  have hsigned : x.Signed hmac reader (front ++ appended ((statusKey, okText) :: es))
      (joined (requestEntries x front ++ (statusKey, okText) :: es)) :=
    request_append ▸ Exchange.Signed.request
  have hrequest : '\n' ∉ joined (requestEntries x front ++ (statusKey, okText) :: es) := by
    rw [← request_append]
    exact notMem_request hbreak (by decide) (by decide) (by decide)
  have hchars : ∀ e ∈ requestEntries x front ++ (statusKey, okText) :: es,
      '=' ∉ e.1 ∧ '\n' ∉ render e := by
    intro e he
    refine ⟨?_, fun hc => hrequest ((render_infix_joined he).subset hc)⟩
    simp only [requestEntries, List.cons_append, List.nil_append, List.mem_cons] at he
    rcases he with rfl | rfl | rfl | rfl | he
    · exact (names_word idKey (by simp)).2.1
    · exact (names_word nonceKey (by simp)).2.1
    · exact (names_word otpKey (by simp)).2.1
    · exact (names_word statusKey (by simp)).2.1
    · exact hkeys e he
  obtain ⟨hgenuine, hok⟩ := verifyOtp_responseText hlines hchars (by simp [requestEntries])
    (by simp) hsigned
  intro hbinds
  have hvalidated := hbinds x _ lone_fresh
    (fun url data hdata => Delivery.text.inj hdata ▸ hgenuine) hok
  cases hvalidated.verdict_ok

/-- The status and the nonce that the otp of another call brings. -/
def forgedOtp (x : Exchange) : Text := ['x'] ++ appended [(nonceKey, x.nonce), (statusKey, okText)]

/-- A call beside one whose otp spells its nonce. -/
def crowded : Exchange :=
  let x := lone (fun _ _ => ['B', 'A', 'D', '_', 'O', 'T', 'P']) (by simp)
  { x with others := [requestText x.config.clientId (hexEncode (List.replicate 16 1)) (forgedOtp x)] }

/-- Without that assumption no otp at all is bound: the request of another call, sent back in three
lines, is taken for an answer. -/
theorem crowded_ok (hmac : Hmac Tag) (reader : QueryReader) (otp : Text) :
    ∃ data, crowded.Genuine hmac reader otp data ∧
      verifyOtp hmac crowded.config (some crowded.random) (fun _ => .text data) otp = .ok okText ∧
      ¬ crowded.Validated hmac reader otp := by
  have hlines : Sorted [(hKey, []), (idKey, "1&nonce=01010101010101010101010101010101&otp=x".toList),
      (nonceKey, crowded.nonce), (statusKey, okText)] := by
    obtain ⟨hid, hnonce, hotp, hstatus⟩ := names_lt
    exact sorted_cons_cons.mpr ⟨hid, sorted_cons_cons.mpr ⟨hnonce,
      sorted_cons_cons.mpr ⟨hotp.trans hstatus, List.pairwise_singleton _ _⟩⟩⟩
  have hsigned : crowded.Signed hmac reader otp (joined [
      (idKey, "1&nonce=01010101010101010101010101010101&otp=x".toList), (nonceKey, crowded.nonce),
      (statusKey, okText)]) := by
    refine .other _ ?_
    decide
  have hchars : ∀ e ∈ [(idKey, "1&nonce=01010101010101010101010101010101&otp=x".toList),
      (nonceKey, crowded.nonce), (statusKey, okText)], '=' ∉ e.1 ∧ '\n' ∉ render e := by
    decide
  obtain ⟨hgenuine, hok⟩ := verifyOtp_responseText hlines hchars (by simp) (by simp) hsigned
  exact ⟨_, hgenuine, hok, fun hvalidated => by cases hvalidated.verdict_ok⟩

/-- As long as no other call has signed the nonce, `OK` binds the otp exactly when it neither adds
parameters nor carries the status. -/
theorem bindsOtp_iff (hmac : Hmac Tag) (reader : QueryReader) (otp : Text) :
    BindsOtp hmac reader otp ↔ ¬ AddsParameters reader otp ∧ ¬ CarriesStatus otp := by
  constructor
  · intro h
    exact ⟨fun hadds => not_bindsOtp_of_adds hadds h,
      fun hcarries => not_bindsOtp_of_carries hcarries h⟩
  · intro h
    exact bindsOtp_of h.1 h.2

end attacks

section run

/-- One bit after the other for each character, and no secret. -/
def plainHmac : Hmac (List Bool) where
  sign t := t.flatMap fun c => List.replicate c.toNat true ++ [false]
  encode tag := tag.map fun bit => if bit then 'B' else 'A'
  decode t := some (t.map (· == 'B'))
  decode_encode tag := by
    have hbit : ∀ bit : Bool, ((if bit then 'B' else 'A') == 'B') = bit := by decide
    simp [Function.comp_def, hbit]
  encode_alphabet tag c hc := by
    obtain ⟨bit, -, rfl⟩ := List.mem_map.mp hc
    cases bit <;> decide

def plainReader : QueryReader where
  decode s := s.map plus
  shortens _ := Or.inl rfl
  plain _ hs := map_plus_of_notMem fun h => (hs _ h).2.1 rfl

/-- The otp of a key comes back validated. -/
theorem plain_otp_validated :
    ∃ data, trusting.Genuine plainHmac plainReader ['c', 'c', 'c', 'c'] data ∧
      verifyOtp plainHmac trusting.config (some trusting.random) (fun _ => .text data)
        ['c', 'c', 'c', 'c'] = .ok okText ∧
      trusting.Validated plainHmac plainReader ['c', 'c', 'c', 'c'] := by
  have hverbatim : ∀ e ∈ [(otpKey, ['c', 'c', 'c', 'c'])], Verbatim plainReader.decode e := by
    intro e he
    obtain rfl := List.mem_singleton.mp he
    exact ⟨⟨by decide, by decide, by decide⟩, rfl, rfl⟩
  obtain ⟨-, data, hgenuine, hok⟩ := @trusting_answers _ plainHmac plainReader _ [] _
    (List.pairwise_singleton _ _) hverbatim (by decide) (by decide)
  have hbinds := (bindsOtp_iff plainHmac plainReader ['c', 'c', 'c', 'c']).mpr
    (not_adds_of_notMem (by decide))
  exact ⟨data, hgenuine, hok, hbinds trusting _ lone_fresh
    (fun url _ hdata => Delivery.text.inj hdata ▸ hgenuine) hok⟩

/-- `cccc&timestamp=1` is validated as `cccc`, `&status=OK` by no one. -/
theorem separators_break_binding :
    ¬ BindsOtp plainHmac plainReader
        ['c', 'c', 'c', 'c', '&', 't', 'i', 'm', 'e', 's', 't', 'a', 'm', 'p', '=', '1'] ∧
      ¬ BindsOtp plainHmac plainReader ['&', 's', 't', 'a', 't', 'u', 's', '=', 'O', 'K'] := by
  refine ⟨not_bindsOtp_of_adds ⟨['c', 'c', 'c', 'c'],
    [(['t', 'i', 'm', 'e', 's', 't', 'a', 'm', 'p'], ['1'])], by simp, rfl, by decide, by decide,
    ?_, ?_⟩, not_bindsOtp_of_carries ⟨by decide, [], [], rfl, ?_, by simp⟩⟩
  · refine List.pairwise_cons.mpr ⟨?_, List.pairwise_singleton _ _⟩
    intro e he
    obtain rfl := List.mem_singleton.mp he
    decide
  · intro e he
    rcases List.mem_cons.mp he with rfl | he
    · exact ⟨⟨by decide, by decide, by decide⟩, rfl, rfl⟩
    · obtain rfl := List.mem_singleton.mp he
      exact ⟨⟨by decide, by decide, by decide⟩, rfl, rfl⟩
  · exact List.pairwise_singleton _ _

end run

end PlaidRuntime.YubikeyOtp
