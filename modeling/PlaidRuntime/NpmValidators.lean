import PlaidRuntime.Fallible
import PlaidRuntime.RegexPattern

/-!
# Validators of the npm API

The validators of `apis/npm/validators.rs` that the specification of a granular token goes through,
and what the one for the allowed addresses accepts.
-/
namespace PlaidRuntime.NpmValidators
open Fallible RegexPattern Pattern

inductive NpmError where
  | invalidInput (value : String)
  | failedToRetrievePaginatedData
  | throttlingError (retryAfter : Option ℕ)
  | unexpectedStatusCode (status : ℕ)
  deriving DecidableEq, Repr

inductive ApiError where
  | impossibleError
  | npmError (e : NpmError)
  deriving DecidableEq, Repr

/-- `[a-b]`. -/
def range (a b : Char) : Pattern Char := cls fun c => decide (a ≤ c) && decide (c ≤ b)

/-- `.`, which takes every character but a line feed. -/
def dot : Pattern Char := cls fun c => decide (c ≠ '\n')

def isLowerOrDigit (c : Char) : Bool := c.isLower || c.isDigit

/-- `25[0-5]|2[0-4][0-9]|1[0-9]{2}|[1-9]?[0-9]`. -/
def octet : Pattern Char :=
  alt (seq (word ['2', '5']) (range '0' '5'))
    (alt (seq (word ['2']) (seq (range '0' '4') (range '0' '9')))
      (alt (seq (word ['1']) (times 2 (range '0' '9')))
        (seq (opt (range '1' '9')) (range '0' '9'))))

def ipv4 : Pattern Char := seq (times 3 (seq octet dot)) octet

/-- `[a-z0-9]+(-[a-z0-9]+)*`. -/
def npmOrgName : Pattern Char :=
  seq (plus (cls isLowerOrDigit)) (star (seq (word ['-']) (plus (cls isLowerOrDigit))))

def npmAtOrgName : Pattern Char := seq (word ['@']) npmOrgName

/-- `[a-z0-9-_]+(?:\.[a-z0-9-_]+)*`. -/
def npmPackageName : Pattern Char :=
  let part := plus (cls fun c => isLowerOrDigit c || c = '-' || c = '_')
  seq part (star (seq (word ['.']) part))

def npmScopedPackage : Pattern Char := seq npmAtOrgName (seq (word ['/']) npmPackageName)

def npmTokenName : Pattern Char :=
  plus (cls fun c => isLowerOrDigit c || c = '.' || c = '_' || c = '-')

/-- The patterns, all of them for the whole text, by their names. -/
def createValidators : List (String × Pattern Char) :=
  [("npm_package_name", npmPackageName), ("ipv4", ipv4), ("npm_org_name", npmOrgName),
    ("npm_at_org_name", npmAtOrgName), ("npm_scoped_package", npmScopedPackage),
    ("npm_token_name", npmTokenName)]

/-- The function that `create_regex_validator_func` makes for a validator. -/
def validate (validator value : String) : Except ApiError String :=
  match createValidators.lookup validator with
  | none => .error .impossibleError
  | some pattern =>
    if pattern.fullMatch value.toList then .ok value else .error (.npmError (.invalidInput value))

def validateIpv4 : String → Except ApiError String := validate "ipv4"

def validateNpmOrgName : String → Except ApiError String := validate "npm_org_name"

def validateNpmAtOrgName : String → Except ApiError String := validate "npm_at_org_name"

def validateNpmScopedPackage : String → Except ApiError String := validate "npm_scoped_package"

def validateNpmTokenName : String → Except ApiError String := validate "npm_token_name"

/-- The fields that are looked at. -/
structure GranularTokenSpecs where
  allowedIpRanges : Option (List String)
  selectedOrgs : Option (List String)
  selectedPackages : Option (List String)
  selectedScopes : Option (List String)
  tokenName : String
  tokenDescription : String

/-- `try_for_each` over a list that may be missing. -/
def tryForEach (check : String → Except ApiError String) : Option (List String) → Except ApiError Unit
  | none => .ok ()
  | some values => values.forM fun v => (check v).map fun _ => ()

def validateGranularTokenSpecs (specs : GranularTokenSpecs) : Except ApiError GranularTokenSpecs := do
  tryForEach validateIpv4 specs.allowedIpRanges
  tryForEach validateNpmOrgName specs.selectedOrgs
  tryForEach validateNpmScopedPackage specs.selectedPackages
  tryForEach validateNpmAtOrgName specs.selectedScopes
  let _ ← validateNpmTokenName specs.tokenName
  if specs.tokenDescription.utf8ByteSize < 8 then
    throw (.npmError (.invalidInput specs.tokenDescription))
  return specs

/-- A number as it is written without superfluous zeros. -/
def decimal (n : ℕ) : List Char := Nat.toDigits 10 n

/-- Four numbers up to 255 with these characters between them. -/
def IsQuad (x y z : Char) (s : String) : Prop :=
  ∃ a b c d, (a ≤ 255 ∧ b ≤ 255 ∧ c ≤ 255 ∧ d ≤ 255) ∧
    s.toList = decimal a ++ x :: decimal b ++ y :: decimal c ++ z :: decimal d

def DottedQuad : String → Prop := IsQuad '.' '.' '.'

/-- Four numbers with single characters between them, none of which is a line feed. -/
def Quad (s : String) : Prop := ∃ x y z, (x ≠ '\n' ∧ y ≠ '\n' ∧ z ≠ '\n') ∧ IsQuad x y z s

section octets

theorem mem_range {a b : Char} {w : List Char} :
    w ∈ (range a b).lang ↔ ∃ c, (a ≤ c ∧ c ≤ b) ∧ w = [c] := by
  simp [range, mem_cls]

/-- The digits from one to another. -/
theorem digit_of_le {c : Char} {lo hi : Fin 10} (hlo : Nat.digitChar lo ≤ c)
    (hhi : c ≤ Nat.digitChar hi) : ∃ d : Fin 10, lo ≤ d ∧ d ≤ hi ∧ c = Nat.digitChar d := by
  have hval : ∀ d : Fin 10, (Nat.digitChar d).toNat = 48 + d := by decide
  have hlo' : 48 + (lo : ℕ) ≤ c.toNat := by
    rw [← hval]
    exact hlo
  have hhi' : c.toNat ≤ 48 + (hi : ℕ) := by
    rw [← hval]
    exact hhi
  have hd : c.toNat - 48 < 10 := by omega
  refine ⟨⟨c.toNat - 48, hd⟩, ?_, ?_, ?_⟩
  · rw [Fin.le_def]
    simp only
    omega
  · rw [Fin.le_def]
    simp only
    omega
  · apply Char.toNat_inj.mp
    rw [hval]
    simp only
    omega

theorem decimal_mem_octet : ∀ n : Fin 256, octet.fullMatch (decimal n) = true := by
  decide +kernel

theorem decimal_one : ∀ c : Fin 10, decimal c = [Nat.digitChar c] := by
  decide

theorem decimal_two : ∀ b c : Fin 10, 1 ≤ b →
    decimal (10 * b + c) = [Nat.digitChar b, Nat.digitChar c] := by
  decide

theorem decimal_three : ∀ b c : Fin 10,
    decimal (100 + (10 * b + c)) = ['1', Nat.digitChar b, Nat.digitChar c] ∧
      decimal (200 + (10 * b + c)) = ['2', Nat.digitChar b, Nat.digitChar c] := by
  decide

theorem mem_two_digits {w : List Char} (h : w ∈ (times 2 (range '0' '9')).lang) :
    ∃ b c : Fin 10, w = [Nat.digitChar b, Nat.digitChar c] := by
  obtain ⟨hlength, hdigits⟩ := mem_times_cls.mp h
  obtain ⟨x, y, rfl⟩ := List.length_eq_two.mp hlength
  have hrange : ∀ a ∈ [x, y], '0' ≤ a ∧ a ≤ '9' := by simpa using hdigits
  have hx := hrange x (by simp)
  have hy := hrange y (by simp)
  obtain ⟨b, -, -, rfl⟩ := @digit_of_le x 0 9 hx.1 hx.2
  obtain ⟨c, -, -, rfl⟩ := @digit_of_le y 0 9 hy.1 hy.2
  exact ⟨b, c, rfl⟩

/-- What is matched are the numbers up to 255, as they are written. -/
theorem mem_octet {w : List Char} : w ∈ octet.lang ↔ ∃ n ≤ 255, w = decimal n := by
  constructor
  · rw [octet, mem_alt, mem_alt, mem_alt]
    simp only [mem_seq, mem_word, mem_range]
    rintro (⟨_, rfl, _, ⟨c, hc, rfl⟩, rfl⟩ | ⟨_, rfl, _, ⟨_, ⟨b, hb, rfl⟩, _, ⟨c, hc, rfl⟩, rfl⟩, rfl⟩ |
      ⟨_, rfl, v, hv, rfl⟩ | ⟨u, hu, _, ⟨c, hc, rfl⟩, rfl⟩)
    · obtain ⟨c, -, hle, rfl⟩ := @digit_of_le c 0 5 hc.1 hc.2
      have hle : (c : ℕ) ≤ 5 := hle
      exact ⟨200 + (10 * (5 : Fin 10) + c), by omega, (decimal_three 5 c).2.symm⟩
    · obtain ⟨b, -, hle, rfl⟩ := @digit_of_le b 0 4 hb.1 hb.2
      obtain ⟨c, -, -, rfl⟩ := @digit_of_le c 0 9 hc.1 hc.2
      have hle : (b : ℕ) ≤ 4 := hle
      exact ⟨200 + (10 * b + c), by omega, (decimal_three b c).2.symm⟩
    · obtain ⟨b, c, rfl⟩ := mem_two_digits hv
      exact ⟨100 + (10 * b + c), by omega, (decimal_three b c).1.symm⟩
    · obtain ⟨c, -, -, rfl⟩ := @digit_of_le c 0 9 hc.1 hc.2
      rw [opt, mem_alt, mem_eps, mem_range] at hu
      rcases hu with ⟨b, hb, rfl⟩ | rfl
      · obtain ⟨b, hge, -, rfl⟩ := @digit_of_le b 1 9 hb.1 hb.2
        exact ⟨10 * b + c, by omega, (decimal_two b c hge).symm⟩
      · exact ⟨c, by omega, (decimal_one c).symm⟩
  · rintro ⟨n, hn, rfl⟩
    exact fullMatch_iff.mp (decimal_mem_octet ⟨n, by omega⟩)

end octets

section addresses
variable {s : String} {ips : List String}

/-- A number, a character between and the rest. -/
theorem mem_octet_dot {w : List Char} {r : Pattern Char} : w ∈ (seq (seq octet dot) r).lang ↔
    ∃ n ≤ 255, ∃ x, x ≠ '\n' ∧ ∃ v ∈ r.lang, w = decimal n ++ x :: v := by
  simp only [mem_seq, mem_octet, dot, mem_cls, decide_eq_true_eq]
  constructor
  · rintro ⟨_, ⟨_, ⟨n, hn, rfl⟩, _, ⟨x, hx, rfl⟩, rfl⟩, v, hv, rfl⟩
    exact ⟨n, hn, x, hx, v, hv, by simp⟩
  · rintro ⟨n, hn, x, hx, v, hv, rfl⟩
    exact ⟨decimal n ++ [x], ⟨_, ⟨n, hn, rfl⟩, _, ⟨x, hx, rfl⟩, rfl⟩, v, hv, by simp⟩

/-- The dots of the expression are not escaped: they stand for any character. -/
theorem ipv4_fullMatch : ipv4.fullMatch s.toList = true ↔ Quad s := by
  rw [fullMatch_iff, ipv4, mem_seq, times, times, times, times]
  constructor
  · rintro ⟨u, hu, v, hv, h⟩
    obtain ⟨a, ha, x, hx, u', hu', rfl⟩ := mem_octet_dot.mp hu
    obtain ⟨b, hb, y, hy, u'', hu'', rfl⟩ := mem_octet_dot.mp hu'
    obtain ⟨c, hc, z, hz, w, hw, rfl⟩ := mem_octet_dot.mp hu''
    obtain rfl := mem_eps.mp hw
    obtain ⟨d, hd, rfl⟩ := mem_octet.mp hv
    exact ⟨x, y, z, ⟨hx, hy, hz⟩, a, b, c, d, ⟨ha, hb, hc, hd⟩, by simp [← h]⟩
  · rintro ⟨x, y, z, ⟨hx, hy, hz⟩, a, b, c, d, ⟨ha, hb, hc, hd⟩, h⟩
    have hlast := mem_octet_dot.mpr ⟨c, hc, z, hz, [], mem_eps.mpr rfl, rfl⟩
    have hlast := mem_octet_dot.mpr ⟨b, hb, y, hy, _, hlast, rfl⟩
    have hfirst := mem_octet_dot.mpr ⟨a, ha, x, hx, _, hlast, rfl⟩
    exact ⟨_, hfirst, decimal d, mem_octet.mpr ⟨d, hd, rfl⟩, by simp [h]⟩

theorem validateIpv4_ok : (validateIpv4 s).map (fun _ => ()) = .ok () ↔
    ipv4.fullMatch s.toList = true := by
  have hlookup : createValidators.lookup "ipv4" = some ipv4 := rfl
  rw [validateIpv4, validate, hlookup]
  by_cases h : ipv4.fullMatch s.toList = true
  · simp [h, Except.map]
  · simp [h, Except.map]

/-- Every address passes on its own. -/
theorem tryForEach_ipv4 : tryForEach validateIpv4 (some ips) = .ok () ↔ ∀ s ∈ ips, Quad s := by
  simp only [tryForEach, forM_ok, validateIpv4_ok, ipv4_fullMatch]

theorem count_dot_decimal (n : ℕ) : (decimal n).count '.' = 0 := by
  rw [List.count_eq_zero]
  intro h
  have hdigit : Char.isDigit '.' = true := Nat.isDigit_of_mem_toDigits (by decide) (by decide) h
  exact absurd hdigit (by decide)

/-- A quad is dotted when it has three dots. -/
theorem dottedQuad_iff : DottedQuad s ↔ Quad s ∧ s.toList.count '.' = 3 := by
  constructor
  · intro h
    refine ⟨⟨'.', '.', '.', by decide, h⟩, ?_⟩
    obtain ⟨a, b, c, d, -, hs⟩ := h
    simp [hs, count_dot_decimal]
  · rintro ⟨⟨x, y, z, -, a, b, c, d, hle, hs⟩, hcount⟩
    rw [hs] at hcount
    simp only [List.count_append, List.count_cons, count_dot_decimal] at hcount
    have hdots : x = '.' ∧ y = '.' ∧ z = '.' := by
      by_cases hx : x = '.' <;> by_cases hy : y = '.' <;> by_cases hz : z = '.' <;> simp_all
    obtain ⟨rfl, rfl, rfl⟩ := hdots
    exact ⟨a, b, c, d, hle, hs⟩

end addresses

/-- The specification of a token is accepted when each of its fields is. -/
theorem validateGranularTokenSpecs_ok {specs : GranularTokenSpecs} :
    validateGranularTokenSpecs specs = .ok specs ↔
      tryForEach validateIpv4 specs.allowedIpRanges = .ok () ∧
      tryForEach validateNpmOrgName specs.selectedOrgs = .ok () ∧
      tryForEach validateNpmScopedPackage specs.selectedPackages = .ok () ∧
      tryForEach validateNpmAtOrgName specs.selectedScopes = .ok () ∧
      (∃ name, validateNpmTokenName specs.tokenName = .ok name) ∧
      8 ≤ specs.tokenDescription.utf8ByteSize := by
  simp only [validateGranularTokenSpecs, bind_ok]
  constructor
  · rintro ⟨_, hips, _, horgs, _, hpackages, _, hscopes, name, hname, h⟩
    refine ⟨hips, horgs, hpackages, hscopes, ⟨name, hname⟩, ?_⟩
    by_contra hlt
    rw [if_pos (by omega)] at h
    cases h
  · rintro ⟨hips, horgs, hpackages, hscopes, ⟨name, hname⟩, hlength⟩
    refine ⟨(), hips, (), horgs, (), hpackages, (), hscopes, name, hname, ?_⟩
    rw [if_neg (by omega)]
    rfl

/-- The addresses of a list are validated as dotted quads just when some string is no quad at all or
every string has three dots. -/
theorem addresses_validated_iff (ips : List String) :
    (tryForEach validateIpv4 (some ips) = .ok () ↔ ∀ s ∈ ips, DottedQuad s) ↔
      (∃ s ∈ ips, ¬ Quad s) ∨ ∀ s ∈ ips, s.toList.count '.' = 3 := by
  simp only [tryForEach_ipv4, dottedQuad_iff]
  constructor
  · intro h
    by_cases hquads : ∀ s ∈ ips, Quad s
    · exact Or.inr fun s hs => (h.mp hquads s hs).2
    · push Not at hquads
      exact Or.inl hquads
  · rintro (⟨s, hs, hnone⟩ | hdots)
    · exact iff_of_false (fun h => hnone (h s hs)) fun h => hnone (h s hs).1
    · exact ⟨fun h s hs => ⟨h s hs, hdots s hs⟩, fun h s hs => (h s hs).1⟩

/-- Four numbers without a dot between them pass. -/
theorem undotted_address_passes : ¬ ∀ ips : List String,
    (tryForEach validateIpv4 (some ips) = .ok () ↔ ∀ s ∈ ips, DottedQuad s) := by
  intro h
  have hquad : Quad "10a20b30c40" :=
    ⟨'a', 'b', 'c', by decide, 10, 20, 30, 40, by decide, by decide⟩
  have hdotted := (h ["10a20b30c40"]).mp (tryForEach_ipv4.mpr (by simpa using hquad))
  obtain ⟨-, hcount⟩ := dottedQuad_iff.mp (hdotted _ List.mem_cons_self)
  exact absurd hcount (by decide)

end PlaidRuntime.NpmValidators
