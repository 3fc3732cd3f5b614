/-
The tenant of a request.

It is a claim of the bearer token.  A token that is missing, that jose refuses or that
lacks a claim is answered with 401, and so is a claim that is the wrong text.  A claim that
is no text raises out of `uuid.UUID` in other ways.
-/
import Sutram.Core.Auth
import Sutram.Core.UuidText
import Sutram.Gateway.Headers

namespace Sutram.Gateway

open Sutram.Core

/-! ## Credentials -/

/-- `HTTPBearer(auto_error=False)`: the credentials of an Authorization header.  They follow
the first space. -/
def bearer (authorization : Option String) : Option String :=
  match authorization with
  | none => none
  | some header =>
    let scheme := String.ofList (header.toList.takeWhile (· ≠ ' '))
    let credentials := String.ofList ((header.toList.dropWhile (· ≠ ' ')).drop 1)
    if scheme = "" ∨ credentials = "" then none
    else if lower scheme ≠ "bearer" then none
    else some credentials

/-! ## The tenant -/

/-- What `uuid.UUID(value)` raises. -/
inductive UuidError where
  | valueError
  | typeError
  | attributeError
deriving DecidableEq

/-- `uuid.UUID(value)` of a JSON value.  Nothing is given when it is `None`, and what is no
string has no method `replace`. -/
def uuidOf (unicode : Uuid.Unicode) : Json → Except UuidError Uuid
  | .str text =>
    match Uuid.ofHex unicode text with
    | some u => .ok u
    | none => .error .valueError
  | .null => .error .typeError
  | .bool _ | .int _ | .float _ | .list _ | .dict _ => .error .attributeError

/-- What `get_tenant_id` may raise. -/
inductive Raised where
  | httpException (statusCode : Nat) (detail : String)
  | keyError
  | uuid (e : UuidError)
deriving DecidableEq

section Auth

variable (jose : Jose) (unicode : Uuid.Unicode) (now : Int) (jwtSecret jwtAlgorithm : String)

/-- `_decode_jwt` -/
def decodeJwt (token secret algorithm : String) : Except AuthError Claims :=
  match jose.decode now token secret algorithm with
  | .ok claims => requireClaims claims
  | .error e => .error (.ofJWTError e)

def getTenantId (authorization : Option String) : Except Raised Uuid :=
  match bearer authorization with
  | none => .error (.httpException 401 "missing_token")
  | some credentials =>
    match decodeJwt jose now credentials jwtSecret jwtAlgorithm with
    | .error e =>
      .error (.httpException 401 (if e.expired then "token_expired" else "invalid_token"))
    | .ok claims =>
      match claims.get? "tenant_id" with
      | none => .error .keyError
      | some value =>
        match uuidOf unicode value with
        | .ok tenantId => .ok tenantId
        | .error .valueError => .error (.httpException 401 "invalid_token")
        | .error e => .error (.uuid e)

/-- The header carries a token that is signed and not expired, and whose claim is a text of
the tenant. -/
structure Authenticates (authorization : Option String) (tenantId : Uuid) (token : String)
    (claims : Claims) : Prop where
  credentials : bearer authorization = some token
  signed : jose.Signed token jwtSecret jwtAlgorithm claims
  unexpired : ∃ exp ∈ claims.get? "exp", ∃ time ∈ jose.expiry exp, now ≤ time
  tenant : ∃ text, claims.get? "tenant_id" = some (.str text) ∧
    Uuid.ofHex unicode text = some tenantId

/-- A tenant that the header authenticates, or a refusal with 401. -/
def Proper (authorization : Option String) : Except Raised Uuid → Prop
  | .ok tenantId => ∃ token claims,
    Authenticates jose unicode now jwtSecret jwtAlgorithm authorization tenantId token claims
  | .error e => ∃ detail, e = .httpException 401 detail

/-! ## Its outcomes -/

variable {jose unicode now jwtSecret jwtAlgorithm}

theorem decodeJwt_eq_ok_iff {token secret algorithm : String} {claims : Claims} :
    decodeJwt jose now token secret algorithm = .ok claims ↔
      jose.decode now token secret algorithm = .ok claims ∧
        (claims.get? "tenant_id").isSome ∧ (claims.get? "exp").isSome := by
  unfold decodeJwt
  cases jose.decode now token secret algorithm with
  | error e => simp
  | ok claims' =>
    simp only [requireClaims_eq_ok_iff, Except.ok.injEq]
    refine and_congr_right ?_
    rintro rfl
    rfl

/-- The shared decoder lets the same tokens through. -/
theorem decodeJwt_ok_iff_shared {repr : Option Json → String} {token : String} {claims : Claims} :
    Core.decodeJwt jose now jwtSecret jwtAlgorithm repr token none = .ok claims ↔
      decodeJwt jose now token jwtSecret jwtAlgorithm = .ok claims := by
  unfold Core.decodeJwt decodeJwt
  cases hdecode : jose.decode now token jwtSecret jwtAlgorithm with
  | ok claims' => simp [jose.alg_of_decode hdecode, hdecode]
  | error e =>
    cases jose.unverifiedAlg token with
    | error e' => simp
    | ok header => by_cases hheader : header = some (.str jwtAlgorithm) <;> simp [hheader, hdecode]

theorem uuidOf_of_ne_str (unicode : Uuid.Unicode) {value : Json} (h : ∀ text, value ≠ .str text) :
    ∃ e, uuidOf unicode value = .error e ∧ e ≠ .valueError := by
  cases value with
  | str text => exact absurd rfl (h text)
  | null => exact ⟨.typeError, rfl, by decide⟩
  | _ => exact ⟨.attributeError, rfl, by decide⟩

/-- A token that lacks a claim, or that jose refuses, is answered with 401. -/
theorem getTenantId_of_error {authorization : Option String} {token : String} {e : AuthError}
    (hbearer : bearer authorization = some token)
    (hdecode : decodeJwt jose now token jwtSecret jwtAlgorithm = .error e) :
    ∃ detail, getTenantId jose unicode now jwtSecret jwtAlgorithm authorization =
      .error (.httpException 401 detail) := by
  simp only [getTenantId, hbearer, hdecode]
  exact ⟨_, rfl⟩

/-- A token that is let through is judged by its claim. -/
theorem getTenantId_of_ok {authorization : Option String} {token : String} {claims : Claims}
    {value : Json} (hbearer : bearer authorization = some token)
    (hdecode : decodeJwt jose now token jwtSecret jwtAlgorithm = .ok claims)
    (hvalue : claims.get? "tenant_id" = some value) :
    getTenantId jose unicode now jwtSecret jwtAlgorithm authorization =
      match uuidOf unicode value with
      | .ok tenantId => .ok tenantId
      | .error .valueError => .error (.httpException 401 "invalid_token")
      | .error e => .error (.uuid e) := by
  simp only [getTenantId, hbearer, hdecode, hvalue]

theorem authenticates {authorization : Option String} {token text : String} {claims : Claims}
    {tenantId : Uuid} (hbearer : bearer authorization = some token)
    (hdecode : decodeJwt jose now token jwtSecret jwtAlgorithm = .ok claims)
    (htext : claims.get? "tenant_id" = some (.str text))
    (hhex : Uuid.ofHex unicode text = some tenantId) :
    Authenticates jose unicode now jwtSecret jwtAlgorithm authorization tenantId token claims := by
  obtain ⟨hok, -, hexp⟩ := decodeJwt_eq_ok_iff.mp hdecode
  obtain ⟨exp, hexp⟩ := Option.isSome_iff_exists.mp hexp
  exact ⟨hbearer, jose.signed_of_decode hok, ⟨exp, hexp, jose.unexpired_of_decode hok exp hexp⟩,
    text, htext, hhex⟩

/-- The claim of a token that is let through is judged properly if it is a text. -/
theorem proper_of_ok {authorization : Option String} {token : String} {claims : Claims}
    {value : Json} (hbearer : bearer authorization = some token)
    (hdecode : decodeJwt jose now token jwtSecret jwtAlgorithm = .ok claims)
    (hvalue : claims.get? "tenant_id" = some value) :
    Proper jose unicode now jwtSecret jwtAlgorithm authorization
        (getTenantId jose unicode now jwtSecret jwtAlgorithm authorization) ↔
      ∃ text, value = .str text := by
  rw [getTenantId_of_ok hbearer hdecode hvalue]
  by_cases hstr : ∃ text, value = .str text
  · refine iff_of_true ?_ hstr
    obtain ⟨text, rfl⟩ := hstr
    cases hhex : Uuid.ofHex unicode text with
    | some tenantId =>
      simp only [uuidOf, hhex]
      exact ⟨token, claims, authenticates hbearer hdecode hvalue hhex⟩
    | none =>
      simp only [uuidOf, hhex]
      exact ⟨"invalid_token", rfl⟩
  · refine iff_of_false ?_ hstr
    push Not at hstr
    obtain ⟨e, herror, hne⟩ := uuidOf_of_ne_str unicode hstr
    rw [herror]
    cases e with
    | valueError => exact absurd rfl hne
    | typeError | attributeError =>
      rintro ⟨detail, hdetail⟩
      cases hdetail

variable (jose unicode now jwtSecret jwtAlgorithm)

/-- The outcome is proper unless jose accepts a token with both claims whose tenant is no
text. -/
theorem getTenantId_proper_iff (authorization : Option String) :
    Proper jose unicode now jwtSecret jwtAlgorithm authorization
        (getTenantId jose unicode now jwtSecret jwtAlgorithm authorization) ↔
      ∀ token claims, bearer authorization = some token →
        jose.decode now token jwtSecret jwtAlgorithm = .ok claims →
        (claims.get? "exp").isSome → ∀ value ∈ claims.get? "tenant_id",
          ∃ text, value = .str text := by
  cases hbearer : bearer authorization with
  | none =>
    refine iff_of_true ?_ (by simp)
    simp only [getTenantId, hbearer]
    exact ⟨"missing_token", rfl⟩
  | some token =>
    cases hdecode : decodeJwt jose now token jwtSecret jwtAlgorithm with
    | error e =>
      obtain ⟨detail, hresult⟩ : ∃ detail, getTenantId jose unicode now jwtSecret jwtAlgorithm
          authorization = .error (.httpException 401 detail) :=
        getTenantId_of_error hbearer hdecode
      refine iff_of_true ?_ ?_
      · rw [hresult]
        exact ⟨detail, rfl⟩
      · rintro token' claims htoken hok hexp value hvalue
        cases htoken
        have htenant := Option.isSome_iff_exists.mpr ⟨value, hvalue⟩
        have hlet := decodeJwt_eq_ok_iff.mpr ⟨hok, htenant, hexp⟩
        rw [hdecode] at hlet
        cases hlet
    | ok claims =>
      obtain ⟨hok, htenant, hexp⟩ := decodeJwt_eq_ok_iff.mp hdecode
      obtain ⟨value, hvalue⟩ := Option.isSome_iff_exists.mp htenant
      rw [proper_of_ok hbearer hdecode hvalue]
      constructor
      · rintro hstr token' claims' htoken hok' - value' hvalue'
        cases htoken
        cases hok.symm.trans hok'
        cases hvalue.symm.trans hvalue'
        exact hstr
      · exact fun h => h token claims rfl hok hexp value hvalue

/-- A token whose claim is the canonical text of a tenant is one of that tenant. -/
theorem getTenantId_of_str {authorization : Option String} {token : String} {claims : Claims}
    {tenantId : Uuid} (hbearer : bearer authorization = some token)
    (hdecode : jose.decode now token jwtSecret jwtAlgorithm = .ok claims)
    (htenant : claims.get? "tenant_id" = some (.str tenantId.str))
    (hexp : (claims.get? "exp").isSome) :
    getTenantId jose unicode now jwtSecret jwtAlgorithm authorization = .ok tenantId := by
  have hlet := decodeJwt_eq_ok_iff.mpr ⟨hdecode, Option.isSome_iff_exists.mpr ⟨_, htenant⟩, hexp⟩
  rw [getTenantId_of_ok hbearer hlet htenant, uuidOf, Uuid.ofHex_str]

end Auth

/-! ## A tenant that is a number -/

/-- A token of the two claims below, under HS256 with the secret `test-secret`. -/
def numberToken : String :=
  "eyJhbGciOiJIUzI1NiIsInR5cCI6IkpXVCJ9" ++ "." ++
    "eyJ0ZW5hbnRfaWQiOjQyLCJleHAiOjQxMDI0NDQ4MDB9" ++ "." ++
    "jz20rlwXVoEvxcDH9cMHnhMQTcezsrpaZQi_DMMpNWg"

def numberClaims : Claims := Dict.ofPairs [("tenant_id", .int 42), ("exp", .int 4102444800)]

/-- What jose makes of the one token. -/
def sampleJose : Jose where
  decode now token secret algorithm :=
    if token = numberToken ∧ secret = "test-secret" ∧ algorithm = "HS256" then
      if now ≤ 4102444800 then .ok numberClaims else .error .expiredSignature
    else .error (.other "Signature verification failed.")
  unverifiedAlg token :=
    if token = numberToken then .ok (some (.str "HS256"))
    else .error (.other "Error decoding token headers.")
  Signed token secret algorithm claims :=
    token = numberToken ∧ secret = "test-secret" ∧ algorithm = "HS256" ∧ claims = numberClaims
  expiry
    | .int time => some time
    | _ => none
  signed_of_decode h := by
    split at h
    · rename_i htoken
      split at h
      · cases h
        exact ⟨htoken.1, htoken.2.1, htoken.2.2, rfl⟩
      · cases h
    · cases h
  unexpired_of_decode h := by
    split at h
    · split at h
      · rename_i hnow
        cases h
        intro exp hexp
        have hget : numberClaims.get? "exp" = some (.int 4102444800) := by decide
        cases hexp.symm.trans hget
        exact ⟨4102444800, rfl, hnow⟩
      · cases h
    · cases h
  alg_of_decode h := by
    split at h
    · rename_i htoken
      rw [if_pos htoken.1, htoken.2.2]
    · cases h

def plainUnicode : Uuid.Unicode where
  toAscii c := if c.toNat < 128 then c else '?'
  toAscii_of_ascii _ h := if_pos h

/-- The claim is no text, and the gateway answers with a server error. -/
theorem number_escapes :
    getTenantId sampleJose plainUnicode 1700000000 "test-secret" "HS256"
        (some ("Bearer " ++ numberToken)) = .error (.uuid .attributeError) ∧
      ¬ Proper sampleJose plainUnicode 1700000000 "test-secret" "HS256"
        (some ("Bearer " ++ numberToken))
        (getTenantId sampleJose plainUnicode 1700000000 "test-secret" "HS256"
          (some ("Bearer " ++ numberToken))) := by
  have hresult : getTenantId sampleJose plainUnicode 1700000000 "test-secret" "HS256"
      (some ("Bearer " ++ numberToken)) = .error (.uuid .attributeError) := by decide +kernel
  refine ⟨hresult, ?_⟩
  rw [hresult]
  rintro ⟨detail, hdetail⟩
  cases hdetail

end Sutram.Gateway
