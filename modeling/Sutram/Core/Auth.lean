/-
JWTs.

jose verifies a token and reads its claims; it raises subclasses of `JWTError` only.  What
is relied on of a token that it accepts are the fields of `Jose`.
-/
import Sutram.Core.Json
import Sutram.Library.Dict

namespace Sutram.Core

/-- The payload of a token, of any JSON types. -/
abbrev Claims := Dict String Json

/-! ## jose -/

inductive JWTError where
  | expiredSignature
  | other (message : String)
deriving DecidableEq

/-- `jose.jwt`.  A clock is read by `decode`, in seconds. -/
structure Jose where
  /-- `jwt.decode(token, secret, algorithms=[algorithm])` -/
  decode : Int → String → String → String → Except JWTError Claims
  /-- `jwt.get_unverified_header(token).get("alg")` -/
  unverifiedAlg : String → Except JWTError (Option Json)
  /-- The claims are signed in the token, with the secret under the algorithm. -/
  Signed : String → String → String → Claims → Prop
  /-- the time that an `exp` claim stands for -/
  expiry : Json → Option Int
  signed_of_decode : ∀ {now token secret algorithm claims},
    decode now token secret algorithm = .ok claims → Signed token secret algorithm claims
  unexpired_of_decode : ∀ {now token secret algorithm claims},
    decode now token secret algorithm = .ok claims → ∀ exp ∈ claims.get? "exp",
      ∃ time ∈ expiry exp, now ≤ time
  alg_of_decode : ∀ {now token secret algorithm claims},
    decode now token secret algorithm = .ok claims →
      unverifiedAlg token = .ok (some (.str algorithm))

/-! ## The decoders -/

structure AuthError where
  message : String
  expired : Bool := false
deriving DecidableEq

/-- What both decoders make of an error of jose. -/
def AuthError.ofJWTError : JWTError → AuthError
  | .expiredSignature => ⟨"Token has expired", true⟩
  | .other message => ⟨"Invalid token: " ++ message, false⟩

/-- The claims both decoders ask for. -/
def requireClaims (claims : Claims) : Except AuthError Claims :=
  if (claims.get? "tenant_id").isNone then .error ⟨"Missing tenant_id claim", false⟩
  else if (claims.get? "exp").isNone then .error ⟨"Missing exp claim", false⟩
  else .ok claims

section Decode

variable (jose : Jose) (now : Int) (secret : String)

/-- `decode_jwt` of the shared package.  `repr` is Python's. -/
def decodeJwt (settingsAlgorithm : String) (repr : Option Json → String) (token : String)
    (algorithm : Option String) : Except AuthError Claims :=
  let alg :=
    match algorithm with
    | none | some "" => settingsAlgorithm
    | some algorithm => algorithm
  match jose.unverifiedAlg token with
  | .error e => .error (.ofJWTError e)
  | .ok header =>
    if header ≠ some (.str alg) then
      .error ⟨"Token algorithm " ++ repr header ++ " does not match configured " ++
        repr (some (.str alg)), false⟩
    else
      match jose.decode now token secret alg with
      | .error e => .error (.ofJWTError e)
      | .ok claims => requireClaims claims

end Decode

theorem requireClaims_eq_ok_iff {claims claims' : Claims} :
    requireClaims claims = .ok claims' ↔
      claims = claims' ∧ (claims.get? "tenant_id").isSome ∧ (claims.get? "exp").isSome := by
  unfold requireClaims
  cases claims.get? "tenant_id" with
  | none => simp
  | some value => cases claims.get? "exp" <;> simp

end Sutram.Core
