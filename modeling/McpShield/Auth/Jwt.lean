import Mathlib.Data.Finset.Dedup
import Mathlib.Data.Finset.Insert
import McpShield.Error
import McpShield.Protocol.Json

/-!
# Token validation

Which tokens the validator accepts.  It builds the rules of the library from its configuration and
the algorithm that the token names, and requires no claim, so a claim that the token does not carry
is never compared.
-/

namespace McpShield

/-- `jsonwebtoken::Algorithm`. -/
inductive Algorithm where
  | hs256 | hs384 | hs512 | es256 | es384 | rs256 | rs384 | rs512 | ps256 | ps384 | ps512 | edDSA
deriving DecidableEq

/-- The name that `{:?}` prints. -/
def Algorithm.debug : Algorithm → String
  | hs256 => "HS256"
  | hs384 => "HS384"
  | hs512 => "HS512"
  | es256 => "ES256"
  | es384 => "ES384"
  | rs256 => "RS256"
  | rs384 => "RS384"
  | rs512 => "RS512"
  | ps256 => "PS256"
  | ps384 => "PS384"
  | ps512 => "PS512"
  | edDSA => "EdDSA"

/-- The header of a token, as far as the validator uses it. -/
structure Header where
  alg : Algorithm

/-- The rules of a validation. -/
structure Validation where
  algorithms : Finset Algorithm
  iss : Option (Finset String)
  aud : Option (Finset String)
  validateExp : Bool
  validateAud : Bool
  leeway : UInt64
  requiredSpecClaims : Finset String

/-- `Validation::set_issuer`. -/
def Validation.setIssuer (v : Validation) (items : List String) : Validation :=
  { v with iss := some items.toFinset }

/-- `Validation::set_audience`. -/
def Validation.setAudience (v : Validation) (items : List String) : Validation :=
  { v with aud := some items.toFinset }

/-- What the validator uses of the `jsonwebtoken` crate.  An error is its text, the first argument
of `decode` is the current time, and `numericDate` is how a number is read as a time. -/
structure Jsonwebtoken where
  Key : Type
  decodeHeader : String → Except String Header
  fromSecret : String → Key
  newValidation : Algorithm → Validation
  decode : ℕ → String → Key → Validation → Except String Value
  numericDate : Number → Option ℕ

/-- The names in a claim that is a string or an array of strings. -/
def Value.names : Value → Option (List String)
  | .string s => some [s]
  | .array xs => xs.mapM Value.asStr
  | _ => none

/-- The expiration time of a payload, if it carries one. -/
def Value.expiry (numericDate : Number → Option ℕ) (payload : Value) : Option ℕ :=
  match payload.get "exp" with
  | some (.number n) => numericDate n
  | _ => none

namespace Jsonwebtoken

/-- The issuer is an expected one, if both are there. -/
def issuerAgrees (v : Validation) (payload : Value) : Prop :=
  ∀ issuers ∈ v.iss, ∀ given ∈ (payload.get "iss").bind Value.names, ∃ name ∈ given, name ∈ issuers

/-- The audience is an expected one, if both are there. -/
def audienceAgrees (v : Validation) (payload : Value) : Prop :=
  v.validateAud = true → ∀ auds ∈ v.aud, ∀ given ∈ (payload.get "aud").bind Value.names,
    ∃ name ∈ given, name ∈ auds

/-- The token has not expired, if it says when it does. -/
def notExpired (numericDate : Number → Option ℕ) (v : Validation) (now : ℕ) (payload : Value) :
    Prop :=
  v.validateExp = true → ∀ exp ∈ payload.expiry numericDate, now ≤ exp + v.leeway.toNat

/-- The documented behaviour: the rules start from the given algorithm and check the audience, and
the payload of a valid token agrees with the rules in the claims that it carries. -/
structure Documented (J : Jsonwebtoken) : Prop where
  algorithms : ∀ alg, (J.newValidation alg).algorithms = {alg}
  validateAud : ∀ alg, (J.newValidation alg).validateAud = true
  numericDate : ∀ n, J.numericDate (.posInt n) = some n.toNat
  issuer : ∀ now token key v payload, J.decode now token key v = .ok payload →
    issuerAgrees v payload
  audience : ∀ now token key v payload, J.decode now token key v = .ok payload →
    audienceAgrees v payload
  expiry : ∀ now token key v payload, J.decode now token key v = .ok payload →
    notExpired J.numericDate v now payload

end Jsonwebtoken

/-! ## The validator -/

/-- Claims extracted from a validated token. -/
structure JwtClaims where
  sub : Option String
  iss : Option String
  aud : Option (Finset String)
  exp : Option UInt64
  nbf : Option UInt64
  iat : Option UInt64
  scope : Option (List String)
  jti : Option String
  extra : Value

/-- Configuration of the validator. -/
structure JwtValidatorConfig where
  hmacSecret : Option String := none
  jwksUrl : Option String := none
  issuer : Option String := none
  audience : Option String := none
  algorithms : List Algorithm :=
    [.rs256, .rs384, .rs512, .es256, .es384, .hs256, .hs384, .hs512]
  validateExp : Bool := true
  leeway : UInt64 := 30

/-- A validator with its cached keys. -/
structure JwtValidator (Key : Type) where
  config : JwtValidatorConfig
  jwksKeys : List Key

namespace JwtValidator

variable {J : Jsonwebtoken}

/-- Create a validator without cached keys. -/
def new {Key : Type} (config : JwtValidatorConfig) : JwtValidator Key := { config, jwksKeys := [] }

/-- Create a validator with an HMAC secret. -/
def withHmacSecret {Key : Type} (secret : String) (issuer : Option String) : JwtValidator Key :=
  new { hmacSecret := some secret, issuer, algorithms := [.hs256] }

/-- The key for the algorithm of a header. -/
def getDecodingKey (jv : JwtValidator J.Key) (header : Header) : Except McpError J.Key :=
  match header.alg with
  | .hs256 | .hs384 | .hs512 =>
      match jv.config.hmacSecret with
      | some secret => .ok (J.fromSecret secret)
      | none => .error (.jwtError "HMAC algorithm requires a configured jwt_secret")
  | .rs256 | .rs384 | .rs512 | .es256 | .es384 =>
      match jv.jwksKeys with
      | key :: _ => .ok key
      | [] => .error (.jwtError
          s!"No JWKS keys loaded for algorithm {header.alg.debug}. Configure jwks_url.")
  | alg => .error (.jwtError s!"Unsupported JWT algorithm: {alg.debug}")

/-- The names in the audience, of which other entries are left out. -/
def extractAud (v : Value) : Option (Finset String) :=
  match v with
  | .string s => some {s}
  | .array xs => some (xs.filterMap Value.asStr).toFinset
  | _ => none

/-- Extract typed claims from the payload. -/
def extractClaims (claims : Value) : JwtClaims :=
  { sub := (claims.get "sub").bind Value.asStr
    iss := (claims.get "iss").bind Value.asStr
    aud := (claims.get "aud").bind extractAud
    exp := (claims.get "exp").bind Value.asU64
    nbf := (claims.get "nbf").bind Value.asU64
    iat := (claims.get "iat").bind Value.asU64
    scope := ((claims.get "scope").bind Value.asStr).map Str.splitWhitespace
    jti := (claims.get "jti").bind Value.asStr
    extra := claims }

/-- The rules for an algorithm. -/
def validation (J : Jsonwebtoken) (config : JwtValidatorConfig) (alg : Algorithm) : Validation :=
  let validation := J.newValidation alg
  let validation := match config.issuer with
    | some issuer => validation.setIssuer [issuer]
    | none => validation
  let validation := match config.audience with
    | some audience => validation.setAudience [audience]
    | none => validation
  { validation with
    validateExp := config.validateExp
    leeway := config.leeway
    -- No claim is required.
    requiredSpecClaims := ∅ }

/-- Validate a token and extract its claims. -/
def validateToken (jv : JwtValidator J.Key) (now : ℕ) (token : String) :
    Except McpError JwtClaims := do
  let header ← (J.decodeHeader token).mapError fun e =>
    .jwtError s!"Failed to decode JWT header: {e}"
  let decodingKey ← jv.getDecodingKey header
  let claims ← (J.decode now token decodingKey (validation J jv.config header.alg)).mapError
    fun e => .jwtError s!"JWT validation failed: {e}"
  pure (extractClaims claims)

/-- Extract a bearer token from the value of an `Authorization` header. -/
def extractBearerToken (authHeader : String) : Except McpError String :=
  match Str.splitn2 authHeader ' ' with
  | ["Bearer", token] =>
      let token := Str.trim token
      if token = "" then .error (.unauthorized "Empty Bearer token") else .ok token
  | _ => .error (.unauthorized
      "Invalid Authorization header format. Expected: Bearer <token>")

/-! ## What is accepted -/

variable {jv : JwtValidator J.Key} {now : ℕ} {token : String} {claims : JwtClaims}

/-- The allowed algorithms of the configuration are never read. -/
theorem validateToken_algorithms (algorithms : List Algorithm) :
    ({ jv with config := { jv.config with algorithms } } : JwtValidator J.Key).validateToken now
      token = jv.validateToken now token := rfl

end JwtValidator

namespace Jsonwebtoken

/-- A token with the secret it is signed with. -/
structure SignedToken where
  token : String
  secret : String
  header : Header
  payload : Value

instance (v : Validation) (payload : Value) : Decidable (issuerAgrees v payload) :=
  inferInstanceAs (Decidable (∀ issuers ∈ v.iss,
    ∀ given ∈ (payload.get "iss").bind Value.names, ∃ name ∈ given, name ∈ issuers))

instance (v : Validation) (payload : Value) : Decidable (audienceAgrees v payload) :=
  inferInstanceAs (Decidable (v.validateAud = true → ∀ auds ∈ v.aud,
    ∀ given ∈ (payload.get "aud").bind Value.names, ∃ name ∈ given, name ∈ auds))

instance (numericDate : Number → Option ℕ) (v : Validation) (now : ℕ) (payload : Value) :
    Decidable (notExpired numericDate v now payload) :=
  inferInstanceAs (Decidable (v.validateExp = true →
    ∀ exp ∈ payload.expiry numericDate, now ≤ exp + v.leeway.toNat))

/-- Times are whole numbers of seconds. -/
def wholeSeconds : Number → Option ℕ
  | .posInt n => some n.toNat
  | _ => none

/-- The library on some signed tokens; no other token is well formed. -/
def ofSigned (signed : List SignedToken) : Jsonwebtoken where
  Key := String
  decodeHeader token :=
    match signed.find? (·.token == token) with
    | some t => .ok t.header
    | none => .error "InvalidToken"
  fromSecret secret := secret
  newValidation alg :=
    { algorithms := {alg}, iss := none, aud := none, validateExp := true, validateAud := true
      leeway := 60, requiredSpecClaims := {"exp"} }
  decode now token key v :=
    match signed.find? (·.token == token) with
    | none => .error "InvalidToken"
    | some t =>
        if t.header.alg ∉ v.algorithms then .error "InvalidAlgorithm"
        else if t.secret ≠ key then .error "InvalidSignature"
        else if ∃ claim ∈ v.requiredSpecClaims, (t.payload.get claim).isNone then
          .error "MissingRequiredClaim"
        else if ¬ notExpired wholeSeconds v now t.payload then .error "ExpiredSignature"
        else if ¬ issuerAgrees v t.payload then .error "InvalidIssuer"
        else if ¬ audienceAgrees v t.payload then .error "InvalidAudience"
        else .ok t.payload
  numericDate := wholeSeconds

end Jsonwebtoken

namespace JwtValidator

open Jsonwebtoken

/-- A validator with a secret that expects an issuer. -/
def shieldValidator : JwtValidator String :=
  withHmacSecret "test-secret-key-12345" (some "mcp-shield")

end JwtValidator

end McpShield
