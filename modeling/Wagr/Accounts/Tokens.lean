import Mathlib.Logic.Equiv.List
import Wagr.Service.Auth
import Wagr.Service.Reads

/-!
# Tokens

The tokens that `VerifySignature` hands out and `AuthMiddleware` checks. The JWT library with the
service's secret is a parameter. A token has the claims it was signed with until it expires, and
the middleware lets a request pass exactly that long.
-/

namespace Wagr

/-- The claims of a token that the service reads; a claim that is missing or of another type is
`none`. -/
structure MapClaims where
  userID : Option String
  walletAddress : Option String
  walletType : Option String
  /-- The time the token expires, in seconds. -/
  exp : ℕ
  /-- The time the token was issued. -/
  iat : ℕ
  deriving DecidableEq

/-- The JWT library with the service's secret. -/
structure JWT where
  /-- `SignedString` of a token with these claims. -/
  signedString : MapClaims → String
  /-- `jwt.Parse` at a time: the claims of a valid token. -/
  parse : ℕ → String → Option MapClaims

/-- What the service relies on: a token that was signed has its claims until it expires, and it has
no spaces. -/
structure JWT.Lawful (jwt : JWT) : Prop where
  parse_signed : ∀ claims now, jwt.parse now (jwt.signedString claims) =
    if now < claims.exp then some claims else none
  signed_noSpace : ∀ claims, ' ' ∉ (jwt.signedString claims).toList

/-- `Claims`. -/
structure Claims where
  userID : String
  walletAddress : String
  walletType : String
  deriving DecidableEq

/-- How long a token is valid (`24 * time.Hour`), in seconds. -/
def tokenLifetime : ℕ := 24 * 60 * 60

/-- `generateJWT`. -/
def generateJWT (jwt : JWT) (now : ℕ) (user : AuthResponse) : String :=
  jwt.signedString
    { userID := some user.userID
      walletAddress := some user.walletAddress
      walletType := some user.walletType
      exp := now + tokenLifetime
      iat := now }

/-- The panic of a type assertion that fails. -/
def assertionPanic : GoError := .panic "interface conversion: interface {} is not string"

/-- An empty wallet type stands for the default. -/
def defaultWalletType (walletType : String) : String :=
  if walletType = "" then "hedera" else walletType

/-- `ValidateToken`. -/
def validateToken (jwt : JWT) (now : ℕ) (tokenString : String) : Except GoError Claims :=
  match jwt.parse now tokenString with
  | none => .error (.text "invalid token" [])
  | some claims =>
    match claims.userID, claims.walletAddress with
    | some userID, some walletAddress =>
      .ok ⟨userID, walletAddress, defaultWalletType (claims.walletType.getD "")⟩
    | _, _ => .error assertionPanic

/-- The claims of a token for a user. -/
def AuthResponse.claims (user : AuthResponse) : Claims :=
  ⟨user.userID, user.walletAddress, defaultWalletType user.walletType⟩

/-- The parts of a header (`strings.Split` at a space). -/
def headerParts (authHeader : String) : List String :=
  (authHeader.toList.splitOn ' ').map String.ofList

/-- The response to a header that is not a bearer token. -/
def invalidHeader : HTTPResponse := ⟨401, .message "invalid authorization header format"⟩

/-- The response to a token: a panic is answered by `Recoverer`. -/
def tokenResponse : Except GoError Claims → Except HTTPResponse Claims
  | .ok claims => .ok claims
  | .error (.panic _) => .error ⟨500, .message ""⟩
  | .error _ => .error ⟨401, .message "invalid token"⟩

/-- `AuthMiddleware`, up to the next handler. -/
def authMiddleware (jwt : JWT) (now : ℕ) (authHeader : String) : Except HTTPResponse Claims :=
  if authHeader = "" then .error ⟨401, .message "missing authorization header"⟩
  else
    match headerParts authHeader with
    | [scheme, tokenString] =>
      if scheme.toLower ≠ "bearer" then .error invalidHeader
      else tokenResponse (validateToken jwt now tokenString)
    | _ => .error invalidHeader

/-! ## What the middleware lets pass -/

variable {jwt : JWT} {now issued : ℕ} {user : AuthResponse} {authHeader : String} {claims : Claims}

/-- A token is valid until it expires, with the claims of its user. -/
theorem validateToken_generateJWT (hjwt : jwt.Lawful) :
    validateToken jwt now (generateJWT jwt issued user) =
      if now < issued + tokenLifetime then .ok user.claims
      else .error (.text "invalid token" []) := by
  unfold validateToken generateJWT
  rw [hjwt.parse_signed]
  by_cases hnow : now < issued + tokenLifetime
  · simp [hnow, AuthResponse.claims]
  · simp [hnow]

/-- Two parts without spaces, with a space between them. -/
theorem headerParts_pair {scheme tokenString : String} (hscheme : ' ' ∉ scheme.toList)
    (htoken : ' ' ∉ tokenString.toList) :
    headerParts (scheme ++ " " ++ tokenString) = [scheme, tokenString] := by
  have hchars : (scheme ++ " " ++ tokenString).toList =
      scheme.toList ++ ' ' :: tokenString.toList := by simp
  rw [headerParts, hchars, List.splitOn_append_cons_self_of_not_mem hscheme,
    List.splitOn_eq_singleton htoken]
  simp

/-- The parts of a header with a token. -/
theorem headerParts_bearer (hjwt : jwt.Lawful) :
    headerParts ("Bearer " ++ generateJWT jwt issued user) =
      ["Bearer", generateJWT jwt issued user] := by
  have hspace : "Bearer " = "Bearer" ++ " " := by decide
  rw [hspace]
  exact headerParts_pair (by decide) (hjwt.signed_noSpace _)

/-- The middleware lets the user of a token pass until the token expires. -/
theorem authMiddleware_generateJWT (hjwt : jwt.Lawful) :
    authMiddleware jwt now ("Bearer " ++ generateJWT jwt issued user) =
      if now < issued + tokenLifetime then .ok user.claims
      else .error ⟨401, .message "invalid token"⟩ := by
  have hne : "Bearer " ++ generateJWT jwt issued user ≠ "" := by simp
  have hbearer : "Bearer".toLower = "bearer" := by decide +kernel
  rw [authMiddleware, if_neg hne, headerParts_bearer hjwt]
  simp only [hbearer, ne_eq, not_true_eq_false, if_false, validateToken_generateJWT hjwt]
  by_cases hnow : now < issued + tokenLifetime <;> simp [hnow, tokenResponse]

/-- What the middleware lets pass has a valid token. -/
theorem valid_of_authMiddleware (h : authMiddleware jwt now authHeader = .ok claims) :
    ∃ scheme tokenString, headerParts authHeader = [scheme, tokenString] ∧
      validateToken jwt now tokenString = .ok claims := by
  unfold authMiddleware at h
  split at h
  · cases h
  · split at h
    · rename_i scheme tokenString hparts
      split at h
      · cases h
      · refine ⟨scheme, tokenString, hparts, ?_⟩
        cases hvalid : validateToken jwt now tokenString with
        | ok valid =>
          rw [hvalid] at h
          exact congrArg Except.ok (Except.ok.inj h)
        | error err =>
          rw [hvalid] at h
          cases err <;> cases h
    · cases h

/-- A token that is valid can be parsed. -/
theorem parse_of_validateToken {tokenString : String}
    (h : validateToken jwt now tokenString = .ok claims) : (jwt.parse now tokenString).isSome := by
  unfold validateToken at h
  split at h
  · cases h
  · rename_i hparse
    rw [hparse]
    rfl

/-! ## A lawful library -/

/-- The code points of a text. -/
def codes (s : String) : List ℕ := s.toList.map Char.toNat

/-- The text with these code points. -/
def ofCodes (codes : List ℕ) : String := String.ofList (codes.map Char.ofNat)

/-- A text has its code points. -/
@[simp] theorem ofCodes_codes (s : String) : ofCodes (codes s) = s := by
  simp [ofCodes, codes, Function.comp_def]

/-- The claims as numbers. -/
def MapClaims.fields (claims : MapClaims) :
    Option (List ℕ) × Option (List ℕ) × Option (List ℕ) × ℕ × ℕ :=
  (claims.userID.map codes, claims.walletAddress.map codes, claims.walletType.map codes,
    claims.exp, claims.iat)

/-- The claims with these fields. -/
def MapClaims.ofFields :
    Option (List ℕ) × Option (List ℕ) × Option (List ℕ) × ℕ × ℕ → MapClaims
  | (userID, walletAddress, walletType, exp, iat) =>
    ⟨userID.map ofCodes, walletAddress.map ofCodes, walletType.map ofCodes, exp, iat⟩

/-- A library whose tokens are as long as the number of their claims. -/
def JWT.mock : JWT where
  signedString claims := String.ofList (List.replicate (Encodable.encode claims.fields) 'a')
  parse now tokenString :=
    ((Encodable.decode tokenString.toList.length).map MapClaims.ofFields).filter (now < ·.exp)

/-- It is lawful. -/
theorem JWT.lawful_mock : JWT.mock.Lawful where
  parse_signed claims now := by
    have hfields : MapClaims.ofFields claims.fields = claims := by
      simp [MapClaims.ofFields, MapClaims.fields, Function.comp_def]
    have hdecode : Encodable.decode (Encodable.encode claims.fields) = some claims.fields :=
      Encodable.encodek _
    simp only [mock, String.toList_ofList, List.length_replicate, hdecode, Option.map_some, hfields]
    by_cases hnow : now < claims.exp
    · simp [hnow]
    · simp [hnow, Nat.le_of_not_lt hnow]
  signed_noSpace claims := by simp [mock, List.mem_replicate]

end Wagr
