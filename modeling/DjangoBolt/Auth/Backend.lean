import DjangoBolt.Binding.Value

open Python

namespace DjangoBolt.Auth

open Binding (PyValue)

abbrev PyDict := List (String × PyValue)

def extractString : PyValue → Option String
  | .str s => some s
  | _ => none

def extractStrings : PyValue → Option (List String)
  | .list items => items.mapM extractString
  | _ => none

def extractDict : PyValue → Option PyDict
  | .dict items => some items
  | _ => none

def extractDicts (items : List PyValue) : Option (List PyDict) := items.mapM extractDict

def extractStringLists : PyValue → Option (List (String × List String))
  | .dict items => items.mapM (fun e => (extractStrings e.2).map (fun vs => (e.1, vs)))
  | _ => none

structure Claims where
  sub : Option String
  exp : Option Int
  iat : Option Int
  nbf : Option Int
  aud : Option String
  iss : Option String
  jti : Option String
  isStaff : Option Bool
  isSuperuser : Option Bool
  isAdmin : Option Bool
  permissions : Option (List String)
  deriving DecidableEq, Repr

structure AuthContext where
  userId : Option String
  isStaff : Bool
  isSuperuser : Bool
  backend : String
  claims : Option Claims
  permissions : List String
  deriving DecidableEq, Repr

def fromJwtClaims (claims : Claims) (backend : String) : AuthContext where
  userId := claims.sub
  isStaff := claims.isStaff.getD false
  isSuperuser := claims.isSuperuser.getD false
  backend := backend
  claims := some claims
  permissions := claims.permissions.getD []

def fromApiKey (key : String) (keyPermissions : List (String × List String)) : AuthContext where
  userId := some ("apikey:" ++ key)
  isStaff := false
  isSuperuser := false
  backend := "api_key"
  claims := none
  permissions := (keyPermissions.lookup key).getD []

inductive AuthBackend where
  | jwt (secret : String) (algorithms : List String) (header : String) (audience : Option String)
      (issuer : Option String)
  | apiKey (apiKeys : List String) (header : String) (keyPermissions : List (String × List String))
  deriving DecidableEq, Repr

def parseAuthBackend (dict : PyDict) : Option AuthBackend :=
  match (dict.lookup "type").bind extractString with
  | some "jwt" =>
      match (dict.lookup "secret").bind extractString with
      | none => none
      | some secret =>
          some (.jwt secret (((dict.lookup "algorithms").bind extractStrings).getD ["HS256"])
            (((dict.lookup "header").bind extractString).getD "authorization")
            ((dict.lookup "audience").bind extractString)
            ((dict.lookup "issuer").bind extractString))
  | some "api_key" =>
      some (.apiKey (((dict.lookup "api_keys").bind extractStrings).getD [])
        (((dict.lookup "header").bind extractString).getD "x-api-key")
        (((dict.lookup "key_permissions").bind extractStringLists).getD []))
  | _ => none

inductive Algorithm where
  | hs256
  | hs384
  | hs512
  | rs256
  | rs384
  | rs512
  | es256
  | es384
  deriving DecidableEq, Repr

def algorithmOf : String → Algorithm
  | "HS256" => .hs256
  | "HS384" => .hs384
  | "HS512" => .hs512
  | "RS256" => .rs256
  | "RS384" => .rs384
  | "RS512" => .rs512
  | "ES256" => .es256
  | "ES384" => .es384
  | _ => .hs256

structure JsonWebToken where
  decode : (token secret : String) → Algorithm → (audience issuer : Option String) → Option Claims

abbrev Headers := Dict String String

def bearer : List Char := "Bearer ".toList

def apiKeyScheme : List Char := "ApiKey ".toList

def stripScheme (scheme : List Char) (value : String) : Option String :=
  if scheme.isPrefixOf value.toList then some (String.ofList (value.toList.drop scheme.length))
  else none

def tryJwtAuth (J : JsonWebToken) (headers : Headers) (secret : String) (algorithms : List String)
    (headerName : String) (audience issuer : Option String) : Option AuthContext :=
  match headers.get? headerName with
  | none => none
  | some authHeader =>
      let token := (stripScheme bearer authHeader).getD authHeader
      match J.decode token secret (algorithmOf (algorithms.head?.getD "HS256")) audience issuer with
      | some claims => some (fromJwtClaims claims "jwt")
      | none => none

def tryApiKeyAuth (headers : Headers) (apiKeys : List String) (headerName : String)
    (keyPermissions : List (String × List String)) : Option AuthContext :=
  if apiKeys.isEmpty then none
  else
    match headers.get? headerName with
    | none => none
    | some value =>
        let apiKey :=
          ((stripScheme bearer value).or (stripScheme apiKeyScheme value)).getD value
        if apiKeys.contains apiKey then some (fromApiKey apiKey keyPermissions) else none

def tryBackend (J : JsonWebToken) (headers : Headers) : AuthBackend → Option AuthContext
  | .jwt secret algorithms header audience issuer =>
      tryJwtAuth J headers secret algorithms header audience issuer
  | .apiKey apiKeys header keyPermissions => tryApiKeyAuth headers apiKeys header keyPermissions

def authenticate (J : JsonWebToken) (headers : Headers) : List AuthBackend → Option AuthContext
  | [] => none
  | b :: bs =>
      match tryBackend J headers b with
      | some ctx => some ctx
      | none => authenticate J headers bs

theorem authenticate_eq_findSome (J : JsonWebToken) (headers : Headers) (bs : List AuthBackend) :
    authenticate J headers bs = bs.findSome? (tryBackend J headers) := by
  induction bs with
  | nil => rfl
  | cons b bs ih =>
    rw [authenticate, List.findSome?_cons, ih]
    cases tryBackend J headers b <;> rfl

end DjangoBolt.Auth
