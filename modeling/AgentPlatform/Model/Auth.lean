import AgentPlatform.Model.Db

/-! # `auth.rs`

Header values are byte strings. Argon2 enters as functions of its arguments.
-/

set_option autoImplicit false

namespace AgentPlatform

open Interleaving

abbrev HeaderValue := List UInt8

/-- `HeaderValue::to_str`: visible ASCII, space and tab only. -/
def HeaderValue.toStr (value : HeaderValue) : Option String :=
  if value.all fun byte => (32 ≤ byte && byte < 127) || byte == 9 then
    some (String.ofList (value.map fun byte => Char.ofNat byte.toNat))
  else none

/-- The headers that the handlers read; `get` returns the first value of a name. -/
structure HeaderMap where
  authorization : Option HeaderValue := none
  idempotencyKey : Option HeaderValue := none

structure TenantContext where
  tenantId : Uuid

def extractKeyPrefix (apiKey : String) : Option String := do
  let (keyPrefix, _) ← splitOnce (← stripPrefix apiKey "map_live_") '_'
  return keyPrefix

/-- The API key of a request and the prefix it is looked up by. -/
def HeaderMap.apiKey (headers : HeaderMap) : Option (String × String) := do
  let headerValue ← (← headers.authorization).toStr
  let apiKey ← stripPrefix headerValue "Bearer "
  let keyPrefix ← extractKeyPrefix apiKey
  return (apiKey, keyPrefix)

variable (lib : Libraries)

def verifyApiKey (apiKey keyHash : String) : Except AppError Unit :=
  if !lib.parsesHash keyHash then .error (.internal "stored api key hash is invalid")
  else if lib.verifyPassword apiKey keyHash then .ok ()
  else .error .invalidApiKey

def authenticate (headers : HeaderMap) : Act TenantContext := do
  let (apiKey, keyPrefix) ← okOr headers.apiKey .invalidApiKey
  let keyRecord ← okOr (← Db.findActiveApiKeyByPrefix keyPrefix) .invalidApiKey
  okOrError (verifyApiKey lib apiKey keyRecord.keyHash)
  return ⟨keyRecord.tenantId⟩

/-- The tenant that a request with these headers authenticates as. -/
def Store.authenticates (s : Store) (headers : HeaderMap) (tenantId : Uuid) : Prop :=
  ∃ apiKey keyPrefix row, headers.apiKey = some (apiKey, keyPrefix) ∧ s.findApiKey keyPrefix = some row ∧
    verifyApiKey lib apiKey row.keyHash = .ok () ∧ row.tenantId = tenantId

/-- `char::to_lowercase` on the alphanumeric characters. -/
def toLowercase (text : String) : String := String.ofList (text.toList.map Char.toLower)

def generateApiKey : Act (String × String × String) := do
  let keyPrefix := toLowercase (← act (.sampleAlphanumeric 12))
  let secret ← act (.sampleAlphanumeric 32)
  let apiKey := "map_live_" ++ keyPrefix ++ "_" ++ secret
  let salt ← act .generateSalt
  let keyHash ← okOr (lib.hashPassword salt apiKey) (.internal "failed to hash api key")
  return (apiKey, keyPrefix, keyHash)

end AgentPlatform
