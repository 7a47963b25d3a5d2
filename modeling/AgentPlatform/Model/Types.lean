import Mathlib.Data.List.Infix
import Mathlib.Data.Nat.Notation

/-! # Values, shared data types and errors

JSON values, the request and response types of `platform-core`, and the error type of the server.
Texts are handled through their characters: `trim` follows the Unicode white space property and
`containsText` is substring search. A JSON object is the list of its members and is only read
through `Value.get`. Its numbers are the decimals that a JSON text or a `JSONB` column holds,
`mantissa * 10 ^ exponent`; reading them back from a column is `Libraries.decodeJson`.
-/

set_option autoImplicit false

namespace AgentPlatform

abbrev Uuid := BitVec 128

/-- Microseconds, as PostgreSQL stores a `TIMESTAMPTZ`. -/
abbrev Timestamp := ℕ

namespace Uuid

def nil : Uuid := 0

/-- The hyphenated lower-case form that serde writes. -/
def toText (id : Uuid) : String :=
  let digits := (List.range 32).map fun i => Nat.digitChar (id.toNat >>> (4 * (31 - i)) % 16)
  let part (start length : ℕ) : List Char := (digits.drop start).take length
  String.ofList (part 0 8 ++ '-' :: part 8 4 ++ '-' :: part 12 4 ++ '-' :: part 16 4 ++ '-' :: part 20 12)

private theorem digitChar_injective : ∀ m < 16, ∀ n < 16, Nat.digitChar m = Nat.digitChar n → m = n := by decide

/-- The groups of a text determine its digits. -/
private theorem groups_injective {digits digits' : List Char} (size : digits.length = 32)
    (size' : digits'.length = 32)
    (same : digits.take 8 ++ '-' :: (digits.drop 8).take 4 ++ '-' :: (digits.drop 12).take 4 ++
        '-' :: (digits.drop 16).take 4 ++ '-' :: (digits.drop 20).take 12 =
      digits'.take 8 ++ '-' :: (digits'.drop 8).take 4 ++ '-' :: (digits'.drop 12).take 4 ++
        '-' :: (digits'.drop 16).take 4 ++ '-' :: (digits'.drop 20).take 12) : digits = digits' := by
  obtain ⟨front, last⟩ := List.append_inj same (by simp [size, size'])
  obtain ⟨front, fourth⟩ := List.append_inj front (by simp [size, size'])
  obtain ⟨front, third⟩ := List.append_inj front (by simp [size, size'])
  obtain ⟨first, second⟩ := List.append_inj front (by simp [size, size'])
  have whole (digits : List Char) (size : digits.length = 32) : digits = digits.take 8 ++ ((digits.drop 8).take 4 ++
      ((digits.drop 12).take 4 ++ ((digits.drop 16).take 4 ++ (digits.drop 20).take 12))) := by
    have rest (k n : ℕ) : digits.drop k = (digits.drop k).take n ++ digits.drop (k + n) := by
      rw [← List.drop_drop, List.take_append_drop]
    have all : (digits.drop 20).take 12 = digits.drop 20 := List.take_of_length_le (by simp [size])
    rw [all, ← rest 16 4, ← rest 12 4, ← rest 8 4, List.take_append_drop]
  rw [whole digits size, whole digits' size', first, (List.cons.inj second).2, (List.cons.inj third).2,
    (List.cons.inj fourth).2, (List.cons.inj last).2]

/-- Different ids have different texts. -/
theorem toText_injective {id other : Uuid} (same : id.toText = other.toText) : id = other := by
  have texts := congrArg String.toList same
  simp only [toText, String.toList_ofList, List.drop_zero] at texts
  have digits := groups_injective (by simp) (by simp) texts
  have nibbles (k : ℕ) (bound : k < 32) : id.toNat >>> (4 * k) % 16 = other.toNat >>> (4 * k) % 16 := by
    have chars := List.map_inj_left.mp digits (31 - k) (List.mem_range.mpr (by omega))
    have place : 31 - (31 - k) = k := by omega
    rw [place] at chars
    exact digitChar_injective _ (Nat.mod_lt _ (by decide)) _ (Nat.mod_lt _ (by decide)) chars
  refine BitVec.eq_of_toNat_eq (Nat.eq_of_testBit_eq fun i => ?_)
  by_cases inside : i < 128
  · have bits := congrArg (Nat.testBit · (i % 4)) (nibbles (i / 4) (by omega))
    have width : 16 = 2 ^ 4 := by decide
    have place : 4 * (i / 4) + i % 4 = i := by omega
    have small : i % 4 < 4 := by omega
    simpa only [width, Nat.testBit_mod_two_pow, Nat.testBit_shiftRight, place, small,
      decide_true, Bool.true_and] using bits
  · rw [BitVec.testBit_toNat, BitVec.testBit_toNat, BitVec.getLsbD_of_ge _ _ (by omega),
      BitVec.getLsbD_of_ge _ _ (by omega)]

end Uuid

/-! ## Text -/

/-- Unicode `White_Space`. -/
def isWhitespace (c : Char) : Bool :=
  (9 ≤ c.toNat && c.toNat ≤ 13) || c.toNat == 0x20 || c.toNat == 0x85 || c.toNat == 0xA0 ||
    c.toNat == 0x1680 || (0x2000 ≤ c.toNat && c.toNat ≤ 0x200A) || c.toNat == 0x2028 ||
    c.toNat == 0x2029 || c.toNat == 0x202F || c.toNat == 0x205F || c.toNat == 0x3000

@[irreducible] def trim (text : String) : String :=
  String.ofList ((text.toList.dropWhile isWhitespace).reverse.dropWhile isWhitespace).reverse

def containsText (text pattern : String) : Bool :=
  text.toList.tails.any (pattern.toList.isPrefixOf ·)

theorem containsText_iff {text pattern : String} : containsText text pattern = true ↔
      pattern.toList <:+: text.toList := by
  simp only [containsText, List.any_eq_true, List.mem_tails, List.isPrefixOf_iff_prefix, List.infix_iff_prefix_suffix]
  exact exists_congr fun _ => and_comm

def stripPrefix (text leading : String) : Option String :=
  if leading.toList.isPrefixOf text.toList then
    some (String.ofList (text.toList.drop leading.toList.length))
  else none

/-- The part before the first occurrence of the separator, and the part after it. -/
def splitOnce (text : String) (separator : Char) : Option (String × String) :=
  match text.toList.dropWhile (· ≠ separator) with
  | [] => none
  | _ :: rest => some (String.ofList (text.toList.takeWhile (· ≠ separator)), String.ofList rest)

/-! ## JSON -/

/-- `serde_json::Value`. A number is the decimal that it is printed as, `mantissa` times ten to the `exponent`. What a
column with this value is read as is `Libraries.decodeJson`. -/
inductive Value
  | null
  | bool (value : Bool)
  | number (mantissa exponent : Int)
  | string (text : String)
  | array (items : List Value)
  | object (members : List (String × Value))
deriving Inhabited, Repr

namespace Value

def isObject : Value → Bool
  | .object _ => true
  | _ => false

def isArray : Value → Bool
  | .array _ => true
  | _ => false

def get (key : String) : Value → Option Value
  | .object members => (members.find? (·.1 == key)).map Prod.snd
  | _ => none

def asStr : Value → Option String
  | .string text => some text
  | _ => none

theorem asStr_eq_some {value : Value} {text : String} : value.asStr = some text ↔ value = .string text := by
  cases value <;> simp [asStr]

def int (n : Int) : Value := .number n 0

def uuid (id : Uuid) : Value := .string id.toText

theorem uuid_injective {id other : Uuid} (same : uuid id = uuid other) : id = other :=
  Uuid.toText_injective (Value.string.inj same)

end Value

/-! ## Third-party crates -/

/-- The functions of third-party crates that the server calls. -/
structure Libraries where
  /-- `JSONSchema::compile`; the compiled schema decides `is_valid`. -/
  compile : Value → Option (Value → Bool)
  /-- `Argon2::hash_password`, with the salt it is given. -/
  hashPassword : (salt password : String) → Option String
  /-- `PasswordHash::new` succeeds. -/
  parsesHash : String → Bool
  /-- `Argon2::verify_password` on a parsed hash. -/
  verifyPassword : (password hash : String) → Bool
  /-- The number that `serde_json` reads from the text that the database returns for a float or a larger integer. It
  need not be the same number: the parser of floats does not round correctly. -/
  readFloat : (mantissa exponent : Int) → Int × Int

namespace Libraries

variable (lib : Libraries)

/-- Integers that fit `i64` or `u64` are read exactly. -/
def readNumber (mantissa exponent : Int) : Value :=
  if exponent = 0 ∧ -9223372036854775808 ≤ mantissa ∧ mantissa < 18446744073709551616 then .number mantissa exponent
  else .number (lib.readFloat mantissa exponent).1 (lib.readFloat mantissa exponent).2

mutual

/-- `Json<Value>`, decoded from the text of a `JSONB` column. -/
def decodeJson : Value → Value
  | .null => .null
  | .bool value => .bool value
  | .number mantissa exponent => lib.readNumber mantissa exponent
  | .string text => .string text
  | .array items => .array (decodeItems items)
  | .object members => .object (decodeMembers members)

def decodeItems : List Value → List Value
  | [] => []
  | item :: rest => decodeJson item :: decodeItems rest

def decodeMembers : List (String × Value) → List (String × Value)
  | [] => []
  | (key, value) :: rest => (key, decodeJson value) :: decodeMembers rest

end

theorem decodeItems_eq (items : List Value) : lib.decodeItems items = items.map lib.decodeJson := by
  induction items with
  | nil => rfl
  | cons item rest ih => rw [decodeItems, ih, List.map_cons]

/-- A number is read back as some number. -/
theorem decodeJson_number (mantissa exponent : Int) :
    ∃ mantissa' exponent', lib.decodeJson (.number mantissa exponent) = .number mantissa' exponent' := by
  rw [decodeJson, readNumber]
  split
  · exact ⟨mantissa, exponent, rfl⟩
  · exact ⟨_, _, rfl⟩

@[simp] theorem decodeJson_string (text : String) : lib.decodeJson (.string text) = .string text := rfl

/-- A text is read back as it was stored, and nothing else is read as a text. -/
@[simp] theorem decodeJson_asStr (value : Value) : (lib.decodeJson value).asStr = value.asStr := by
  cases value with
  | number mantissa exponent =>
    obtain ⟨_, _, same⟩ := lib.decodeJson_number mantissa exponent
    rw [same]
    rfl
  | null | bool | string | array | object => rfl

theorem decodeJson_eq_string {value : Value} {text : String} :
    lib.decodeJson value = .string text ↔ value = .string text := by
  rw [← Value.asStr_eq_some, ← Value.asStr_eq_some, decodeJson_asStr]

/-- Members keep their keys. -/
@[simp] theorem decodeJson_get (value : Value) (key : String) :
    (lib.decodeJson value).get key = (value.get key).map lib.decodeJson := by
  cases value with
  | number mantissa exponent =>
    obtain ⟨_, _, same⟩ := lib.decodeJson_number mantissa exponent
    rw [same]
    rfl
  | null | bool | string | array => rfl
  | object members =>
    rw [decodeJson, Value.get, Value.get]
    induction members with
    | nil => rfl
    | cons member rest ih =>
      obtain ⟨name, value⟩ := member
      rw [decodeMembers, List.find?_cons, List.find?_cons]
      cases name == key with
      | true => rfl
      | false => exact ih

end Libraries

/-! ## `platform-core` -/

inductive RunStatus
  | pending
  | running
  | success
  | failed
deriving DecidableEq, Repr

def RunStatus.asStr : RunStatus → String
  | .pending => "pending"
  | .running => "running"
  | .success => "success"
  | .failed => "failed"

/-- The statuses from which no transition leads away. -/
def RunStatus.terminal : RunStatus → Bool
  | .success | .failed => true
  | .pending | .running => false

structure ChatMessage where
  role : String
  content : String
deriving DecidableEq, Repr

namespace ChatMessage

def toValue (message : ChatMessage) : Value :=
  .object [("role", .string message.role), ("content", .string message.content)]

def fromValue (value : Value) : Option ChatMessage := do
  let role ← (← value.get "role").asStr
  let content ← (← value.get "content").asStr
  return ⟨role, content⟩

/-- `serde_json::to_value` on a list of messages. -/
def listToValue (messages : List ChatMessage) : Value := .array (messages.map toValue)

/-- `serde_json::from_value` at type `Vec<ChatMessage>`. -/
def listFromValue : Value → Option (List ChatMessage)
  | .array items => items.mapM fromValue
  | _ => none

@[simp] theorem fromValue_toValue (message : ChatMessage) : fromValue message.toValue = some message := rfl

/-- What a request stored is what the agent loop reads back. -/
@[simp] theorem listFromValue_listToValue (messages : List ChatMessage) :
    listFromValue (listToValue messages) = some messages := by
  simp only [listFromValue, listToValue]
  induction messages with
  | nil => rfl
  | cons message rest ih => simp [ih]

theorem fromValue_decodeJson (lib : Libraries) (value : Value) :
    fromValue (lib.decodeJson value) = fromValue value := by
  have member (key : String) :
      ((lib.decodeJson value).get key).bind Value.asStr = (value.get key).bind Value.asStr := by
    rw [lib.decodeJson_get, Option.bind_map]
    exact congrArg _ (funext lib.decodeJson_asStr)
  simp only [fromValue, Option.bind_eq_bind, ← Option.bind_assoc] at member ⊢
  rw [member, member]

/-- Messages consist of texts only, so a column gives back what was stored in it. -/
@[simp] theorem listFromValue_decodeJson (lib : Libraries) (value : Value) :
    listFromValue (lib.decodeJson value) = listFromValue value := by
  cases value with
  | number mantissa exponent =>
    obtain ⟨_, _, same⟩ := lib.decodeJson_number mantissa exponent
    rw [same]
    rfl
  | null | bool | string | object => rfl
  | array items =>
    change (lib.decodeItems items).mapM fromValue = items.mapM fromValue
    rw [lib.decodeItems_eq]
    induction items with
    | nil => rfl
    | cons item rest ih => rw [List.map_cons, List.mapM_cons, List.mapM_cons, fromValue_decodeJson, ih]

theorem listToValue_injective {messages others : List ChatMessage}
    (same : listToValue messages = listToValue others) : messages = others := by
  have decoded := congrArg listFromValue same
  rw [listFromValue_listToValue, listFromValue_listToValue] at decoded
  exact Option.some.inj decoded

end ChatMessage

structure CreateTenantRequest where
  name : String

structure CreateToolRequest where
  name : String
  inputSchema : Value
  mockHandler : Value

structure CreateAgentRequest where
  name : Option String
  systemPrompt : String
  toolIds : List Uuid
  maxIterations : Int

structure StartRunRequest where
  messages : List ChatMessage

structure ToolResponse where
  toolId : Uuid
  name : String
  inputSchema : Value
  mockHandler : Value
  createdAt : Timestamp

structure AgentResponse where
  agentId : Uuid
  name : Option String
  systemPrompt : String
  toolIds : List Uuid
  maxIterations : Int
  createdAt : Timestamp

structure StartRunResponse where
  runId : Uuid
  status : RunStatus
deriving DecidableEq

structure RunResponse where
  runId : Uuid
  agentId : Uuid
  status : RunStatus
  finalAnswer : Option String
  errorReason : Option String
  createdAt : Timestamp
  startedAt : Option Timestamp
  finishedAt : Option Timestamp
deriving DecidableEq

/-- The event types that the `CHECK` on `run_traces.type` admits. -/
inductive EventType
  | runCreated
  | schedulerDecision
  | runStarted
  | llmCall
  | toolExec
  | retry
  | runEnd
deriving DecidableEq, Repr

structure TraceEventResponse where
  seq : Int
  eventType : EventType
  payload : Value
  createdAt : Timestamp

/-- `INVALID_TOOL_CALL_SENTINEL`. -/
def invalidToolCallSentinel : String := "__force_invalid_tool_call__"

/-! ## Errors -/

/-- The constraints of the migration, by their PostgreSQL names. -/
inductive Constraint
  | tenantsPkey
  | apiKeysPkey
  | apiKeysTenantIdFkey
  | uqApiKeysKeyPrefix
  | toolsPkey
  | toolsTenantIdFkey
  | toolsInputSchemaCheck
  | toolsMockHandlerCheck
  | uqToolsTenantNameActive
  | agentsPkey
  | agentsTenantIdFkey
  | agentsMaxIterationsCheck
  | uqAgentsTenantNameActive
  | agentToolsPkey
  | agentToolsAgentFkey
  | agentToolsToolFkey
  | runsPkey
  | runsAgentFkey
  | runsInputMessagesCheck
  | uqRunsIdempotency
  | runTracesPkey
  | runTracesRunFkey
  | runTracesSeqKey
  | runTracesPayloadCheck
deriving DecidableEq, Repr

/-- `sqlx::Error`, as far as the server tells its cases apart. -/
inductive SqlxError
  | database (constraint : Constraint)
  /-- A statement inside a transaction that an earlier error has already aborted. -/
  | inFailedSqlTransaction
  | numericValueOutOfRange
  | rowNotFound
  /-- The connection or the server failed; the statement had no effect. -/
  | unavailable
deriving DecidableEq, Repr

inductive AppError
  | invalidApiKey
  | notFound
  | duplicateName
  | badRequest (reason : String)
  | invalidToolArguments
  | schedulerCapacityExceeded
  | tenantConcurrencyLimitExceeded
  | internal (message : String)
  | db (error : SqlxError)
  | serdeJson
deriving DecidableEq, Repr

namespace AppError

def errorCode : AppError → String
  | invalidApiKey => "invalid_api_key"
  | notFound => "resource_not_found"
  | duplicateName => "duplicate_name"
  | badRequest _ => "invalid_request"
  | invalidToolArguments => "invalid_tool_arguments"
  | schedulerCapacityExceeded => "scheduler_capacity_exceeded"
  | tenantConcurrencyLimitExceeded => "tenant_concurrency_limit_exceeded"
  | internal _ | db _ | serdeJson => "internal_error"

def statusCode : AppError → ℕ
  | invalidApiKey => 401
  | notFound => 404
  | duplicateName => 409
  | badRequest _ => 400
  | invalidToolArguments => 422
  | schedulerCapacityExceeded => 503
  | tenantConcurrencyLimitExceeded => 429
  | internal _ | db _ | serdeJson => 500

end AppError

end AgentPlatform
