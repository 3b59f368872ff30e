import Anymone.Bytes

/-! # JSON-RPC messages

The JSON values of the Ethereum service, and what it reads of them: a call, a request of
one or several calls, the shape of an upstream reply, and the errors it answers with
itself.  The text of a value is `serde_json`'s (`JsonText`); its reader gives up on values
nested deeper than `recursionLimit`, so a value carries its `depth`.
-/

namespace Anymone.Eth

/-- `serde_json::Number`. -/
inductive JsonNumber where
  | int (n : Int)
  | float (bits : U64)
  deriving DecidableEq

/-- `serde_json::Value`. -/
inductive Json where
  | null
  | bool (b : Bool)
  | number (n : JsonNumber)
  | string (s : String)
  | array (items : List Json)
  | object (fields : List (String × Json))

namespace Json

mutual
/-- How deep arrays and objects nest. -/
def depth : Json → Nat
  | .array items => depthItems items + 1
  | .object fields => depthFields fields + 1
  | .null | .bool _ | .number _ | .string _ => 0

def depthItems : List Json → Nat
  | [] => 0
  | v :: items => max v.depth (depthItems items)

def depthFields : List (String × Json) → Nat
  | [] => 0
  | (_, v) :: fields => max v.depth (depthFields fields)
end

mutual
/-- Whether two values are equal. -/
def same : Json → Json → Bool
  | .null, .null => true
  | .bool a, .bool b => a == b
  | .number a, .number b => a == b
  | .string a, .string b => a == b
  | .array a, .array b => sameItems a b
  | .object a, .object b => sameFields a b
  | _, _ => false

def sameItems : List Json → List Json → Bool
  | [], [] => true
  | v :: a, w :: b => same v w && sameItems a b
  | _, _ => false

def sameFields : List (String × Json) → List (String × Json) → Bool
  | [], [] => true
  | (k, v) :: a, (l, w) :: b => k == l && same v w && sameFields a b
  | _, _ => false
end

mutual
theorem same_iff : ∀ {v w : Json}, same v w = true ↔ v = w
  | .null, w => by cases w <;> simp [same]
  | .bool _, w => by cases w <;> simp [same]
  | .number _, w => by cases w <;> simp [same]
  | .string _, w => by cases w <;> simp [same]
  | .array _, w => by cases w <;> simp [same, sameItems_iff]
  | .object _, w => by cases w <;> simp [same, sameFields_iff]

theorem sameItems_iff : ∀ {a b : List Json}, sameItems a b = true ↔ a = b
  | [], b => by cases b <;> simp [sameItems]
  | _ :: _, b => by cases b <;> simp [sameItems, same_iff, sameItems_iff]

theorem sameFields_iff : ∀ {a b : List (String × Json)}, sameFields a b = true ↔ a = b
  | [], b => by cases b <;> simp [sameFields]
  | (_, _) :: _, b => by
      cases b with
      | nil => simp [sameFields]
      | cons f b => simp [sameFields, same_iff, sameFields_iff, Prod.ext_iff]
end

instance : DecidableEq Json := fun v w => decidable_of_iff (same v w = true) same_iff

/-- `Map::get`, on an object. -/
def get? (key : String) : Json → Option Json
  | .object fields => (fields.find? (fun f => f.1 == key)).map Prod.snd
  | .null | .bool _ | .number _ | .string _ | .array _ => none

/-- A field with a new value, in its place or at the end. -/
def setField (key : String) (value : Json) : List (String × Json) → List (String × Json)
  | [] => [(key, value)]
  | (k, v) :: fields =>
      if k = key then (k, value) :: fields else (k, v) :: setField key value fields

/-- `value[key] = v`, on an object; the assignment is made on replies, which are objects. -/
def set (reply : Json) (key : String) (value : Json) : Json :=
  match reply with
  | .object fields => .object (setField key value fields)
  | other => other

/-- `as_str`. -/
def asStr? : Json → Option String
  | .string s => some s
  | .null | .bool _ | .number _ | .array _ | .object _ => none

/-- `as_i64`. -/
def asI64? : Json → Option Int
  | .number (.int n) => if -9223372036854775808 ≤ n ∧ n ≤ 9223372036854775807 then some n else none
  | .number (.float _) | .null | .bool _ | .string _ | .array _ | .object _ => none

/-- An integer, as `json!(n)` makes it. -/
def ofInt (n : Int) : Json := .number (.int n)

@[simp] theorem depth_object (fields : List (String × Json)) :
    (Json.object fields).depth = depthFields fields + 1 := by
  rw [depth]

@[simp] theorem depth_array (items : List Json) : (Json.array items).depth = depthItems items + 1 := by
  rw [depth]

end Json

/-- The nesting `serde_json` reads. -/
def recursionLimit : Nat := 127

/-- `serde_json`'s text of a value. -/
structure JsonText where
  /-- `to_vec` and `to_string`. -/
  write : Json → Bytes
  /-- `from_slice` and `from_str`. -/
  parse : Bytes → Option Json
  /-- What it reads does not nest too deep. -/
  parse_depth : ∀ {bytes v}, parse bytes = some v → v.depth ≤ recursionLimit

namespace JsonText
variable (J : JsonText)

/-- `to_vec` of an optional value. -/
def writeOption (v : Option Json) : Bytes := J.write (v.getD .null)

/-- `from_slice` as an optional value: `null` is none. -/
def parseOption (bytes : Bytes) : Option (Option Json) :=
  (J.parse bytes).map (fun
    | .null => none
    | v => some v)

end JsonText

/-! ## Calls -/

/-- `Error`. -/
inductive Error where
  | context
  | limit
  | authentication
  | rpc
  | encoding
  | binary
  deriving DecidableEq

/-- The text of an error. -/
def Error.text : Error → String
  | .context => "invalid envelope context"
  | .limit => "message exceeds protocol limits"
  | .authentication => "cryptographic authentication failed"
  | .rpc => "invalid JSON-RPC message"
  | .encoding => "encoding"
  | .binary => "binary encoding"

/-- `?`, out of a function whose errors are texts. -/
def orText {α : Type} : Except Error α → Except String α
  | .ok a => .ok a
  | .error e => .error e.text

/-- `MAX_MESSAGE_BYTES`. -/
def maxMessageBytes : Nat := 8 * 1024 * 1024

/-- `RpcCall`. -/
structure RpcCall where
  method : String
  params : Option Json
  id : Option Json
  deriving DecidableEq

/-- Whether a value can be an id: null, a string or a number. -/
def isId : Json → Bool
  | .null | .string _ | .number _ => true
  | .bool _ | .array _ | .object _ => false

/-- Whether a value can be parameters: an array or an object. -/
def isParams : Json → Bool
  | .array _ | .object _ => true
  | .null | .bool _ | .number _ | .string _ => false

/-- `RpcCall::parse`; its only error is `Error::Rpc`. -/
def RpcCall.parse (value : Json) : Option RpcCall :=
  if (value.get? "jsonrpc").bind Json.asStr? ≠ some "2.0" then none
  else do
    let method ← (value.get? "method").bind Json.asStr?
    if (value.get? "id").all isId && (value.get? "params").all isParams then
      some ⟨method, value.get? "params", value.get? "id"⟩
    else none

/-- `parse_request`: whether it is a batch, and its items. -/
def parseRequest (J : JsonText) (bytes : Bytes) (maxBatch : Nat) :
    Except Error (Bool × List Json) :=
  if maxMessageBytes < bytes.length then .error .limit
  else match J.parse bytes with
    | none => .error .encoding
    | some (.array items) =>
        if items.isEmpty || decide (maxBatch < items.length) then .error .rpc
        else .ok (true, items)
    | some value => .ok (false, [value])

/-- `validate_response`; its only error is `Error::Rpc`. -/
def validateResponse (response expectedId : Json) : Bool :=
  decide ((response.get? "jsonrpc").bind Json.asStr? = some "2.0") &&
    decide (response.get? "id" = some expectedId) &&
    ((response.get? "result").isSome != (response.get? "error").isSome) &&
    match response.get? "error" with
    | none => true
    | some error =>
        ((error.get? "code").bind Json.asI64?).isSome &&
          ((error.get? "message").bind Json.asStr?).isSome

/-- `rpc_error`. -/
def rpcError (id : Json) (code : Int) (message : String) : Json :=
  .object [("jsonrpc", .string "2.0"), ("id", id),
    ("error", .object [("code", .ofInt code), ("message", .string message)])]

/-- `unknown` of the forwarder. -/
def unknownOutcome : Json := rpcError .null (-32098) "Submission outcome unknown"

/-- `is_submission`. -/
def isSubmission (method : String) : Bool :=
  method == "eth_sendRawTransaction" || method == "eth_sendUserOperation"

/-- A reply that passes is an object. -/
theorem object_of_validateResponse {response id : Json} (h : validateResponse response id = true) :
    ∃ fields, response = .object fields := by
  unfold validateResponse at h
  simp only [Bool.and_eq_true, decide_eq_true_eq] at h
  cases response with
  | object fields => exact ⟨fields, rfl⟩
  | _ => simp [Json.get?] at h

end Anymone.Eth
