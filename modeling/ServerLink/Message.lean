import ServerLink.Json.Shape

/-!
# The messages of JSON-RPC 2.0

Each message is a record with an encoder, which writes its fields in a fixed order and leaves out
the optional ones that are absent, and a decoder, which fills in what may be left out.
-/

namespace ServerLink

open Json (Decoder Fields ShapeError)

/-- The version tag of every message. -/
def protocolVersion : String := "2.0"

/-- A field as an object's members, none if it is absent. -/
def Json.member? (name : String) (value : Option Json) : List (String × Json) :=
  (value.map (name, ·)).toList

/-- A call. -/
structure Request where
  jsonrpc : String := protocolVersion
  id : Nat
  method : String
  params : Json := .null
deriving DecidableEq

namespace Request

/-- Null parameters are left out. -/
def toJson (r : Request) : Json :=
  .object ([("jsonrpc", .string r.jsonrpc), ("id", .ofNat r.id), ("method", .string r.method)] ++
    Json.member? "params" (if r.params.isNull then none else some r.params))

def fields : Fields Request :=
  ((Fields.required "jsonrpc" Decoder.string).pair
    ((Fields.required "id" (Decoder.unsigned 64)).pair
      ((Fields.required "method" Decoder.string).pair
        (Fields.optional "params" .null Decoder.any)))).map
    fun (jsonrpc, id, method, params) => { jsonrpc, id, method, params }

def decode : Decoder Request := Json.record "Request" fields

end Request

/-- The error object of a failed call. -/
structure RpcError where
  code : Int
  message : String
  data : Option Json := none
deriving DecidableEq

namespace RpcError

def toJson (e : RpcError) : Json :=
  .object ([("code", .ofInt e.code), ("message", .string e.message)] ++ Json.member? "data" e.data)

def fields : Fields RpcError :=
  ((Fields.required "code" (Decoder.signed 64)).pair
    ((Fields.required "message" Decoder.string).pair
      (Fields.nullable "data" Decoder.any))).map
    fun (code, message, data) => { code, message, data }

def decode : Decoder RpcError := Json.record "RpcError" fields

def describe (e : RpcError) : String := "[" ++ toString e.code ++ "] " ++ e.message

end RpcError

/-- The answer to the request with the same id. -/
structure Response where
  jsonrpc : String := protocolVersion
  id : Nat
  result : Json := .null
  error : Option RpcError := none
deriving DecidableEq

namespace Response

def success (id : Nat) (result : Json) : Response := { id, result }

def failure (id : Nat) (error : RpcError) : Response := { id, error := some error }

/-- The version tag is the one of this protocol. -/
def isCompatible (r : Response) : Bool := r.jsonrpc == protocolVersion

/-- What the call came to: an error object counts more than a result. -/
def outcome (r : Response) : Except RpcError Json :=
  match r.error with
  | some e => .error e
  | none => .ok r.result

def toJson (r : Response) : Json :=
  .object ([("jsonrpc", .string r.jsonrpc), ("id", .ofNat r.id), ("result", r.result)] ++
    Json.member? "error" (r.error.map RpcError.toJson))

def fields : Fields Response :=
  ((Fields.optional "jsonrpc" protocolVersion Decoder.string).pair
    ((Fields.required "id" (Decoder.unsigned 64)).pair
      ((Fields.optional "result" .null Decoder.any).pair
        (Fields.nullable "error" RpcError.decode)))).map
    fun (jsonrpc, id, result, error) => { jsonrpc, id, result, error }

def decode : Decoder Response := Json.record "Response" fields

end Response

/-- A message of the server's own accord, which has no id. -/
structure Notification where
  jsonrpc : String := protocolVersion
  method : String
  params : Json := .null
deriving DecidableEq

namespace Notification

def toJson (n : Notification) : Json :=
  .object [("jsonrpc", .string n.jsonrpc), ("method", .string n.method), ("params", n.params)]

def fields : Fields Notification :=
  ((Fields.optional "jsonrpc" protocolVersion Decoder.string).pair
    ((Fields.required "method" Decoder.string).pair
      (Fields.optional "params" .null Decoder.any))).map
    fun (jsonrpc, method, params) => { jsonrpc, method, params }

def decode : Decoder Notification := Json.record "Notification" fields

end Notification

end ServerLink
