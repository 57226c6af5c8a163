import Pitaya.Basic
import Pitaya.Protocol.Message

/-!
# The handshake response

What `ReceiveHandshakeResponse` and `SendHandshakeAck` read from the body of the server's
handshake packet. The parser of rapidjson and `utils::Decompress` are parameters; the
accessors are not, and applying one to a value of another kind is a fault.
-/

namespace Pitaya.Connection
open Pitaya.Protocol

/-- A parsed JSON value. A number is an integer where rapidjson stores it as one. -/
inductive Json where
  | null
  | bool (b : Bool)
  | int (n : ℤ)
  | double
  | string (s : Bytes)
  | array (values : List Json)
  | object (members : List (Bytes × Json))

namespace Json

def isUint64 : Json → Bool
  | .int n => 0 ≤ n ∧ n < 2 ^ 64
  | _ => false

def isInt : Json → Bool
  | .int n => -2 ^ 31 ≤ n ∧ n < 2 ^ 31
  | _ => false

def isString : Json → Bool
  | .string _ => true
  | _ => false

def isObject : Json → Bool
  | .object _ => true
  | _ => false

def findMember (name : Bytes) : List (Bytes × Json) → Option Json
  | [] => none
  | (n, v) :: members => if n = name then some v else findMember name members

/-- `HasMember`, which asserts that the value is an object. -/
def hasMember (name : Bytes) : Json → Except Fault Bool
  | .object members => .ok (findMember name members).isSome
  | _ => .error .badAccess

def get (name : Bytes) : Json → Except Fault Json
  | .object members =>
    match findMember name members with
    | some v => .ok v
    | none => .error .badAccess
  | _ => .error .badAccess

def getUint64 (v : Json) : Except Fault UInt64 :=
  match v with
  | .int n => if v.isUint64 then .ok (UInt64.ofNat n.toNat) else .error .badAccess
  | _ => .error .badAccess

def getInt (v : Json) : Except Fault ℤ :=
  match v with
  | .int n => if v.isInt then .ok n else .error .badAccess
  | _ => .error .badAccess

def cString (s : Bytes) : Bytes := s.takeWhile (· ≠ 0)

def getString : Json → Except Fault Bytes
  | .string s => .ok (cString s)
  | _ => .error .badAccess

def getObject : Json → Except Fault (List (Bytes × Json))
  | .object members => .ok members
  | _ => .error .badAccess

end Json

/-- The parameters of the development: the build, rapidjson's parser (`none` where
`HasParseError`) and `utils::Decompress` (its return code and its output). -/
structure Env where
  build : Build
  parse : Bytes → Option Json
  decompress : Bytes → ℤ × Bytes

def Env.builtAs (env : Env) (build : Build) : Env := { env with build := build }

def isCompressed : Bytes → Bool
  | b₀ :: b₁ :: _ :: _ =>
    (b₀ = 0x78 && (b₁ = 0x9C || b₁ = 0x01 || b₁ = 0xDA || b₁ = 0x5E)) || (b₀ = 0x1F && b₁ = 0x8B)
  | _ => false

def handshakeText (env : Env) (body : Bytes) : Option Bytes :=
  if isCompressed body then
    let (rc, output) := env.decompress body
    if rc ≠ 0 then none else some output
  else some body

def kSys : Bytes := Bytes.ofAscii "sys"
def kHeartbeat : Bytes := Bytes.ofAscii "heartbeat"
def kSerializer : Bytes := Bytes.ofAscii "serializer"
def kDict : Bytes := Bytes.ofAscii "dict"
def kJson : Bytes := Bytes.ofAscii "json"

structure HandshakeData where
  heartbeatInterval : Int64
  serializer : Bytes
  routeDict : RouteDict

def readSerializer (sys : Json) : Except Fault Bytes := do
  if ← sys.hasMember kSerializer then
    let v ← sys.get kSerializer
    if v.isString then v.getString else return kJson
  else return kJson

def collectRoutes : List (Bytes × Json) → RouteDict → Except Fault RouteDict
  | [], dict => .ok dict
  | (name, v) :: members, dict =>
    if v.isInt then do
      let code ← v.getInt
      collectRoutes members (UnorderedMap.insertNew dict (Json.cString name) code)
    else collectRoutes members dict

def readRouteDict (sys : Json) : Except Fault RouteDict := do
  if ← sys.hasMember kDict then
    let v ← sys.get kDict
    if v.isObject then
      let members ← v.getObject
      collectRoutes members ∅
    else return ∅
  else return ∅

/-- The checks of `SendHandshakeAck`; `none` is the error `InvalidHeartbeatJson`. -/
def readHandshake (env : Env) (handshakeResponse : Bytes) : Except Fault (Option HandshakeData) :=
  match env.parse (Json.cString handshakeResponse) with
  | none => .ok none
  | some doc => do
    if !(← doc.hasMember kSys) then return none
    let sys ← doc.get kSys
    if !(← sys.hasMember kHeartbeat) then return none
    let heartbeat ← sys.get kHeartbeat
    if !heartbeat.isUint64 then return none
    let serializer ← readSerializer sys
    let routeDict ← readRouteDict sys
    let seconds ← heartbeat.getUint64
    return some ⟨seconds.toInt64, serializer, routeDict⟩

end Pitaya.Connection
