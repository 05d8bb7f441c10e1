import RewardPool.Bytes
import RewardPool.Json.Form

/-!
Calls of an execution node. A call has a name and parameters and brings back a value or a fault of
the node; a value that is not what the call promises is a fault as well. Numbers travel as
hexadecimal numerals and byte strings as hexadecimal digits.
-/
namespace RewardPool

inductive RpcFault where
  /-- The node answered with an error. -/
  | refused (code : String) (message : String) (data : Option Json)
  /-- The answer is not what the call promises. -/
  | unreadable (method : String)

namespace RpcFault

def message : RpcFault → String
  | refused code message data =>
    "server returned an error response: error code " ++ code ++ ": " ++ message
      ++ match data with
        | none => ""
        | some j => ", data: " ++ j.compact
  | unreadable method => "unexpected answer to " ++ method

def isSignedWord (spelling : String) : Bool :=
  match spelling.toList with
  | '-' :: digits => (Numeral.plain? digits).any (· ≤ 1 <<< 63)
  | digits => (Numeral.plain? digits).any (· < 1 <<< 63)

/-- An error object of a node. Its code is a signed word, and it may lack a message. -/
def ofJson? (j : Json) : Option RpcFault := do
  match ← j.columns? ["code", "message", "data"] with
  | [some (.number code), message, data] =>
    guard (isSignedWord code)
    return .refused code (← (message.map Json.text?).getD (some "")) data
  | _ => none

/-- The value or the fault in the response to a call. -/
def ofResponse (method : String) (j : Json) : Except RpcFault Json :=
  match j.columns? ["result", "error"] with
  | some [result, none] | some [result, some .null] => .ok (result.getD .null)
  | some [_, some e] => .error ((ofJson? e).getD (.unreadable method))
  | _ => .error (.unreadable method)

end RpcFault

/-- A node, by what its calls bring back. -/
structure RpcNode (m : Type → Type) where
  call : String → List Json → m (Except RpcFault Json)

namespace RpcNode

variable {α : Type} {m : Type → Type} [Monad m]

def ask (n : RpcNode m) (method : String) (parameters : List Json) (read : Json → Option α) :
    m (Except RpcFault α) := do
  match ← n.call method parameters with
  | .error fault => return .error fault
  | .ok j =>
    match read j with
    | some a => return .ok a
    | none => return .error (.unreadable method)

end RpcNode

namespace Json

def ofQuantity (n : Nat) : Json := ofText (Numeral.hexadecimal n)

def ofBytes (bytes : List UInt8) : Json := ofText ("0x" ++ hexOfBytes bytes)

/-- A number of so many bits at most, as a numeral in the base it names or as a plain one. -/
def quantity? (bits : Nat) : Json → Option Nat
  | .number spelling => do
    let n ← Numeral.plain? spelling.toList
    guard (n < 1 <<< 64 ∧ n < 1 <<< bits)
    return n
  | .string spelling => do
    let text ← textOf? spelling
    let n ← Numeral.based? text.toList
    guard (n < 1 <<< bits)
    return n
  | _ => none

def wordQuantity? (j : Json) : Option UInt64 := (j.quantity? 64).map UInt64.ofNat

def priceQuantity? (j : Json) : Option GasPrice := (j.quantity? 128).map (BitVec.ofNat 128)

def spelledBytes? (spelling : String) : Option (List UInt8) := do
  let text ← textOf? spelling
  bytesOfHex? (dropHexMark text.toList)

/-- A byte string of any length, spelled or listed byte by byte. -/
def bytes? : Json → Option (List UInt8)
  | .string spelling => spelledBytes? spelling
  | .array items => items.mapM byte?
  | _ => none

def needWith? {α : Type} (read : Json → Option α) (j : Option Json) : Option α := j >>= read

/-- A value that may be left out, read in its own way. -/
def mayWith? {α : Type} (read : Json → Option α) (j : Option Json) : Option (Option α) :=
  match j with
  | none => some none
  | some .null => some none
  | some j => (read j).map some

end Json

end RewardPool
