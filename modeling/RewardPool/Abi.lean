import RewardPool.Keccak
import RewardPool.Rpc
import RewardPool.Utf8

/-!
How calls of a contract, what they bring back, and the reasons of reverted calls are laid out in
bytes. A call begins with the first four bytes of the hash of its signature; every value is a word
of thirty-two bytes, and a text is a length and its bytes at a place that a word points to.
-/
namespace RewardPool.Abi

def signatureHash (signature : String) : Hash := Keccak.digest signature.toUTF8.toList

/-- The bytes that a call or an error begins with. -/
def selector (signature : String) : List UInt8 := (signatureHash signature).toBytes.take 4

/-- A call with numbers as its arguments. -/
def call (signature : String) (arguments : List Nat) : List UInt8 :=
  selector signature ++ arguments.flatMap (bytesOfNat 32)

def word? (bytes : List UInt8) (i : Nat) : Option Nat :=
  let word := (bytes.drop (32 * i)).take 32
  if word.length = 32 then some (natOfBytes word) else none

/-- The text that the word at the beginning points to. -/
def text? (bytes : List UInt8) : Option String := do
  let place ← word? bytes 0
  guard (place ≤ bytes.length)
  let rest := bytes.drop place
  let length ← word? rest 0
  guard (length + 32 ≤ rest.length)
  return Utf8.mended ((rest.drop 32).take length)

def checkName? (code : Nat) : Option String :=
  match code with
  | 0x00 => some "generic/unspecified error"
  | 0x01 => some "assertion failed"
  | 0x11 => some "arithmetic underflow or overflow"
  | 0x12 => some "division or modulo by zero"
  | 0x21 => some "failed to convert value into enum type"
  | 0x22 => some "storage byte array incorrectly encoded"
  | 0x31 => some "called \x60.pop()\x60 on an empty array"
  | 0x32 => some "array out-of-bounds access"
  | 0x41 => some "memory allocation error"
  | 0x51 => some "called an invalid internal function"
  | _ => none

/-- The text of a failed check. Numbers with a name have two digits at least. -/
def checkText (code : Nat) : String :=
  match checkName? code with
  | some name => "panic: " ++ name ++ " (0x" ++ hexOfBytes [UInt8.ofNat code] ++ ")"
  | none => "panic: unknown code (" ++ Numeral.hexadecimal code ++ ")"

/-- The reason in the data of a reverted call: a text of its own, a failed check, or bytes that are a
text as they stand. -/
def reason? (data : List UInt8) : Option String :=
  let body := data.drop 4
  let coded :=
    if data.take 4 = selector "Error(string)" then
      (text? body).map fun reason => "revert: " ++ if reason.isEmpty then "<empty>" else reason
    else if data.take 4 = selector "Panic(uint256)" then (word? body 0).map checkText
    else none
  coded.or (Utf8.text? data)

def errorName? (names : List String) (data : List UInt8) : Option String :=
  names.find? fun name => data.take 4 = selector (name ++ "()")

mutual

def firstBytes? : Json → Option (List UInt8)
  | .string spelling => Json.spelledBytes? spelling
  | .object fields => firstFieldBytes? fields
  | _ => none

def firstFieldBytes? : List (String × Json) → Option (List UInt8)
  | [] => none
  | (_, j) :: fields => (firstBytes? j).or (firstFieldBytes? fields)

end

/-- Whether some characters stand among others in a row. -/
def mentions (part : List Char) : List Char → Bool
  | [] => part.isEmpty
  | c :: cs => part.isPrefixOf (c :: cs) || mentions part cs

def revertData? : RpcFault → Option (List UInt8)
  | .refused _ message (some data) =>
    if mentions "revert".toList message.toList then firstBytes? data else none
  | _ => none

def failureText (names : List String) (fault : RpcFault) : String :=
  match revertData? fault with
  | none => fault.message
  | some data =>
    match errorName? names data with
    | some name => name ++ "(" ++ name ++ ")"
    | none =>
      (reason? data).getD ("execution reverted with data 0x" ++ hexOfBytes data)

end RewardPool.Abi
