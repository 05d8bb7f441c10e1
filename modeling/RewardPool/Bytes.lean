import RewardPool.SortedMap
import RewardPool.Numeral

/-!
Byte strings of a fixed length, the names that chain data gives to three of the lengths, and amounts
of wei. A byte string is the number that its bytes spell from the most significant one on, so
comparing numbers compares bytes in order. Amounts wrap around at their width.
-/
namespace RewardPool

/-- An amount of wei, counted modulo the width of a machine word of the chain. -/
abbrev Wei := BitVec 256

/-- A price of one unit of gas. -/
abbrev GasPrice := BitVec 128

/-- A byte string of length `n`, as the number its bytes spell. -/
structure FixedBytes (n : Nat) where
  bits : BitVec (8 * n)
deriving DecidableEq

abbrev Address := FixedBytes 20
abbrev Hash := FixedBytes 32
abbrev Pubkey := FixedBytes 48

/-- The last `n` bytes of a number, most significant first. -/
def bytesOfNat (n : Nat) (value : Nat) : List UInt8 :=
  (List.range n).map fun i => UInt8.ofNat (value >>> (8 * (n - 1 - i)))

/-- The number that bytes spell, most significant first. -/
def natOfBytes (bytes : List UInt8) : Nat :=
  bytes.foldl (fun n b => n * 256 + b.toNat) 0

def hexOfBytes (bytes : List UInt8) : String :=
  String.ofList <| bytes.flatMap fun b => [Nat.digitChar (b.toNat / 16), Nat.digitChar (b.toNat % 16)]

/-- Reads hexadecimal digits in pairs. -/
def bytesOfHex? : List Char → Option (List UInt8)
  | [] => some []
  | a :: b :: rest => do
    let high ← Numeral.digitIn? 16 a
    let low ← Numeral.digitIn? 16 b
    let bytes ← bytesOfHex? rest
    return UInt8.ofNat (high * 16 + low) :: bytes
  | _ => none

/-- The digits that follow a hexadecimal mark, if the text has one. -/
def dropHexMark : List Char → List Char
  | '0' :: 'x' :: digits => digits
  | '0' :: 'X' :: digits => digits
  | digits => digits

namespace FixedBytes

variable {n : Nat}

def zero : FixedBytes n := ⟨0⟩

instance : Inhabited (FixedBytes n) := ⟨zero⟩

def isZero (b : FixedBytes n) : Bool := b.bits == 0

def ofNat (value : Nat) : FixedBytes n := ⟨BitVec.ofNat (8 * n) value⟩

def toNat (b : FixedBytes n) : Nat := b.bits.toNat

instance : Ranked (FixedBytes n) where
  rank := toNat
  rank_injective {a b} h := by
    cases a
    cases b
    exact congrArg FixedBytes.mk (BitVec.eq_of_toNat_eq h)

def toBytes (b : FixedBytes n) : List UInt8 := bytesOfNat n b.toNat

def ofBytes (bytes : List UInt8) : FixedBytes n := ofNat (natOfBytes bytes)

def fill (byte : UInt8) : FixedBytes n := ofBytes (List.replicate n byte)

/-- All digits, behind a hexadecimal mark. -/
def text (b : FixedBytes n) : String := "0x" ++ hexOfBytes b.toBytes

/-- Reads all digits of the length, with or without a hexadecimal mark. -/
def ofText? (text : List Char) : Option (FixedBytes n) := do
  let bytes ← bytesOfHex? (dropHexMark text)
  guard (bytes.length = n)
  return ofBytes bytes

end FixedBytes

namespace Wei

/-- Reads a numeral in the base it names, if the amount fits. -/
def ofText? (text : List Char) : Option Wei := Numeral.based? text >>= Numeral.fit? 256

def hexadecimal (w : Wei) : String := Numeral.hexadecimal w.toNat

def decimal (w : Wei) : String := Numeral.decimal w.toNat

def toBytes (w : Wei) : List UInt8 := bytesOfNat 32 w.toNat

def total (amounts : List Wei) : Wei := amounts.foldr (· + ·) 0

/-- The difference, or nothing where it would be negative. -/
def minus? (a b : Wei) : Option Wei := if b ≤ a then some (a - b) else none

/-- The difference, or zero where it would be negative. -/
def monus (a b : Wei) : Wei := if b ≤ a then a - b else 0

end Wei

end RewardPool
