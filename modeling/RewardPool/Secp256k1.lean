import RewardPool.Keccak

/-!
The curve `y² = x³ + 7` over the field of `2²⁵⁶ - 2³² - 977` elements, as far as it takes to find the
address of a private key: the address is the end of the hash of the public key, which is the key's
multiple of the base point.
-/
namespace RewardPool.Secp256k1

/-- The number of elements of the field. -/
def fieldSize : Nat := (1 <<< 256) - (1 <<< 32) - 977

/-- The number of points of the curve. -/
def order : Nat := 0xFFFFFFFFFFFFFFFFFFFFFFFFFFFFFFFEBAAEDCE6AF48A03BBFD25E8CD0364141

/-- A point of the curve; nothing stands for the point at infinity. -/
abbrev Point := Option (Nat × Nat)

def basePoint : Point :=
  some (0x79BE667EF9DCBBAC55A06295CE870B07029BFCDB2DCE28D959F2815B16F81798,
    0x483ADA7726A3C4655DA4FBFC0E1108A8FD17B448A68554199C47D08FFB10D4B8)

def bits (width n : Nat) : List Bool := (List.range width).map n.testBit

def power (base exponent : Nat) : Nat :=
  ((bits 256 exponent).foldl
    (fun (result, square) bit =>
      (if bit then result * square % fieldSize else result, square * square % fieldSize))
    (1, base)).1

def divide (a b : Nat) : Nat := a * power b (fieldSize - 2) % fieldSize

/-- The third point on the line of the given slope through two points, reflected. -/
def meet (slope x₁ y₁ x₂ : Nat) : Point :=
  let x := (slope * slope + 2 * fieldSize - x₁ - x₂) % fieldSize
  some (x, (slope * (x₁ + fieldSize - x) + fieldSize - y₁) % fieldSize)

def double : Point → Point
  | none => none
  | some (x, y) => if y = 0 then none else meet (divide (3 * x * x) (2 * y)) x y x

def add : Point → Point → Point
  | none, q => q
  | p, none => p
  | some (x₁, y₁), some (x₂, y₂) =>
    if x₁ ≠ x₂ then meet (divide (y₂ + fieldSize - y₁) (x₂ + fieldSize - x₁)) x₁ y₁ x₂
    else if y₁ = y₂ then double (some (x₁, y₁))
    else none

def multiply (n : Nat) (p : Point) : Point :=
  ((bits 256 n).foldl (fun (sum, q) bit => (if bit then add sum q else sum, double q)) (none, p)).1

/-- The private key that a text spells: a number from one to the order of the curve. -/
def privateKey? (text : List Char) : Option Hash := do
  let key : Hash ← FixedBytes.ofText? text
  guard (0 < key.toNat ∧ key.toNat < order)
  return key

/-- The address that a private key controls. -/
def address (key : Hash) : Address :=
  match multiply key.toNat basePoint with
  | none => .zero
  | some (x, y) => .ofNat (Keccak.digest (bytesOfNat 32 x ++ bytesOfNat 32 y)).toNat

end RewardPool.Secp256k1
