/-!
Numbers as digits. Reading takes the digits one after the other; writing is the shortest form.
Three spellings are read: the plain decimal numeral of a JSON integer, the decimal numeral that may
carry a plus sign and leading zeros, and the numeral whose first two characters may choose its base
and in which underscores are free.
-/
namespace RewardPool.Numeral

/-- The value of a digit in bases up to thirty-six; either case of a letter counts. -/
def digit? (c : Char) : Option Nat :=
  if '0' ≤ c ∧ c ≤ '9' then some (c.toNat - '0'.toNat)
  else if 'a' ≤ c ∧ c ≤ 'z' then some (c.toNat - 'a'.toNat + 10)
  else if 'A' ≤ c ∧ c ≤ 'Z' then some (c.toNat - 'A'.toNat + 10)
  else none

def digitIn? (base : Nat) (c : Char) : Option Nat :=
  (digit? c).filter (· < base)

def extend? (base : Nat) (start : Nat) (digits : List Char) : Option Nat :=
  digits.foldlM (fun n c => (digitIn? base c).map (n * base + ·)) start

def read? (base : Nat) : List Char → Option Nat
  | [] => none
  | digits => extend? base 0 digits

/-- Writes a number with its fewest digits; zero has one. -/
def write (base n : Nat) : List Char := Nat.toDigits base n

def decimal (n : Nat) : String := String.ofList (write 10 n)

def word (n : UInt64) : String := decimal n.toNat

def hexadecimal (n : Nat) : String := "0x" ++ String.ofList (write 16 n)

/-- A decimal numeral without sign or leading zeros. -/
def plain? : List Char → Option Nat
  | ['0'] => some 0
  | '0' :: _ => none
  | digits => read? 10 digits

/-- A decimal numeral that may have a plus sign and leading zeros. -/
def signed? : List Char → Option Nat
  | '+' :: digits => read? 10 digits
  | digits => read? 10 digits

/-- The base that the first two characters name, and the digits that follow them. -/
def splitBase : List Char → Nat × List Char
  | '0' :: 'x' :: digits => (16, digits)
  | '0' :: 'X' :: digits => (16, digits)
  | '0' :: 'o' :: digits => (8, digits)
  | '0' :: 'O' :: digits => (8, digits)
  | '0' :: 'b' :: digits => (2, digits)
  | '0' :: 'B' :: digits => (2, digits)
  | digits => (10, digits)

/-- A numeral in the base it names, decimal by default. Underscores may stand anywhere among the
digits, and no digits at all is zero. -/
def based? (text : List Char) : Option Nat :=
  let (base, digits) := splitBase text
  extend? base 0 (digits.filter (· != '_'))

def fit? (bits : Nat) (n : Nat) : Option (BitVec bits) :=
  if n < 1 <<< bits then some (BitVec.ofNat bits n) else none

def word64? (n : Nat) : Option UInt64 :=
  if n < 1 <<< 64 then some (UInt64.ofNat n) else none

end RewardPool.Numeral
