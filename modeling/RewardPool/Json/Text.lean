import RewardPool.Json
import RewardPool.Numeral

/-!
What a string denotes. Characters beyond the basic plane may be spelled as two escaped units, and a
unit of such a pair that stands alone denotes nothing.
-/
namespace RewardPool.Json

/-- The characters that have a short escape, by the letter that stands for them. -/
def shortEscape? : Char → Option Char
  | '"' => some '"'
  | '\\' => some '\\'
  | '/' => some '/'
  | 'b' => some '\x08'
  | 'f' => some '\x0c'
  | 'n' => some '\n'
  | 'r' => some '\r'
  | 't' => some '\t'
  | _ => none

/-- The unit that four hexadecimal digits name. -/
def unit? (a b c d : Char) : Option Nat := Numeral.read? 16 [a, b, c, d]

def isHighUnit (unit : Nat) : Bool := 0xD800 ≤ unit && unit < 0xDC00

def isLowUnit (unit : Nat) : Bool := 0xDC00 ≤ unit && unit < 0xE000

/-- The character of a pair of units. -/
def joinUnits (high low : Nat) : Char :=
  Char.ofNat (0x10000 + (high - 0xD800) * 0x400 + (low - 0xDC00))

/-- The characters that a spelling denotes. -/
def unescape? : List Char → Option (List Char)
  | [] => some []
  | '\\' :: 'u' :: a :: b :: c :: d :: rest => do
    let unit ← unit? a b c d
    if isHighUnit unit then
      match rest with
      | '\\' :: 'u' :: e :: f :: g :: h :: rest =>
        let low ← unit? e f g h
        guard (isLowUnit low)
        return joinUnits unit low :: (← unescape? rest)
      | _ => none
    else if isLowUnit unit then none
    else return Char.ofNat unit :: (← unescape? rest)
  | '\\' :: c :: rest => do
    let denoted ← shortEscape? c
    return denoted :: (← unescape? rest)
  | ['\\'] => none
  | c :: rest => do return c :: (← unescape? rest)

def textOf? (spelling : String) : Option String :=
  (unescape? spelling.toList).map String.ofList

/-- How a character is spelled: quotes, backslashes and control characters are escaped. -/
def escape (c : Char) : List Char :=
  if c = '"' then ['\\', '"']
  else if c = '\\' then ['\\', '\\']
  else if c = '\x08' then ['\\', 'b']
  else if c = '\x0c' then ['\\', 'f']
  else if c = '\n' then ['\\', 'n']
  else if c = '\r' then ['\\', 'r']
  else if c = '\t' then ['\\', 't']
  else if c.toNat < 0x20 then
    ['\\', 'u', '0', '0', Nat.digitChar (c.toNat / 16), Nat.digitChar (c.toNat % 16)]
  else [c]

def spell (text : String) : String := String.ofList (text.toList.flatMap escape)

def ofText (text : String) : Json := string (spell text)

def text? : Json → Option String
  | string spelling => textOf? spelling
  | _ => none

end RewardPool.Json
