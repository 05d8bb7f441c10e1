/-!
The characters that bytes spell. A byte that cannot continue the character begun before it ends that
character as a broken one and is read again as a first byte, so every byte belongs to exactly one
character, broken or whole.
-/
namespace RewardPool.Utf8

/-- A character of which some bytes are still to come, and the bounds of the next one. -/
structure Begun where
  value : Nat
  missing : Nat
  least : UInt8
  greatest : UInt8

/-- The characters read so far, in reverse, each nothing if it is broken. -/
structure Reader where
  read : List (Option Char)
  begun : Option Begun

namespace Reader

def start : Reader := ⟨[], none⟩

def begin (read : List (Option Char)) (b : UInt8) : Reader :=
  if b ≤ 0x7F then ⟨some (Char.ofNat b.toNat) :: read, none⟩
  else if 0xC2 ≤ b ∧ b ≤ 0xDF then ⟨read, some ⟨b.toNat - 0xC0, 1, 0x80, 0xBF⟩⟩
  else if b = 0xE0 then ⟨read, some ⟨0, 2, 0xA0, 0xBF⟩⟩
  else if b = 0xED then ⟨read, some ⟨0xD, 2, 0x80, 0x9F⟩⟩
  else if 0xE1 ≤ b ∧ b ≤ 0xEF then ⟨read, some ⟨b.toNat - 0xE0, 2, 0x80, 0xBF⟩⟩
  else if b = 0xF0 then ⟨read, some ⟨0, 3, 0x90, 0xBF⟩⟩
  else if 0xF1 ≤ b ∧ b ≤ 0xF3 then ⟨read, some ⟨b.toNat - 0xF0, 3, 0x80, 0xBF⟩⟩
  else if b = 0xF4 then ⟨read, some ⟨4, 3, 0x80, 0x8F⟩⟩
  else ⟨none :: read, none⟩

def step (r : Reader) (b : UInt8) : Reader :=
  match r.begun with
  | none => begin r.read b
  | some c =>
    if c.least ≤ b ∧ b ≤ c.greatest then
      let value := c.value * 64 + (b.toNat - 0x80)
      if c.missing ≤ 1 then ⟨some (Char.ofNat value) :: r.read, none⟩
      else ⟨r.read, some ⟨value, c.missing - 1, 0x80, 0xBF⟩⟩
    else begin (none :: r.read) b

def finish (r : Reader) : List (Option Char) :=
  match r.begun with
  | none => r.read.reverse
  | some _ => (none :: r.read).reverse

end Reader

/-- The characters of a byte string, each nothing if it is broken. -/
def characters (bytes : List UInt8) : List (Option Char) :=
  (bytes.foldl Reader.step .start).finish

def text? (bytes : List UInt8) : Option String :=
  ((characters bytes).mapM id).map String.ofList

/-- The text of bytes, with a replacement for each broken character. -/
def mended (bytes : List UInt8) : String :=
  String.ofList ((characters bytes).map (·.getD '\uFFFD'))

end RewardPool.Utf8
