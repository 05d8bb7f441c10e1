import RewardPool.Json.Token

/-!
Reads the value that a text spells. Tokens are taken one at a time against a stack of the arrays and
objects that are still open, and the text is read only if they are all closed and nothing follows.
A comma at the end of an array leaves a gap behind it. A value with gaps is not JSON, but readers that
look no further than the last item they need may still take it.
-/
namespace RewardPool.Json

/-- An array or an object that is still open, with the parts read so far in reverse. -/
inductive Frame where
  | array (before : List Json)
  /-- An object whose next value belongs to a key. -/
  | object (before : List (String × Json)) (key : String)

/-- What the reader has just read, or waits for. -/
inductive Stage where
  | wantValue
  /-- An array has just been opened. -/
  | wantItem
  /-- An object has just been opened. -/
  | wantField
  | wantKey (before : List (String × Json))
  | wantColon (before : List (String × Json)) (key : String)
  | haveValue (value : Json)

/-- What stands for the value that is missing behind a comma: a number without digits. -/
def gap : Json := number ""

mutual

/-- Whether nothing is missing in a value. -/
def isWhole : Json → Bool
  | number spelling => !spelling.isEmpty
  | array items => areWhole items
  | object fields => fieldsAreWhole fields
  | _ => true

def areWhole : List Json → Bool
  | [] => true
  | j :: items => isWhole j && areWhole items

def fieldsAreWhole : List (String × Json) → Bool
  | [] => true
  | (_, j) :: fields => isWhole j && fieldsAreWhole fields

end

structure Reader where
  frames : List Frame
  stage : Stage

namespace Reader

def start : Reader := ⟨[], .wantValue⟩

def begin (frames : List Frame) : Token → Option Reader
  | .mark .openArray => some ⟨.array [] :: frames, .wantItem⟩
  | .mark .openObject => some ⟨frames, .wantField⟩
  | .mark _ => none
  | .text spelling => some ⟨frames, .haveValue (.string spelling)⟩
  | .scalar value => some ⟨frames, .haveValue value⟩

def close (frames : List Frame) (value : Json) (t : Token) : Option Reader :=
  match frames, t with
  | .array before :: rest, .mark .comma => some ⟨.array (value :: before) :: rest, .wantValue⟩
  | .array before :: rest, .mark .closeArray =>
    some ⟨rest, .haveValue (.array (value :: before).reverse)⟩
  | .object before key :: rest, .mark .comma => some ⟨rest, .wantKey ((key, value) :: before)⟩
  | .object before key :: rest, .mark .closeObject =>
    some ⟨rest, .haveValue (.object ((key, value) :: before).reverse)⟩
  | _, _ => none

/-- Closes an array that ends in a comma. -/
def closeBehindComma : List Frame → Option Reader
  | .array before :: rest => some ⟨rest, .haveValue (.array (gap :: before).reverse)⟩
  | _ => none

def step (r : Reader) (t : Token) : Option Reader :=
  match r.stage, t with
  | .wantValue, .mark .closeArray => closeBehindComma r.frames
  | .wantValue, t => begin r.frames t
  | .wantItem, .mark .closeArray => some ⟨r.frames.drop 1, .haveValue (.array [])⟩
  | .wantItem, t => begin r.frames t
  | .wantField, .mark .closeObject => some ⟨r.frames, .haveValue (.object [])⟩
  | .wantField, .text key => some ⟨r.frames, .wantColon [] key⟩
  | .wantKey before, .text key => some ⟨r.frames, .wantColon before key⟩
  | .wantColon before key, .mark .colon => some ⟨.object before key :: r.frames, .wantValue⟩
  | .haveValue value, t => close r.frames value t
  | _, _ => none

def finish (r : Reader) : Option Json :=
  match r.frames, r.stage with
  | [], .haveValue value => some value
  | _, _ => none

end Reader

/-- The value that a text spells, which may have gaps. -/
def parseWithGaps? (text : String) : Option Json := do
  let tokens ← tokens? text.toList
  let reader ← tokens.foldlM Reader.step .start
  reader.finish

def parse? (text : String) : Option Json := (parseWithGaps? text).filter isWhole

end RewardPool.Json
