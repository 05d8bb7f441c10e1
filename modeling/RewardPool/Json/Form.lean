import RewardPool.Bytes
import RewardPool.Json.Reader

/-!
Types with a JSON form. Writing is a function; reading is partial and takes a little more than what
writing produces: records may list their values in an array, names may stand as the only key of an
object, and byte strings may be arrays of bytes. Fields that a record does not have are ignored,
repeated ones are refused, and an optional value may be left out. An array of bytes is read up to the
last byte that is needed, and one more item is looked at only to see that it is no byte.
-/
namespace RewardPool

class JsonForm (α : Type) where
  toJson : α → Json
  ofJson? : Json → Option α

/-- Types that can be the keys of an object, by the spelling of a key. -/
class JsonKey (κ : Type) where
  spellKey : κ → String
  ofKey? : String → Option κ

export JsonForm (toJson ofJson?)

namespace Json

def nat? : Json → Option Nat
  | number spelling => Numeral.plain? spelling.toList
  | _ => none

def ofNat (n : Nat) : Json := number (Numeral.decimal n)

def array? : Json → Option (List Json)
  | array items => some items
  | _ => none

/-- The fields of an object by the text of their keys. -/
def fields? : Json → Option (List (String × Json))
  | object fields => fields.mapM fun (key, j) => (textOf? key).map (·, j)
  | _ => none

/-- The one field of a name, nothing where there is none; two are refused. -/
def uniqueField? (fields : List (String × Json)) (name : String) : Option (Option Json) :=
  match fields.filter (·.1 = name) with
  | [] => some none
  | [(_, j)] => some (some j)
  | _ => none

/-- The values of an object by the names of its fields, each if it is there. Other fields are ignored
if they are JSON at all. -/
def columns? (names : List String) (j : Json) : Option (List (Option Json)) := do
  let fields ← j.fields?
  guard (fields.all fun (name, j) => names.contains name || j.isWhole)
  names.mapM (uniqueField? fields)

/-- The values of a record by the names of its fields, each if it is there. -/
def record? (names : List String) (j : Json) : Option (List (Option Json)) :=
  match j with
  | array items => if items.length = names.length then some (items.map some) else none
  | _ => j.columns? names

/-- Reads the one field of a record that matters, which has to be there. -/
def inside? {α : Type} (name : String) (read : Json → Option α) (j : Json) : Option α := do
  match ← j.record? [name] with
  | [some inner] => read inner
  | _ => none

/-- A value that has to be there. -/
def need? {α : Type} [JsonForm α] (j : Option Json) : Option α := j >>= ofJson?

/-- A value that may be left out. -/
def may? {α : Type} [JsonForm α] (j : Option Json) : Option (Option α) :=
  match j with
  | none => some none
  | some .null => some none
  | some j => (ofJson? j).map some

/-- Whether a value is one token that denotes something. -/
def isScalar : Json → Bool
  | array _ | object _ => false
  | string spelling => (textOf? spelling).isSome
  | _ => true

def byte? (j : Json) : Option UInt8 :=
  j.nat?.bind fun n => if n < 256 then some (UInt8.ofNat n) else none

/-- A record written field by field. -/
def record (fields : List (String × Json)) : Json := object fields

/-- The value with the given name, which may also stand as the key of a null. -/
def choice? {α : Type} (all : List α) (name : α → String) (j : Json) : Option α := do
  let text ← match j with
    | string spelling => textOf? spelling
    | object [(key, .null)] => textOf? key
    | _ => none
  all.find? (name · = text)

end Json

instance : JsonForm Json where
  toJson j := j
  ofJson? j := if j.isWhole then some j else none

instance : JsonForm Bool where
  toJson := .bool
  ofJson?
    | .bool b => some b
    | _ => none

instance : JsonForm UInt64 where
  toJson n := Json.ofNat n.toNat
  ofJson? j := j.nat? >>= Numeral.word64?

instance : JsonForm UInt8 where
  toJson n := Json.ofNat n.toNat
  ofJson? := Json.byte?

instance : JsonForm GasPrice where
  toJson p := Json.ofNat p.toNat
  ofJson? j := j.nat? >>= Numeral.fit? 128

namespace Wei

/-- An amount is a word-sized number or a string that spells it. -/
def ofJson? : Json → Option Wei
  | .number spelling => do
    let n ← Numeral.plain? spelling.toList
    let word ← Numeral.word64? n
    return BitVec.ofNat 256 word.toNat
  | .string spelling => do
    let text ← Json.textOf? spelling
    ofText? text.toList
  | _ => none

end Wei

instance : JsonForm Wei where
  toJson w := .string (Wei.hexadecimal w)
  ofJson? := Wei.ofJson?

namespace FixedBytes

variable {n : Nat}

/-- Whether some items may stand behind the last byte: none, or one that is a token and no byte. -/
def mayFollow : List Json → Bool
  | [] => true
  | [j] => j.isScalar && j.byte?.isNone
  | _ => false

def ofJson? : Json → Option (FixedBytes n)
  | .string spelling => do
    let text ← Json.textOf? spelling
    ofText? text.toList
  | .array items => do
    guard (n ≤ items.length ∧ mayFollow (items.drop n))
    let bytes ← (items.take n).mapM Json.byte?
    return ofBytes bytes
  | _ => none

end FixedBytes

instance {n : Nat} : JsonForm (FixedBytes n) where
  toJson b := .string b.text
  ofJson? := FixedBytes.ofJson?

instance {α : Type} [JsonForm α] : JsonForm (Option α) where
  toJson
    | none => .null
    | some a => toJson a
  ofJson?
    | .null => some none
    | j => (ofJson? j).map some

instance {α : Type} [JsonForm α] : JsonForm (List α) where
  toJson items := .array (items.map toJson)
  ofJson?
    | .array items => items.mapM ofJson?
    | _ => none

instance : JsonKey UInt64 where
  spellKey n := Numeral.word n
  ofKey? spelling := Numeral.plain? spelling.toList >>= Numeral.word64?

instance {n : Nat} : JsonKey (FixedBytes n) where
  spellKey b := b.text
  ofKey? spelling := do
    let text ← Json.textOf? spelling
    FixedBytes.ofText? text.toList

instance {κ α : Type} [Ranked κ] [JsonKey κ] [JsonForm α] : JsonForm (SortedMap κ α) where
  toJson m := .object (m.entries.map fun (k, a) => (JsonKey.spellKey k, toJson a))
  ofJson?
    | .object fields => do
      let entries ← fields.mapM fun (key, j) => do
        let k ← JsonKey.ofKey? key
        let a ← ofJson? j
        return (k, a)
      return SortedMap.ofList entries
    | _ => none

def JsonForm.parse? {α : Type} [JsonForm α] (text : String) : Option α :=
  Json.parseWithGaps? text >>= ofJson?

end RewardPool
