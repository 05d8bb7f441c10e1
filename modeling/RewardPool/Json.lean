/-!
JSON values as they are spelled. Strings and numbers keep the characters that stand in the text, so
a value says exactly what was written, and what a spelling denotes is asked for where it matters.
Objects keep the order and the repetitions of their fields.
-/
namespace RewardPool

inductive Json where
  | null
  | bool (value : Bool)
  /-- A number, as it is spelled. -/
  | number (spelling : String)
  /-- A string, as it is spelled between its quotes. -/
  | string (spelling : String)
  | array (items : List Json)
  | object (fields : List (String × Json))
deriving Inhabited

namespace Json

/-- How the parts of a value are set apart: what breaks the line at a depth, and what follows a
key. -/
structure Layout where
  lineBreak : Nat → String
  colon : String

def Layout.compact : Layout where
  lineBreak _ := ""
  colon := ":"

/-- One item on a line, indented by two blanks for each depth. -/
def Layout.pretty : Layout where
  lineBreak depth := "\n" ++ String.ofList (List.replicate (2 * depth) ' ')
  colon := ": "

def quote (spelling : String) : String := "\"" ++ spelling ++ "\""

mutual

def render (l : Layout) (depth : Nat) : Json → String
  | null => "null"
  | bool true => "true"
  | bool false => "false"
  | number spelling => spelling
  | string spelling => quote spelling
  | array [] => "[]"
  | array (j :: items) =>
    "[" ++ l.lineBreak (depth + 1) ++ render l (depth + 1) j ++ renderItems l (depth + 1) items
      ++ l.lineBreak depth ++ "]"
  | object [] => "\x7b\x7d"
  | object ((key, j) :: fields) =>
    "\x7b" ++ l.lineBreak (depth + 1) ++ quote key ++ l.colon ++ render l (depth + 1) j
      ++ renderFields l (depth + 1) fields ++ l.lineBreak depth ++ "\x7d"

/-- The items of an array after its first. -/
def renderItems (l : Layout) (depth : Nat) : List Json → String
  | [] => ""
  | j :: items => "," ++ l.lineBreak depth ++ render l depth j ++ renderItems l depth items

/-- The fields of an object after its first. -/
def renderFields (l : Layout) (depth : Nat) : List (String × Json) → String
  | [] => ""
  | (key, j) :: fields =>
    "," ++ l.lineBreak depth ++ quote key ++ l.colon ++ render l depth j
      ++ renderFields l depth fields

end

def compact (j : Json) : String := j.render .compact 0

def pretty (j : Json) : String := j.render .pretty 0

end Json

end RewardPool
