import RewardPool.Json.Text

/-!
Cuts a text into the tokens of JSON: marks, strings, and words between them. The scanner reads one
character at a time, so scanning two texts in a row is scanning their concatenation.
-/
namespace RewardPool.Json

inductive Mark where
  | openArray
  | closeArray
  | openObject
  | closeObject
  | comma
  | colon
deriving DecidableEq

inductive Token where
  | mark (m : Mark)
  /-- A string, as it is spelled. -/
  | text (spelling : String)
  /-- A value that stands alone: a number or one of the three names. -/
  | scalar (value : Json)

def Mark.ofChar? : Char → Option Mark
  | '[' => some openArray
  | ']' => some closeArray
  | '\x7b' => some openObject
  | '\x7d' => some closeObject
  | ',' => some comma
  | ':' => some colon
  | _ => none

def isBlank (c : Char) : Bool := c = ' ' || c = '\t' || c = '\n' || c = '\r'

def isDigit (c : Char) : Bool := '0' ≤ c && c ≤ '9'

/-- Skips the digits at the front, of which there must be one. -/
def dropDigits? (cs : List Char) : Option (List Char) :=
  match cs with
  | c :: _ => if isDigit c then some (cs.dropWhile isDigit) else none
  | [] => none

/-- Skips an integer without leading zeros. -/
def dropInteger? : List Char → Option (List Char)
  | '0' :: rest => some rest
  | cs => dropDigits? cs

def dropFraction? : List Char → Option (List Char)
  | '.' :: rest => dropDigits? rest
  | cs => some cs

def dropSign : List Char → List Char
  | '+' :: rest => rest
  | '-' :: rest => rest
  | cs => cs

/-- Skips an exponent, if there is one. -/
def dropExponent? : List Char → Option (List Char)
  | 'e' :: rest => dropDigits? (dropSign rest)
  | 'E' :: rest => dropDigits? (dropSign rest)
  | cs => some cs

def isNumber (word : List Char) : Bool :=
  let digits := match word with
    | '-' :: rest => rest
    | cs => cs
  (dropInteger? digits >>= dropFraction? >>= dropExponent?) = some []

def scalar? (word : List Char) : Option Json :=
  if word = ['n', 'u', 'l', 'l'] then some null
  else if word = ['t', 'r', 'u', 'e'] then some (bool true)
  else if word = ['f', 'a', 'l', 's', 'e'] then some (bool false)
  else if isNumber word then some (number (String.ofList word))
  else none

/-- Where the scanner stands. Characters already read stand in reverse. -/
inductive Place where
  | between
  | word (read : List Char)
  | text (read : List Char)
  | escape (read : List Char)
  /-- Inside an escaped unit, with so many digits still to come. -/
  | unit (read : List Char) (missing : Nat)

/-- The tokens found so far, in reverse, and where the scanner stands. -/
structure Scanner where
  tokens : List Token
  place : Place

namespace Scanner

def start : Scanner := ⟨[], .between⟩

/-- Reads a character that does not belong to a token begun before it. -/
def begin (tokens : List Token) (c : Char) : Scanner :=
  if isBlank c then ⟨tokens, .between⟩
  else if c = '"' then ⟨tokens, .text []⟩
  else
    match Mark.ofChar? c with
    | some m => ⟨.mark m :: tokens, .between⟩
    | none => ⟨tokens, .word [c]⟩

def endsWord (c : Char) : Bool := isBlank c || c = '"' || (Mark.ofChar? c).isSome

def step (s : Scanner) (c : Char) : Option Scanner :=
  match s.place with
  | .between => some (begin s.tokens c)
  | .word read =>
    if endsWord c then (scalar? read.reverse).map fun j => begin (.scalar j :: s.tokens) c
    else some ⟨s.tokens, .word (c :: read)⟩
  | .text read =>
    if c = '"' then some ⟨.text (String.ofList read.reverse) :: s.tokens, .between⟩
    else if c = '\\' then some ⟨s.tokens, .escape (c :: read)⟩
    else if c.toNat < 0x20 then none
    else some ⟨s.tokens, .text (c :: read)⟩
  | .escape read =>
    if c = 'u' then some ⟨s.tokens, .unit (c :: read) 4⟩
    else if (shortEscape? c).isSome then some ⟨s.tokens, .text (c :: read)⟩
    else none
  | .unit read missing =>
    if (Numeral.digitIn? 16 c).isNone then none
    else if missing ≤ 1 then some ⟨s.tokens, .text (c :: read)⟩
    else some ⟨s.tokens, .unit (c :: read) (missing - 1)⟩

/-- All tokens, if the text may end here. -/
def finish (s : Scanner) : Option (List Token) :=
  match s.place with
  | .between => some s.tokens.reverse
  | .word read => (scalar? read.reverse).map fun j => (.scalar j :: s.tokens).reverse
  | _ => none

end Scanner

def tokens? (cs : List Char) : Option (List Token) :=
  cs.foldlM Scanner.step .start >>= Scanner.finish

end RewardPool.Json
