import RewardPool.Json.Reader

/-!
What any two programs can be expected to agree on when they exchange JSON: every string denotes a
text, every number is in the range of doubles, and values are not too deep. Such values have one
spelling for each text and for each number. Whole numbers that fit into a word have their digits; all
other numbers are doubles, with a point among their digits or an exponent behind them.
-/
namespace RewardPool.Json

/-- The digits of an unsigned number as a whole number, and the power of ten that goes with them. -/
def scale (cs : List Char) : Nat × Int :=
  let value := fun digits => (Numeral.read? 10 digits).getD 0
  let rest := cs.dropWhile isDigit
  let fraction := match rest with
    | '.' :: rest => rest.takeWhile isDigit
    | _ => []
  let exponent : Int := match rest.dropWhile fun c => c = '.' || isDigit c with
    | _ :: '-' :: digits => -value digits
    | _ :: digits => value (dropSign digits)
    | [] => 0
  (value (cs.takeWhile isDigit ++ fraction), exponent - fraction.length)

/-- The least number that is rounded beyond all doubles. -/
def doubleBound : Nat := (1 <<< 1024) - (1 <<< 970)

/-- Whether a number is in the range of doubles. The count of its digits decides this except next to
the bound. -/
def isDouble (spelling : String) : Bool :=
  let (digits, exponent) := scale (dropSign spelling.toList)
  let size := (Numeral.write 10 digits).length + exponent
  digits = 0 || size ≤ 308
    || (size = 309
      && digits * Nat.pow 10 exponent.toNat < doubleBound * Nat.pow 10 (-exponent).toNat)

mutual

/-- Whether every string in a value denotes a text and every number is in range, in a value that is
not deeper than allowed. -/
def isSound (depth : Nat) : Json → Bool
  | number spelling => isDouble spelling
  | string spelling => (textOf? spelling).isSome
  | array items => 0 < depth && areSound (depth - 1) items
  | object fields => 0 < depth && fieldsAreSound (depth - 1) fields
  | _ => true

def areSound (depth : Nat) : List Json → Bool
  | [] => true
  | j :: items => isSound depth j && areSound depth items

def fieldsAreSound (depth : Nat) : List (String × Json) → Bool
  | [] => true
  | (key, j) :: fields =>
    (textOf? key).isSome && isSound depth j && fieldsAreSound depth fields

end

/-- The depth of values that every reader is expected to cope with. -/
def commonDepth : Nat := 127

/-- Whether a number is a word of a machine, signed or not. Zero has no sign. -/
def isWord (spelling : String) : Bool :=
  match spelling.toList with
  | '-' :: digits => (Numeral.plain? digits).any fun n => 0 < n && n ≤ 1 <<< 63
  | digits => (Numeral.plain? digits).any (· < 1 <<< 64)

/-- The digits of a positive number without zeros at the end, and the power of ten that goes with them. -/
def trimmed (value : Nat) (exponent : Int) : List Char × Int :=
  let digits := Numeral.write 10 value
  let kept := (digits.reverse.dropWhile (· = '0')).reverse
  (kept, exponent + (digits.length - kept.length : Nat))

/-- A double that is not negative. The point stands among at most sixteen digits or behind four zeros at
most; in all other places an exponent tells where it belongs. -/
def doubleText (value : Nat) (exponent : Int) : List Char :=
  if value = 0 then ['0', '.', '0'] else
  let (digits, exponent) := trimmed value exponent
  let zeros := fun (n : Int) => List.replicate n.toNat '0'
  let place := digits.length + exponent
  if 0 ≤ exponent ∧ place ≤ 16 then digits ++ zeros exponent ++ ['.', '0']
  else if 0 < place ∧ place ≤ 16 then
    digits.take place.toNat ++ '.' :: digits.drop place.toNat
  else if -5 < place ∧ place ≤ 0 then '0' :: '.' :: zeros (-place) ++ digits
  else
    let fraction := if digits.length = 1 then [] else '.' :: digits.drop 1
    let sign := if place < 1 then ['-'] else []
    digits.take 1 ++ fraction ++ 'e' :: sign ++ Numeral.write 10 (place - 1).natAbs

def respelledNumber (spelling : String) : String :=
  if isWord spelling then spelling
  else
    let cs := spelling.toList
    let (value, exponent) := scale (dropSign cs)
    String.ofList (cs.takeWhile (· = '-') ++ doubleText value exponent)

def respelledText (spelling : String) : String := ((textOf? spelling).map spell).getD spelling

mutual

def respelled : Json → Json
  | number spelling => number (respelledNumber spelling)
  | string spelling => string (respelledText spelling)
  | array items => array (respelledItems items)
  | object fields => object (respelledFields fields)
  | j => j

def respelledItems : List Json → List Json
  | [] => []
  | j :: items => respelled j :: respelledItems items

def respelledFields : List (String × Json) → List (String × Json)
  | [] => []
  | (key, j) :: fields => (respelledText key, respelled j) :: respelledFields fields

end

def exchanged? (text : String) : Option Json :=
  ((parse? text).filter (isSound commonDepth)).map respelled

end RewardPool.Json
