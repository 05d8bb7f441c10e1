import RewardPool.Execution.Shape

/-!
Reads of the execution chain: the transactions of a block, checked against the hash that the
consensus chain knows it by, its header, and receipts. A document that lacks its shape is not read at
all. Receipts are asked for in batches; a batch is answered as a whole, and the first failure in it
keeps later batches from being asked for.
-/
namespace RewardPool

inductive ExecutionError where
  | node (fault : RpcFault)
  | noBlock (number : BlockNumber)
  | otherBlock (number : BlockNumber) (found expected : Hash)
  | noTransactions (number : BlockNumber)
  | noReceipt (transaction : Hash)

def ExecutionError.message : ExecutionError → String
  | node fault => fault.message
  | noBlock number => "execution block " ++ Numeral.word number ++ " not found"
  | otherBlock number found expected =>
    "execution block " ++ Numeral.word number ++ " has hash " ++ found.text
      ++ " but the beacon block references " ++ expected.text
  | noTransactions number =>
    "execution block " ++ Numeral.word number ++ " returned without transactions"
  | noReceipt transaction => "receipt of " ++ transaction.text ++ " not found"

/-- A block of the execution chain. Its transactions may be listed by their hashes alone. -/
structure ExecutionBlock where
  hash : Hash
  header : Header
  transactions : Option (List Transaction)

structure MinedReceipt where
  receipt : Receipt
  succeeded : Bool

open Json (needWith? mayWith? need? may?)

/-- The number in the type of a transaction or receipt: one digit, or two with a zero in front. -/
def typeNumber? : List Char → Option Nat
  | ['0', 'x', digit] | ['0', 'x', '0', digit] => Numeral.digitIn? 5 digit
  | _ => none

namespace Transaction

/-- The type of a transaction, which old ones do not have. The mark before its digit may be large. -/
def type? : Option Json → Option UInt8
  | none | some .null => some 0
  | some j => do
    let number ← match (← j.text?).toList with
      | ['0', 'X', digit] => Numeral.digitIn? 5 digit
      | text => typeNumber? text
    return UInt8.ofNat number

/-- A transaction as a node lists it. The types with a flat price have it for their fee cap. -/
def ofNode? (j : Json) : Option Transaction := do
  match ← j.columns?
    ["hash", "type", "from", "to", "value", "gasPrice", "maxFeePerGas", "maxPriorityFeePerGas"] with
  | [hash, type, sender, recipient, value, gasPrice, feeCap, tipCap] =>
    let type ← type? type
    let kind ← TransactionKind.ofByte? type
    guard (kind.admits j)
    let value ← needWith? (Json.quantity? 256) value
    let common : Transaction :=
      { hash := ← need? hash, type, sender := ← need? sender, recipient := ← may? recipient,
        value := BitVec.ofNat 256 value, gasPrice := none, feeCap := 0, tipCap := none }
    if kind.hasFlatPrice then
      let price ← needWith? Json.priceQuantity? gasPrice
      return { common with gasPrice := some price, feeCap := price }
    else
      let feeCap ← needWith? Json.priceQuantity? feeCap
      let tipCap ← needWith? Json.priceQuantity? tipCap
      return { common with feeCap, tipCap := some tipCap }
  | _ => none

/-- The transactions of a block, or nothing if only their hashes are listed. -/
def listOfNode? (j : Option Json) : Option (Option (List Transaction)) := do
  match j with
  | none | some .null => return none
  | some j =>
    let items ← j.array?
    match items.mapM ofNode? with
    | some transactions => return some transactions
    | none =>
      guard (items.all Shape.hash.admits)
      return none

end Transaction

namespace ExecutionBlock

def ofNode? (j : Json) : Option ExecutionBlock := do
  guard (Shape.block.admits j)
  match ← j.columns? ["hash", "number", "baseFeePerGas", "gasUsed", "transactions"] with
  | [hash, number, baseFee, gasUsed, transactions] =>
    let header : Header :=
      { number := ← needWith? Json.wordQuantity? number
        baseFee := ← mayWith? Json.wordQuantity? baseFee
        gasUsed := ← needWith? Json.wordQuantity? gasUsed }
    return { hash := ← need? hash, header, transactions := ← Transaction.listOfNode? transactions }
  | _ => none

end ExecutionBlock

namespace MinedReceipt

/-- Whether a transaction succeeded: old receipts have the root of the state behind it in place of a
status, and do not say. -/
def succeeded? (status root : Option Json) : Option Bool :=
  match needWith? (Json.quantity? 1) status with
  | some status => some (status ≠ 0)
  | none => if root.any Shape.hash.admits then some true else none

def ofNode? (j : Json) : Option MinedReceipt := do
  guard (Shape.receipt.admits j)
  match ← j.columns? ["transactionHash", "gasUsed", "type", "status", "root"] with
  | [hash, gasUsed, type, status, root] =>
    guard (typeNumber? (← type >>= Json.text?).toList).isSome
    let receipt : Receipt :=
      { hash := ← need? hash, gasUsed := ← needWith? Json.wordQuantity? gasUsed }
    return { receipt, succeeded := ← succeeded? status root }
  | _ => none

end MinedReceipt

def Json.orNull? {α : Type} (read : Json → Option α) : Json → Option (Option α)
  | .null => some none
  | j => (read j).map some

/-- A node, with the number of receipts asked for at a time. -/
structure ExecutionNode (m : Type → Type) where
  node : RpcNode m
  batch : Nat

namespace ExecutionNode

variable {m : Type → Type} [Monad m]

def block (n : ExecutionNode m) (number : BlockNumber) (full : Bool) :
    m (Except ExecutionError ExecutionBlock) := do
  match ← n.node.ask "eth_getBlockByNumber" [.ofQuantity number.toNat, .bool full]
    (Json.orNull? ExecutionBlock.ofNode?) with
  | .error fault => return .error (.node fault)
  | .ok none => return .error (.noBlock number)
  | .ok (some b) => return .ok b

def transactions (n : ExecutionNode m) (number : BlockNumber) (expected : Hash) :
    m (Except ExecutionError (List Transaction)) := do
  match ← n.block number true with
  | .error e => return .error e
  | .ok b =>
    if b.hash ≠ expected then return .error (.otherBlock number b.hash expected)
    match b.transactions with
    | none => return .error (.noTransactions number)
    | some transactions => return .ok transactions

def header (n : ExecutionNode m) (number : BlockNumber) : m (Except ExecutionError Header) := do
  match ← n.block number false with
  | .error e => return .error e
  | .ok b => return .ok b.header

def receipt (n : RpcNode m) (transaction : Hash) : m (Except ExecutionError MinedReceipt) := do
  match ← n.ask "eth_getTransactionReceipt" [.ofText transaction.text]
    (Json.orNull? MinedReceipt.ofNode?) with
  | .error fault => return .error (.node fault)
  | .ok none => return .error (.noReceipt transaction)
  | .ok (some r) => return .ok r

def receiptsFrom (n : ExecutionNode m) : Nat → List Hash → m (Except ExecutionError (List Receipt))
  | 0, _ => return .ok []
  | rounds + 1, hashes => do
    if hashes.isEmpty then return .ok []
    let answers ← (hashes.take n.batch).mapM (receipt n.node)
    match answers.mapM id with
    | .error e => return .error e
    | .ok receipts =>
      match ← n.receiptsFrom rounds (hashes.drop n.batch) with
      | .error e => return .error e
      | .ok rest => return .ok (receipts.map (·.receipt) ++ rest)

/-- One receipt for each transaction, in order. -/
def receipts (n : ExecutionNode m) (hashes : List Hash) :
    m (Except ExecutionError (List Receipt)) :=
  n.receiptsFrom hashes.length hashes

/-- A node that is asked for at least one receipt at a time. -/
def ofNode (node : RpcNode m) (batch : Nat) : ExecutionNode m := ⟨node, max batch 1⟩

end ExecutionNode

end RewardPool
