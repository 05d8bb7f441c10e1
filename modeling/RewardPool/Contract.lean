import RewardPool.Abi
import RewardPool.Chain
import RewardPool.Execution

/-!
The pool contract as a client sees it: views, the events of a range of blocks in the order of the
chain, and the transaction that replaces the root. A root is first tried out as a call, so that a
revert comes back with its reason; only then is the transaction sent and its receipt awaited.
-/
namespace RewardPool

open Json (needWith? mayWith? need? may?)

inductive ContractError where
  /-- A view failed, or brought back what cannot be read. -/
  | view (fault : RpcFault)
  | node (fault : RpcFault)
  | noReceipt (transaction : Hash)
  | events (signature : String)
  | logWithout (part : String)
  | reverted (method reason : String)
  | unsent (method reason : String)
  | outOfGas (method : String) (used limit : UInt64) (transaction : Hash)
  | failedOnChain (method : String) (transaction : Hash)

def ContractError.message : ContractError → String
  | view fault => fault.message
  | node fault => fault.message
  | noReceipt transaction => "receipt of " ++ transaction.text ++ " not found"
  | events signature => "Failed to query " ++ signature ++ " events"
  | logWithout part => "log without " ++ part
  | reverted method reason => method ++ " reverted: " ++ reason
  | unsent method reason => method ++ " failed to send: " ++ reason
  | outOfGas method used limit transaction =>
    method ++ " ran out of gas (used " ++ Numeral.word used ++ " of " ++ Numeral.word limit
      ++ " limit). Tx: " ++ transaction.text
  | failedOnChain method transaction =>
    method ++ " reverted on-chain. Tx hash: " ++ transaction.text

/-- A log of a contract, and where it stands in the chain if its transaction is mined. -/
structure Log where
  topics : List Hash
  data : List UInt8
  block : Option BlockNumber
  logIndex : Option UInt64
  transaction : Option Hash

/-- What an event is called and how its data is read. -/
structure EventKind (α : Type) where
  signature : String
  read : List UInt8 → Option α

structure TransactionRequest where
  chainId : Nat
  nonce : Nat
  gas : Nat
  feeCap : Nat
  tipCap : Nat
  recipient : Address
  input : List UInt8

structure Wallet (m : Type → Type) where
  address : Address
  sign : TransactionRequest → m (List UInt8)

/-- The contract at an address, reached through a node. -/
structure PoolContract (m : Type → Type) where
  node : RpcNode m
  address : Address
  gasLimit : Option UInt64
  wallet : Option (Wallet m)

namespace Log

def ofNode? (j : Json) : Option Log := do
  guard (Shape.log.admits j)
  match ← j.columns? ["topics", "data", "blockNumber", "logIndex", "transactionHash"] with
  | [topics, data, block, logIndex, transaction] =>
    return { topics := ← need? topics, data := ← needWith? Json.bytes? data,
             block := ← mayWith? Json.wordQuantity? block,
             logIndex := ← mayWith? Json.wordQuantity? logIndex,
             transaction := ← may? transaction }
  | _ => none

/-- The place of a part that may be missing: what is missing comes first. -/
def place : Option UInt64 → Nat
  | none => 0
  | some n => n.toNat + 1

def notAfter (a b : Log) : Bool :=
  place a.block < place b.block ||
    (place a.block = place b.block && place a.logIndex ≤ place b.logIndex)

def event? {α : Type} (kind : EventKind α) (log : Log) : Option (α × Log) := do
  guard (log.topics = [Abi.signatureHash kind.signature])
  return (← kind.read log.data, log)

def position (log : Log) : Except ContractError (BlockNumber × UInt64 × Hash) :=
  match log.block, log.logIndex, log.transaction with
  | none, _, _ => .error (.logWithout "block number")
  | _, none, _ => .error (.logWithout "log index")
  | _, _, none => .error (.logWithout "transaction hash")
  | some block, some logIndex, some transaction => .ok (block, logIndex, transaction)

end Log

namespace EventKind

def subscription : EventKind (Address × Wei × ValidatorIndex) where
  signature := "SubscribeValidator(address,uint256,uint64)"
  read data := do
    let sender ← Abi.word? data 0
    let collateral ← Abi.word? data 1
    let validator ← Abi.word? data 2
    return (.ofNat sender, BitVec.ofNat 256 collateral, UInt64.ofNat validator)

def unsubscription : EventKind (Address × ValidatorIndex) where
  signature := "UnsubscribeValidator(address,uint64)"
  read data := do
    let sender ← Abi.word? data 0
    let validator ← Abi.word? data 1
    return (.ofNat sender, UInt64.ofNat validator)

end EventKind

namespace Subscription

def ofEvent (e : (Address × Wei × ValidatorIndex) × Log) : Except ContractError Subscription := do
  let ((sender, collateral, validator), log) := e
  let (block, logIndex, transaction) ← log.position
  return { validator, sender, collateral, block, logIndex, transaction }

end Subscription

namespace Unsubscription

def ofEvent (e : (Address × ValidatorIndex) × Log) : Except ContractError Unsubscription := do
  let ((sender, validator), log) := e
  let (block, logIndex, transaction) ← log.position
  return { validator, sender, block, logIndex, transaction }

end Unsubscription

structure FeeEstimate where
  feeCap : Nat
  tipCap : Nat
deriving DecidableEq

namespace FeeEstimate

/-- The middle one of some tips, or the mean of the two in the middle; one wei if there are none. -/
def middleTip (tips : List Nat) : Nat :=
  let tips := (tips.filter (0 < ·)).mergeSort
  let half := tips.length / 2
  let upper := tips.getD half 1
  max 1 (if tips.length % 2 = 0 then (tips.getD (half - 1) 1 + upper) / 2 else upper)

/-- Twice the base fee of the latest block, and a tip. -/
def ofBaseFee (baseFee : Nat) (tips : List Nat) : FeeEstimate :=
  let tipCap := middleTip tips
  { feeCap := 2 * baseFee + tipCap, tipCap }

end FeeEstimate

structure FeeHistory where
  /-- The base fee of the latest block, if the history goes that far. -/
  baseFee : Option Nat
  /-- The tip of each block that has one. -/
  tips : List Nat

namespace FeeHistory

/-- The base fees are those of the blocks and of the one to come, so the latest block is the one before
last. -/
def ofNode? (j : Json) : Option FeeHistory := do
  guard (Shape.feeHistory.admits j)
  match ← j.columns? ["baseFeePerGas", "reward"] with
  | [fees, rewards] =>
    let fees ← ((← mayWith? Json.array? fees).getD []).mapM (Json.quantity? 128)
    let tips ← ((← mayWith? Json.array? rewards).getD []).mapM fun row => do
      (← row.array?).mapM (Json.quantity? 128)
    return { baseFee := fees.reverse[1]?, tips := tips.filterMap (·.head?) }
  | _ => none

end FeeHistory

namespace PoolContract

variable {α : Type} {m : Type → Type} [Monad m]

def errorNames : List String :=
  ["NotOracleMember", "InvalidProof", "InvalidCollateral", "NothingToClaim"]

/-- A call of the contract as a parameter. With a wallet it is made in the name of its owner. -/
def callObject (c : PoolContract m) (input : List UInt8) : List (String × Json) :=
  (c.wallet.map fun w => ("from", Json.ofText w.address.text)).toList
    ++ [("input", .ofBytes input), ("to", .ofText c.address.text)]

/-- Reads the first word that a view brings back. -/
def view (c : PoolContract m) (input : List UInt8) (block : Json) (read : Nat → α) :
    m (Except ContractError α) := do
  match ← c.node.ask "eth_call" [.object (c.callObject input), block]
    fun j => j.bytes? >>= (Abi.word? · 0) with
  | .error fault => return .error (.view fault)
  | .ok word => return .ok (read word)

def latest : Json := .ofText "latest"

def rewardsRoot (c : PoolContract m) : m (Except ContractError Hash) :=
  c.view (Abi.call "rewardsRoot()" []) latest .ofNat

def claimedBalance (c : PoolContract m) (a : Address) : m (Except ContractError Wei) :=
  c.view (Abi.call "claimedBalance(address)" [a.toNat]) latest (BitVec.ofNat 256)

def collateral (c : PoolContract m) : m (Except ContractError Wei) :=
  c.view (Abi.call "subscriptionCollateral()" []) latest (BitVec.ofNat 256)

/-- Whether an address may update the root as of a block. -/
def isMember (c : PoolContract m) (a : Address) (block : BlockNumber) :
    m (Except ContractError Bool) :=
  c.view (Abi.call "oracleMembers(address)" [a.toNat]) (.ofQuantity block.toNat) (· ≠ 0)

/-- The events of a kind in a range of blocks, in the order of the chain. -/
def events (c : PoolContract m) (kind : EventKind α) (first last : BlockNumber) :
    m (Except ContractError (List (α × Log))) := do
  let filter : Json :=
    .object
      [("address", .ofText c.address.text), ("fromBlock", .ofQuantity first.toNat),
       ("toBlock", .ofQuantity last.toNat),
       ("topics", .array [.ofText (Abi.signatureHash kind.signature).text])]
  match ← c.node.ask "eth_getLogs" [filter]
    fun j => j.array? >>= List.mapM fun log => Log.ofNode? log >>= Log.event? kind with
  | .error _ => return .error (.events kind.signature)
  | .ok events => return .ok (events.mergeSort fun a b => a.2.notAfter b.2)

def subscriptions (c : PoolContract m) (first last : BlockNumber) :
    m (Except ContractError (List Subscription)) := do
  match ← c.events .subscription first last with
  | .error e => return .error e
  | .ok events => return events.mapM Subscription.ofEvent

def unsubscriptions (c : PoolContract m) (first last : BlockNumber) :
    m (Except ContractError (List Unsubscription)) := do
  match ← c.events .unsubscription first last with
  | .error e => return .error e
  | .ok events => return events.mapM Unsubscription.ofEvent

def sendUnsigned (c : PoolContract m) (input : List UInt8) (fees : FeeEstimate) :
    m (Except RpcFault Hash) :=
  c.node.ask "eth_sendTransaction"
    [.object <|
      (c.gasLimit.map fun gas => ("gas", Json.ofQuantity gas.toNat)).toList
        ++ [("input", .ofBytes input), ("maxFeePerGas", .ofQuantity fees.feeCap),
            ("maxPriorityFeePerGas", .ofQuantity fees.tipCap), ("to", .ofText c.address.text),
            ("type", .ofQuantity 2)]]
    JsonForm.ofJson?

/-- What the node adds to a transaction before it is signed. -/
def complete (c : PoolContract m) (w : Wallet m) (input : List UInt8) (fees : FeeEstimate) :
    ExceptT RpcFault m TransactionRequest := do
  let ask := fun method parameters =>
    ExceptT.mk (c.node.ask method parameters (Json.quantity? 64))
  let chainId ← ask "eth_chainId" []
  let nonce ← ask "eth_getTransactionCount" [.ofText w.address.text, .ofText "pending"]
  let gas ← match c.gasLimit with
    | some gas => pure gas.toNat
    | none => ask "eth_estimateGas" [.object (c.callObject input), .ofText "pending"]
  return { chainId, nonce, gas, feeCap := fees.feeCap, tipCap := fees.tipCap,
           recipient := c.address, input }

def send (c : PoolContract m) (input : List UInt8) (fees : FeeEstimate) :
    m (Except RpcFault Hash) := do
  match c.wallet with
  | none => c.sendUnsigned input fees
  | some w =>
    match ← (c.complete w input fees).run with
    | .error fault => return .error fault
    | .ok request =>
      let raw ← w.sign request
      c.node.ask "eth_sendRawTransaction" [.ofBytes raw] JsonForm.ofJson?

def outcome (c : PoolContract m) (method : String) (r : MinedReceipt) : Except ContractError Hash :=
  if r.succeeded then .ok r.receipt.hash
  else
    match c.gasLimit with
    | some limit =>
      if limit ≤ r.receipt.gasUsed then
        .error (.outOfGas method r.receipt.gasUsed limit r.receipt.hash)
      else .error (.failedOnChain method r.receipt.hash)
    | none => .error (.failedOnChain method r.receipt.hash)

def mined (answer : Except ExecutionError MinedReceipt) (transaction : Hash) :
    Except ContractError MinedReceipt :=
  match answer with
  | .ok r => .ok r
  | .error (.node fault) => .error (.node fault)
  | .error _ => .error (.noReceipt transaction)

/-- Waits for a transaction: once its receipt is there, it is read again. -/
def confirm (c : PoolContract m) (method : String) (transaction : Hash) :
    m (Except ContractError Hash) := do
  match mined (← ExecutionNode.receipt c.node transaction) transaction with
  | .error e => return .error e
  | .ok _ =>
    match mined (← ExecutionNode.receipt c.node transaction) transaction with
    | .error e => return .error e
    | .ok r => return c.outcome method r

/-- What the next transaction should bid. Where the history has no base fee, the latest block has to
have one. -/
def fees (c : PoolContract m) : m (Except ContractError FeeEstimate) := do
  match ← c.node.ask "eth_feeHistory"
    [.ofQuantity 10, latest, .array [.number "20.0"]] FeeHistory.ofNode? with
  | .error fault => return .error (.node fault)
  | .ok history =>
    match history.baseFee.filter (0 < ·) with
    | some baseFee => return .ok (.ofBaseFee baseFee history.tips)
    | none =>
      let read := fun j => ExecutionBlock.ofNode? j >>= (·.header.baseFee)
      match ← c.node.ask "eth_getBlockByNumber" [latest, .bool false] read with
      | .error fault => return .error (.node fault)
      | .ok baseFee => return .ok (.ofBaseFee baseFee.toNat history.tips)

/-- Tries a transaction out, sends it and waits for it. -/
def invoke (c : PoolContract m) (method : String) (input : List UInt8) :
    m (Except ContractError Hash) := do
  match ← c.node.ask "eth_call" [.object (c.callObject input), latest] Json.bytes? with
  | .error fault => return .error (.reverted method (Abi.failureText errorNames fault))
  | .ok _ =>
    match ← c.fees with
    | .error e => return .error e
    | .ok fees =>
      match ← c.send input fees with
      | .error fault => return .error (.unsent method (Abi.failureText errorNames fault))
      | .ok transaction => c.confirm method transaction

/-- Replaces the root that the contract holds; brings back the transaction that did it. -/
def updateRoot (c : PoolContract m) (root : Hash) : m (Except ContractError Hash) :=
  c.invoke "updateRewardsRoot" (Abi.call "updateRewardsRoot(bytes32)" [root.toNat])

/-- Hands roots to the contract, if there is a wallet to pay for it. -/
def submitter? (c : PoolContract m) : Option (Submitter ContractError m) :=
  c.wallet.map fun w => ⟨w.address, c.updateRoot⟩

end PoolContract

end RewardPool
