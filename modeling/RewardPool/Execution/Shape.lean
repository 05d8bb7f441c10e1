import RewardPool.Block
import RewardPool.Rpc.Shape

/-!
The shapes of blocks, transactions, receipts, logs and fees of the execution chain. Which fields a
transaction has depends on its kind, and its signature says in one of two ways which of two points
is meant.
-/
namespace RewardPool

open ShapeField (needed optional nullable omissible)

namespace Shape

def withdrawal : Shape :=
  record
    [(needed "index", quantity 64), (needed "validatorIndex", quantity 64),
      (needed "address", address), (needed "amount", quantity 64)]

/-- A block but for its transactions. -/
def block : Shape :=
  object
    [(needed "hash", hash), (needed "parentHash", hash), (needed "sha3Uncles", hash),
      (needed "miner", address), (needed "stateRoot", hash), (needed "transactionsRoot", hash),
      (needed "receiptsRoot", hash), (needed "logsBloom", fixedBytes 256),
      (needed "difficulty", quantity 256), (needed "number", quantity 64),
      (needed "gasLimit", quantity 64), (needed "gasUsed", quantity 64),
      (needed "timestamp", quantity 64), (needed "extraData", bytes), (needed "mixHash", hash),
      (needed "nonce", fixedBytes 8), (optional "baseFeePerGas", quantity 64),
      (optional "withdrawalsRoot", hash), (optional "blobGasUsed", quantity 64),
      (optional "excessBlobGas", quantity 64), (optional "parentBeaconBlockRoot", hash),
      (optional "requestsHash", hash), (optional "totalDifficulty", quantity 256),
      (optional "size", quantity 256), (omissible "uncles", list hash),
      (optional "withdrawals", list withdrawal)]

def log : Shape :=
  object
    [(needed "address", address), (needed "topics", list hash), (needed "data", bytes),
      (nullable "blockNumber", quantity 64), (nullable "transactionIndex", quantity 64),
      (nullable "logIndex", quantity 64), (optional "blockHash", hash),
      (optional "transactionHash", hash), (optional "blockTimestamp", quantity 64),
      (omissible "removed", flag)]

def feeHistory : Shape :=
  object
    [(omissible "baseFeePerGas", list (quantity 128)), (needed "gasUsedRatio", list number),
      (omissible "baseFeePerBlobGas", list (quantity 128)),
      (omissible "blobGasUsedRatio", list number), (omissible "oldestBlock", quantity 64),
      (optional "reward", list (list (quantity 128)))]

/-- A receipt but for its type and its outcome. -/
def receipt : Shape :=
  object
    [(needed "transactionHash", hash), (needed "gasUsed", quantity 64),
      (needed "cumulativeGasUsed", quantity 64), (needed "logsBloom", fixedBytes 256),
      (needed "from", address), (needed "logs", list log),
      (omissible "effectiveGasPrice", quantity 128), (optional "transactionIndex", quantity 64),
      (optional "blockNumber", quantity 64), (optional "blockHash", hash),
      (optional "blobGasUsed", quantity 64), (optional "blobGasPrice", quantity 128),
      (optional "to", address), (optional "contractAddress", address)]

def accessList : Shape :=
  list (record [(needed "address", address), (nullable "storageKeys", list hash)])

/-- A permission to act in the name of an account, with its signature. -/
def authorization : Shape :=
  object
    [(needed "chainId", quantity 256), (needed "address", address), (needed "nonce", quantity 64),
      (⟨["yParity", "v"], false, false⟩, quantity 8), (needed "r", quantity 256),
      (needed "s", quantity 256)]

def commonFields : List (ShapeField × Shape) :=
  [(needed "hash", hash), (optional "blockHash", hash), (optional "blockNumber", quantity 64),
    (optional "transactionIndex", quantity 64), (needed "from", address),
    (optional "gasPrice", quantity 128), (needed "nonce", quantity 64),
    (⟨["gas", "gasLimit"], false, false⟩, quantity 64), (needed "value", quantity 256),
    (needed "input", bytes), (needed "r", quantity 256), (needed "s", quantity 256)]

end Shape

namespace TransactionKind

/-- The fields of a kind of transaction besides those that every transaction has. -/
def ownFields (kind : TransactionKind) : List (ShapeField × Shape) :=
  let recipient := if kind.mayCreate then optional "to" else needed "to"
  let price :=
    if kind.hasFlatPrice then [(needed "gasPrice", Shape.quantity 128)]
    else
      [(needed "maxFeePerGas", Shape.quantity 128),
        (needed "maxPriorityFeePerGas", Shape.quantity 128)]
  let chain :=
    if kind = legacy then
      [(optional "chainId", Shape.quantity 64), (needed "v", Shape.quantity 128)]
    else
      [(needed "chainId", Shape.quantity 64), (nullable "accessList", Shape.accessList),
        (optional "yParity", Shape.quantity 64), (optional "v", Shape.quantity 64)]
  let own :=
    if kind = eip4844 then
      [(needed "blobVersionedHashes", Shape.list Shape.hash),
        (needed "maxFeePerBlobGas", Shape.quantity 128)]
    else if kind = eip7702 then [(needed "authorizationList", Shape.list Shape.authorization)]
    else []
  (recipient, Shape.address) :: price ++ chain ++ own

/-- Whether a legacy signature is one: its number may stand alone or name a chain, which is then that
of the transaction. Transactions of the chain itself carry zeros. -/
def isLegacySignature (chainId : Option Nat) (v r s : Nat) : Bool :=
  v = 27 || v = 28 || (v = 0 && r = 0 && s = 0)
    || (35 ≤ v && (v - 35) / 2 < 1 <<< 64 && chainId.all (· = (v - 35) / 2))

/-- Whether one of two points is named, by a parity or else by the number that older signatures have. -/
def isParity (parity v : Option Nat) : Bool :=
  match parity, v with
  | some parity, _ => parity ≤ 1
  | none, some v => v ≤ 1 || v = 27 || v = 28 || 35 ≤ v
  | none, none => false

def isSigned (kind : TransactionKind) (j : Json) : Bool :=
  let values := do
    let columns ← j.columns? ["chainId", "yParity", "v", "r", "s"]
    columns.mapM (Json.mayWith? (Json.quantity? 256))
  match values with
  | some [chainId, parity, v, some r, some s] =>
    if kind = legacy then isLegacySignature chainId (v.getD 0) r s else isParity parity v
  | _ => false

def admits (kind : TransactionKind) (j : Json) : Bool :=
  (Shape.object (Shape.commonFields ++ kind.ownFields)).admits j && kind.isSigned j

end TransactionKind

end RewardPool
