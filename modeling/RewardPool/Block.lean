import RewardPool.Validator

/-!
What the oracle reads from the chain: proposed blocks with the transactions of their payload,
execution headers and receipts, the events of the pool contract, and the identities of validators.
-/
namespace RewardPool

/-- The transaction types whose fees are understood. -/
inductive TransactionKind where
  | legacy
  | accessList
  | eip1559
  | eip4844
  | eip7702
deriving DecidableEq

namespace TransactionKind

def all : List TransactionKind := [legacy, accessList, eip1559, eip4844, eip7702]

def name : TransactionKind → String
  | legacy => "legacy"
  | accessList => "access_list"
  | eip1559 => "eip1559"
  | eip4844 => "eip4844"
  | eip7702 => "eip7702"

def ofByte? (byte : UInt8) : Option TransactionKind :=
  if byte = 0 then some legacy
  else if byte = 1 then some accessList
  else if byte = 2 then some eip1559
  else if byte = 3 then some eip4844
  else if byte = 4 then some eip7702
  else none

/-- A flat price is what is paid; the other types bid a fee cap and a tip cap. -/
def hasFlatPrice : TransactionKind → Bool
  | legacy | accessList => true
  | eip1559 | eip4844 | eip7702 => false

/-- Whether a transaction may create a contract and so have no recipient. -/
def mayCreate : TransactionKind → Bool
  | legacy | accessList | eip1559 => true
  | eip4844 | eip7702 => false

end TransactionKind

structure Transaction where
  hash : Hash
  type : UInt8
  sender : Address
  recipient : Option Address
  value : Wei
  gasPrice : Option GasPrice
  feeCap : GasPrice
  tipCap : Option GasPrice
deriving DecidableEq

/-- A beacon block together with its execution payload. -/
structure ProposedBlock where
  slot : Slot
  proposer : ValidatorIndex
  number : BlockNumber
  feeRecipient : Address
  transactions : List Transaction
deriving DecidableEq

structure Header where
  number : BlockNumber
  baseFee : Option UInt64
  gasUsed : UInt64
deriving DecidableEq

structure Receipt where
  hash : Hash
  gasUsed : UInt64
deriving DecidableEq

/-- A validator as the beacon chain knows it; only some credentials name a withdrawal address. -/
structure Identity where
  index : ValidatorIndex
  pubkey : Pubkey
  withdrawalAddress : Option Address
deriving DecidableEq

structure Subscription where
  validator : ValidatorIndex
  sender : Address
  collateral : Wei
  block : BlockNumber
  logIndex : UInt64
  transaction : Hash
deriving DecidableEq

structure Unsubscription where
  validator : ValidatorIndex
  sender : Address
  block : BlockNumber
  logIndex : UInt64
  transaction : Hash
deriving DecidableEq

/-- Value sent to the pool by anyone but the fee recipient of the block. -/
structure Donation where
  sender : Address
  amount : Wei
  block : BlockNumber
  transaction : Hash
deriving DecidableEq

end RewardPool
