import RewardPool.Beacon
import RewardPool.Contract
import RewardPool.Retry

/-!
The chain as it is seen through a beacon node, an execution node and the pool contract. Every read is
repeated until it succeeds, so with an unlimited policy a failure comes back only from a run that was
asked to stop. The duties of the last epoch are the only thing that a read leaves behind.
-/
namespace RewardPool

inductive NetworkError where
  | beacon (e : BeaconError)
  | execution (e : ExecutionError)
  | contract (e : ContractError)

def NetworkError.message : NetworkError → String
  | beacon e => e.message
  | execution e => e.message
  | contract e => e.message

/-- A failed read, or a root that could not be submitted. -/
abbrev NetworkFailure := RetryFailure NetworkError

structure Network (m : Type → Type) where
  beacon : BeaconNode m
  execution : ExecutionNode m
  contract : PoolContract m
  policy : RetryPolicy
  clock : Clock m
  /-- How many attempts of one read are made at all. -/
  budget : Nat

/-- Computations that may keep duties, and that end if a budget runs out. -/
abbrev Online (m : Type → Type) := StateT DutyCache (OptionT m)

namespace Network

variable {α : Type} {m : Type → Type} [Monad m]

def insist (n : Network m) (name : String) (read : m (Except NetworkError α)) :
    Online m (Except NetworkFailure α) :=
  StateT.lift (n.policy.retry n.clock n.budget name read)

def ofBeacon (answer : m (Except BeaconError α)) : m (Except NetworkError α) := do
  return (← answer).mapError .beacon

def ofExecution (answer : m (Except ExecutionError α)) : m (Except NetworkError α) := do
  return (← answer).mapError .execution

def ofContract (answer : m (Except ContractError α)) : m (Except NetworkError α) := do
  return (← answer).mapError .contract

/-- The proposer of a slot; the duties it was found in are kept. -/
def proposer (n : Network m) (slot : Slot) : Online m (Except NetworkFailure ValidatorIndex) := do
  match ← n.insist "proposal_duty" (ofBeacon (n.beacon.proposer (← get) slot)) with
  | .error e => return .error e
  | .ok (i, duties) =>
    set duties
    return .ok i

/-- The block of a slot with its transactions, or nothing if the slot was missed. -/
def blockOf (n : Network m) (slot : Slot) : m (Except NetworkError (Option ProposedBlock)) :=
  ExceptT.run do
    match ← ExceptT.mk (ofBeacon (n.beacon.block slot)) with
    | none => return none
    | some b =>
      let transactions ← ExceptT.mk (ofExecution (n.execution.transactions b.number b.hash))
      return some
        { slot := b.slot, proposer := b.proposer, number := b.number,
          feeRecipient := b.feeRecipient, transactions }

def receiptsOf (n : Network m) (number : BlockNumber) (hashes : List Hash) :
    m (Except NetworkError (Header × List Receipt)) :=
  ExceptT.run do
    let header ← ExceptT.mk (ofExecution (n.execution.header number))
    let receipts ← ExceptT.mk (ofExecution (n.execution.receipts hashes))
    return (header, receipts)

def chain (n : Network m) : Chain NetworkFailure (Online m) where
  finalizedSlot := n.insist "finalized_slot" (ofBeacon n.beacon.finalizedSlot)
  block slot := n.insist "block_at_slot" (n.blockOf slot)
  proposer := n.proposer
  receipts number hashes := n.insist "header_and_receipts" (n.receiptsOf number hashes)
  subscriptions first last :=
    n.insist "subscription_events" (ofContract (n.contract.subscriptions first last))
  unsubscriptions first last :=
    n.insist "unsubscription_events" (ofContract (n.contract.unsubscriptions first last))
  whitelisted block address :=
    n.insist "is_oracle_member" (ofContract (n.contract.isMember address block))
  validator i slot := n.insist "validator" (ofBeacon (n.beacon.validator i slot))

/-- Computations that need no nodes, among those that do. -/
def online (x : m α) : Online m α := StateT.lift (OptionT.lift x)

/-- Hands roots to the contract. A submission is not repeated. -/
def submitter? (n : Network m) : Option (Submitter NetworkFailure (Online m)) :=
  n.contract.submitter?.map fun s =>
    { address := s.address
      submit := fun root => online do
        return (← s.submit root).mapError fun e => .exhausted (.contract e) }

end Network

end RewardPool
