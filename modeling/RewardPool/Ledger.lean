import RewardPool.Config
import RewardPool.Failure

/-!
The reward ledger: what each tracked validator has accumulated and what it still waits for, the fees
of the pool, and logs of everything that came in. Operations on one validator fail if the ledger
does not track it. A distribution splits an amount between the pool and the validators whose status
the ledger's policy admits; what cannot be split evenly goes to the pool.
-/
namespace RewardPool

structure Ledger where
  validators : SortedMap ValidatorIndex Validator
  poolFees : Wei
  feePercent : UInt64
  feeAddress : Address
  eligibility : Eligibility
  latestSlot : Option Slot
  latestBlock : Option BlockNumber
  subscriptions : List Subscription
  unsubscriptions : List Unsubscription
  donations : List Donation
  poolBlocks : List BlockRecord

/-- How one amount was split. -/
structure Distribution where
  eligible : Nat
  share : Wei
  poolIncrease : Wei
deriving DecidableEq

namespace Ledger

def fresh (config : Config) : Ledger where
  validators := .empty
  poolFees := 0
  feePercent := config.feePercent
  feeAddress := config.feeAddress
  eligibility := config.eligibility
  latestSlot := none
  latestBlock := none
  subscriptions := []
  unsubscriptions := []
  donations := []
  poolBlocks := []

def find? (l : Ledger) (i : ValidatorIndex) : Option Validator := l.validators.find? i

/-- A validator that the ledger does not track is untracked. -/
def status (l : Ledger) (i : ValidatorIndex) : Status :=
  match l.find? i with
  | some v => v.status
  | none => .untracked

def validator (l : Ledger) (i : ValidatorIndex) : Except Fault Validator :=
  match l.find? i with
  | some v => .ok v
  | none => .error (.unknownValidator i)

def update (l : Ledger) (i : ValidatorIndex) (f : Validator → Validator) : Ledger :=
  { l with validators := l.validators.modify i f }

/-- Starts to track a validator; one that is tracked already stays as it is. -/
def track (l : Ledger) (i : ValidatorIndex) (address : Address) (pubkey : Pubkey) : Ledger :=
  match l.find? i with
  | some _ => l
  | none => { l with validators := l.validators.insert i (.fresh address pubkey) }

/-- Moves a validator to the status that follows an event. -/
def advance (l : Ledger) (i : ValidatorIndex) (e : Event) : Except Fault (Status × Ledger) := do
  let v ← l.validator i
  match v.status.next? e with
  | some s => return (s, l.update i fun v => { v with status := s })
  | none => throw (.invalidTransition i v.status e)

def isEligible (l : Ledger) (v : Validator) : Bool := l.eligibility.admits v.status

def eligibleCount (l : Ledger) : Nat := l.validators.values.countP l.isEligible

/-- The part of an amount that the pool keeps before it is split. -/
def fee (l : Ledger) (total : Wei) : Wei := total * BitVec.ofNat 256 l.feePercent.toNat / 100

/-- The split of an amount. With no one to share it the pool takes all. -/
def distribution (l : Ledger) (total : Wei) : Distribution :=
  let n := l.eligibleCount
  if n = 0 then
    { eligible := 0, share := 0, poolIncrease := total }
  else
    let fee := l.fee total
    let remaining := total - fee
    let count := BitVec.ofNat 256 n
    let share := remaining / count
    { eligible := n, share, poolIncrease := fee + (remaining - share * count) }

/-- Credits a split amount to the pending balances and to the pool. -/
def distribute (l : Ledger) (total : Wei) : Ledger :=
  let d := l.distribution total
  { l with
    validators := l.validators.map fun _ v =>
      if l.isEligible v then { v with pending := v.pending + d.share } else v
    poolFees := l.poolFees + d.poolIncrease }

def consolidate (l : Ledger) (i : ValidatorIndex) : Except Fault Ledger := do
  let _ ← l.validator i
  return l.update i fun v => { v with accumulated := v.accumulated + v.pending, pending := 0 }

/-- Takes the pending balance of a validator and distributes it. -/
def redistribute (l : Ledger) (i : ValidatorIndex) : Except Fault (Distribution × Ledger) := do
  let v ← l.validator i
  let without := l.update i fun v => { v with pending := 0 }
  return (without.distribution v.pending, without.distribute v.pending)

def countByStatus (l : Ledger) : List (Status × Nat) :=
  Status.all.map fun s => (s, l.validators.values.countP (·.status = s))

def totalPending (l : Ledger) : Wei := Wei.total (l.validators.values.map (·.pending))

def totalAccumulated (l : Ledger) : Wei := Wei.total (l.validators.values.map (·.accumulated))

end Ledger

end RewardPool
