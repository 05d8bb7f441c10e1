import RewardPool.Validator

/-!
The parameters of one deployment of the pool. Oracles of one pool agree on its roots only if they
agree on all of them.
-/
namespace RewardPool

def secondsPerSlot : Nat := 12

def slotsPerEpoch : UInt64 := 32

structure Config where
  poolAddress : Address
  deployedSlot : Slot
  deployedBlock : BlockNumber
  checkpointSize : UInt64
  feePercent : UInt64
  feeAddress : Address
  collateral : Wei
  eligibility : Eligibility
deriving DecidableEq

/-- What can be wrong with a configuration. -/
inductive ConfigError where
  | feeAboveHundred (percent : UInt64)
  | noCheckpoints
  | zeroPoolAddress
  | zeroFeeAddress
deriving DecidableEq

def ConfigError.message : ConfigError → String
  | feeAboveHundred percent =>
    "pool fee percent must be at most 100, got " ++ Numeral.word percent
  | noCheckpoints => "checkpoint size must be positive"
  | zeroPoolAddress => "pool address must not be the zero address"
  | zeroFeeAddress => "pool fee address must not be the zero address"

namespace Config

/-- The first fault of a configuration, if it has one. -/
def fault? (c : Config) : Option ConfigError :=
  if 100 < c.feePercent then some (.feeAboveHundred c.feePercent)
  else if c.checkpointSize = 0 then some .noCheckpoints
  else if c.poolAddress = .zero then some .zeroPoolAddress
  else if c.feeAddress = .zero then some .zeroFeeAddress
  else none

/-- A root is built after every so many slots from the deployment on. With a checkpoint size of zero
there is no answer for a slot after the deployment. -/
def isCheckpointSlot? (c : Config) (slot : Slot) : Option Bool :=
  if slot ≤ c.deployedSlot then some false
  else if c.checkpointSize = 0 then none
  else some ((slot - c.deployedSlot) % c.checkpointSize = 0)

end Config

end RewardPool
