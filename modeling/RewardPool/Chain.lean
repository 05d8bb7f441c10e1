import RewardPool.Block

/-!
The oracle's view of the outside world: what it asks about the chain, and how it hands a root to the
pool contract. Both are records of operations in a monad, so that a theorem may speak about every
way the world can answer, and the failures of either are of a type that the world chooses.
-/
namespace RewardPool

/-- Reads of the two chains and of the pool contract. -/
structure Chain (ε : Type) (m : Type → Type) where
  finalizedSlot : m (Except ε Slot)
  /-- The block of a slot, or nothing if the slot was missed. -/
  block : Slot → m (Except ε (Option ProposedBlock))
  /-- The validator whose turn a slot was. -/
  proposer : Slot → m (Except ε ValidatorIndex)
  /-- A header, and one receipt for each transaction in the order given. -/
  receipts : BlockNumber → List Hash → m (Except ε (Header × List Receipt))
  subscriptions : BlockNumber → BlockNumber → m (Except ε (List Subscription))
  unsubscriptions : BlockNumber → BlockNumber → m (Except ε (List Unsubscription))
  /-- Whether an address may update the root as of a block. -/
  whitelisted : BlockNumber → Address → m (Except ε Bool)
  /-- A validator in the beacon state of a slot. -/
  validator : ValidatorIndex → Slot → m (Except ε (Option Identity))

/-- Sends roots to the pool contract from an address of its own. -/
structure Submitter (ε : Type) (m : Type → Type) where
  address : Address
  submit : Hash → m (Except ε Hash)

end RewardPool
