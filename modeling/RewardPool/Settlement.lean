import RewardPool.Ledger
import RewardPool.Reward

/-!
What one block does to the ledger, step by step. The proposer is settled first: rewarded, subscribed
by its reward, held to a missed slot, or banned for paying someone else. Donations, subscriptions
and unsubscriptions follow. Each step is a function of the ledger and of what the chain has already
answered.
-/
namespace RewardPool

inductive Outcome where
  | rewarded (reward : Wei) (kind : RewardKind)
  | autoSubscribed (reward : Wei) (kind : RewardKind)
  | bannedValidatorReward (reward : Wei)
  | wrongFeeRecipient
  | missed
  | ignored
deriving DecidableEq

namespace Ledger

def logBlock (l : Ledger) (r : BlockRecord) : Ledger := { l with poolBlocks := l.poolBlocks ++ [r] }

/-- Holds a missed slot against a subscribed proposer; others are no concern of the pool. -/
def settleMissed (l : Ledger) (slot : Slot) (proposer : ValidatorIndex) :
    Except Fault (Ledger × Outcome) := do
  if !(l.status proposer).isSubscribed then return (l, .ignored)
  let (_, l) ← l.advance proposer .proposalMissed
  let record : BlockRecord :=
    { slot, validator := proposer, number := none, reward := 0, rewardKind := none,
      kind := .missedProposal }
  let l := l.update proposer fun v => { v with missed := v.missed ++ [record] }
  return (l.logBlock record, .missed)

def rewardRecord (b : ProposedBlock) (reward : Wei) (kind : RewardKind) (block : BlockKind) :
    BlockRecord :=
  { slot := b.slot, validator := b.proposer, number := some b.number, reward := reward,
    rewardKind := some kind, kind := block }

/-- Shares a whole reward among the others, for a proposer that cannot have it. -/
def shareReward (l : Ledger) (b : ProposedBlock) (reward : Wei) (kind : RewardKind) : Ledger :=
  (l.distribute reward).logBlock (rewardRecord b reward kind .okPoolProposalBannedValidator)

def creditReward (l : Ledger) (b : ProposedBlock) (reward : Wei) (kind : RewardKind) :
    Except Fault Ledger := do
  let record := rewardRecord b reward kind .okPoolProposal
  let l ← (l.distribute reward).consolidate b.proposer
  let l := l.update b.proposer fun v => { v with proposed := v.proposed ++ [record] }
  return l.logBlock record

def rewardSubscribed (l : Ledger) (b : ProposedBlock) (reward : Wei) (kind : RewardKind) :
    Except Fault (Ledger × Outcome) := do
  let (_, l) ← l.advance b.proposer .proposalOk
  return (← l.creditReward b reward kind, .rewarded reward kind)

/-- Settles a reward of a proposer that was not subscribed: it joins the pool if the chain knows an
address to pay it to. -/
def rewardNewcomer (l : Ledger) (b : ProposedBlock) (reward : Wei) (kind : RewardKind)
    (identity : Option Identity) : Except Fault (Ledger × Outcome) := do
  match identity.bind fun id => id.withdrawalAddress.map fun address => (id.pubkey, address) with
  | none => return (l.shareReward b reward kind, .ignored)
  | some (pubkey, address) =>
    let (_, l) ← (l.track b.proposer address pubkey).advance b.proposer .autoSubscription
    return (← l.creditReward b reward kind, .autoSubscribed reward kind)

/-- Bans a subscribed proposer that paid someone else, and shares what it was waiting for. -/
def settleWrongFee (l : Ledger) (b : ProposedBlock) : Except Fault (Ledger × Outcome) := do
  if !(l.status b.proposer).isSubscribed then return (l, .ignored)
  let (_, l) ← l.advance b.proposer .proposalWrongFee
  let (_, l) ← l.redistribute b.proposer
  let record : BlockRecord :=
    { slot := b.slot, validator := b.proposer, number := some b.number, reward := 0,
      rewardKind := none, kind := .wrongFeeRecipient }
  let l := l.update b.proposer fun v => { v with wrongFee := v.wrongFee ++ [record] }
  return (l.logBlock record, .wrongFeeRecipient)

def donate (l : Ledger) (d : Donation) : Ledger :=
  let l := l.distribute d.amount
  { l with donations := l.donations ++ [d] }

/-- A subscription needs the configured collateral, a validator that the chain knows, the sender at
its withdrawal address, and no ban. -/
def accepts (l : Ledger) (config : Config) (s : Subscription) (identity : Option Identity) : Bool :=
  s.collateral = config.collateral &&
    match identity with
    | none => false
    | some id => id.withdrawalAddress = some s.sender && l.status s.validator ≠ .banned

def addCollateral (l : Ledger) (i : ValidatorIndex) (amount : Wei) : Except Fault Ledger := do
  let _ ← l.validator i
  return l.update i fun v =>
    { v with collateral := v.collateral + amount, accumulated := v.accumulated + amount }

/-- Subscribes a validator, or shares the collateral of a subscription that is not accepted. -/
def subscribe (l : Ledger) (config : Config) (s : Subscription) (identity : Option Identity) :
    Except Fault Ledger := do
  if !l.accepts config s identity then return l.distribute s.collateral
  match identity with
  | some id =>
    if (l.status s.validator).isSubscribed then l.addCollateral s.validator s.collateral
    else
      let (_, l) ← (l.track s.validator s.sender id.pubkey).advance s.validator .manualSubscription
      l.addCollateral s.validator s.collateral
  | none => return l.distribute s.collateral

/-- Ends the subscription of a validator at the request of its own address, and shares what the
validator was waiting for. Other requests are only logged. -/
def unsubscribe (l : Ledger) (u : Unsubscription) : Except Fault Ledger := do
  let l := { l with unsubscriptions := l.unsubscriptions ++ [u] }
  if !(l.status u.validator).isSubscribed then return l
  let v ← l.validator u.validator
  if v.withdrawalAddress ≠ u.sender then return l
  let (_, l) ← l.advance u.validator .unsubscribe
  let (_, l) ← l.redistribute u.validator
  return l

end Ledger

end RewardPool
