import RewardPool.Chain
import RewardPool.Checkpoint
import RewardPool.Settlement

/-!
Brings the ledger from one slot to the next. Every question about the slot is asked here, in a fixed
order, and a failure anywhere leaves no ledger behind: the caller keeps the one it had.
-/
namespace RewardPool

structure SlotReport where
  slot : Slot
  proposer : ValidatorIndex
  block : Option BlockNumber
  outcome : Outcome
  donations : Nat
  subscriptions : Nat
  unsubscriptions : Nat
  checkpoint : Option Checkpoint

namespace Reconcile

variable {ε : Type} {m : Type → Type} [Monad m]

abbrev Step (ε : Type) (m : Type → Type) := ExceptT (Failure ε) m

/-- An answer of the chain, whose failure is the provider's. -/
def ask {α : Type} (answer : m (Except ε α)) : Step ε m α :=
  ExceptT.mk do
    match ← answer with
    | .ok a => return .ok a
    | .error e => return .error (.provider e)

/-- A result of the ledger, whose failure is a fault. -/
def must {α : Type} : Except Fault α → Step ε m α
  | .ok a => pure a
  | .error f => throw (.fault f)

/-- The reward of a block; receipts are read only where they matter. -/
def classify (chain : Chain ε m) (pool : Address) (b : ProposedBlock) : Step ε m BlockReward := do
  if b.needsReceipts pool then
    let (header, receipts) ← ask (chain.receipts b.number (b.transactions.map (·.hash)))
    let tip ← must (header.tip b.transactions receipts)
    return b.rewardWithTip pool tip
  else
    return b.rewardWithTip pool 0

/-- Settles the reward of a block. The chain is asked about its proposer only if the ledger knows
none of its own. -/
def settleReward (chain : Chain ε m) (l : Ledger) (b : ProposedBlock) (reward : Wei)
    (kind : RewardKind) : Step ε m (Ledger × Outcome) := do
  let status := l.status b.proposer
  if status = .banned then
    return (l.shareReward b reward kind, .bannedValidatorReward reward)
  else if status.isSubscribed then
    must (l.rewardSubscribed b reward kind)
  else
    let identity ← ask (chain.validator b.proposer b.slot)
    must (l.rewardNewcomer b reward kind identity)

def settleProposer (chain : Chain ε m) (l : Ledger) (b : ProposedBlock) (reward : BlockReward) :
    Step ε m (Ledger × Outcome) :=
  match reward.kind with
  | some kind => settleReward chain l b reward.amount kind
  | none => must (l.settleWrongFee b)

/-- Logs a subscription and acts on it with what the chain knows about its validator at the slot. -/
def settleSubscription (config : Config) (chain : Chain ε m) (slot : Slot) (l : Ledger)
    (s : Subscription) : Step ε m Ledger := do
  let l := { l with subscriptions := l.subscriptions ++ [s] }
  let identity ← ask (chain.validator s.validator slot)
  must (l.subscribe config s identity)

def settleBlock (config : Config) (chain : Chain ε m) (l : Ledger) (slot : Slot)
    (b : ProposedBlock) : Step ε m (Ledger × SlotReport) := do
  let reward ← classify chain config.poolAddress b
  let (l, outcome) ← settleProposer chain l b reward
  let l := reward.donations.foldl Ledger.donate l
  let subscriptions ← ask (chain.subscriptions b.number b.number)
  let l ← subscriptions.foldlM (settleSubscription config chain slot) l
  let unsubscriptions ← ask (chain.unsubscriptions b.number b.number)
  let l ← unsubscriptions.foldlM (fun l u => must (l.unsubscribe u)) l
  return ({ l with latestSlot := some slot, latestBlock := some b.number },
    { slot, proposer := b.proposer, block := some b.number, outcome,
      donations := reward.donations.length, subscriptions := subscriptions.length,
      unsubscriptions := unsubscriptions.length, checkpoint := none })

def slot (config : Config) (chain : Chain ε m) (l : Ledger) (slot : Slot) :
    Step ε m (Ledger × SlotReport) := do
  let proposer ← ask (chain.proposer slot)
  match ← ask (chain.block slot) with
  | none =>
    let (l, outcome) ← must (l.settleMissed slot proposer)
    return ({ l with latestSlot := some slot },
      { slot, proposer, block := none, outcome, donations := 0, subscriptions := 0,
        unsubscriptions := 0, checkpoint := none })
  | some b =>
    if b.proposer ≠ proposer then throw (.fault (.proposerMismatch slot proposer b.proposer))
    settleBlock config chain l slot b

end Reconcile

end RewardPool
