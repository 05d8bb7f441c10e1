import RewardPool.Failure

/-!
What a block paid to the pool. A builder pays by a transfer from the fee recipient of the block;
other transfers to the pool are donations. A block that names the pool as its fee recipient paid its
priority fees, which are rebuilt from receipts: everything paid for gas less the base fee that was
burned.
-/
namespace RewardPool

structure Transfers where
  mevTotal : Wei
  mevMatches : Nat
  donations : List Donation
deriving DecidableEq

/-- What a block paid. Without a reward kind the proposer paid someone else. -/
structure BlockReward where
  amount : Wei
  kind : Option RewardKind
  donations : List Donation
deriving DecidableEq

namespace ProposedBlock

def transfersTo (b : ProposedBlock) (pool : Address) : List Transaction :=
  b.transactions.filter (·.recipient = some pool)

def builderTransfers (b : ProposedBlock) (pool : Address) : List Transaction :=
  (b.transfersTo pool).filter (·.sender = b.feeRecipient)

/-- Every other transfer of value to an address. -/
def donationsTo (b : ProposedBlock) (pool : Address) : List Donation :=
  ((b.transfersTo pool).filter fun t => t.sender ≠ b.feeRecipient ∧ 0 < t.value).map fun t =>
    { sender := t.sender, amount := t.value, block := b.number, transaction := t.hash }

def transfers (b : ProposedBlock) (pool : Address) : Transfers where
  mevTotal := Wei.total ((b.builderTransfers pool).map (·.value))
  mevMatches := (b.builderTransfers pool).length
  donations := b.donationsTo pool

end ProposedBlock

namespace Transaction

/-- The price of a unit of gas that the sender paid: the flat price, or the base fee and the tip up
to the fee cap. The sum stops at the largest price. -/
def effectivePrice (t : Transaction) (baseFee : UInt64) : Except Fault GasPrice :=
  match TransactionKind.ofByte? t.type with
  | none => .error (.unsupportedTransaction t.hash t.type)
  | some kind =>
    if kind.hasFlatPrice then .ok (t.gasPrice.getD t.feeCap)
    else
      match t.tipCap with
      | none => .error (.unsupportedTransaction t.hash t.type)
      | some tip =>
        let sum := min (tip.toNat + baseFee.toNat) ((1 <<< 128) - 1)
        .ok (BitVec.ofNat 128 (min sum t.feeCap.toNat))

end Transaction

namespace Header

def collect (h : Header) (baseFee : UInt64) (collected : Wei) (p : Transaction × Receipt) :
    Except Fault Wei := do
  let (t, r) := p
  if t.hash ≠ r.hash then throw (.receiptOrder h.number t.hash r.hash)
  let price ← t.effectivePrice baseFee
  return collected + price.setWidth 256 * BitVec.ofNat 256 r.gasUsed.toNat

def tip (h : Header) (transactions : List Transaction) (receipts : List Receipt) :
    Except Fault Wei := do
  if transactions.length ≠ receipts.length then
    throw (.receiptCount h.number transactions.length receipts.length)
  match h.baseFee with
  | none => throw (.missingBaseFee h.number)
  | some baseFee =>
    let collected ← (transactions.zip receipts).foldlM (h.collect baseFee) 0
    let burned := BitVec.ofNat 256 h.gasUsed.toNat * BitVec.ofNat 256 baseFee.toNat
    match Wei.minus? collected burned with
    | some tip => return tip
    | none => throw (.negativeTip h.number collected burned)

end Header

namespace ProposedBlock

/-- Receipts matter only for a block with transactions whose fees went to the pool. -/
def needsReceipts (b : ProposedBlock) (pool : Address) : Bool :=
  b.feeRecipient = pool && !b.transactions.isEmpty

/-- The reward of a block whose priority fees to the pool are known. A transfer of the builder wins
over the fees, and a pool that is named as fee recipient was paid even if nothing came of it. -/
def rewardWithTip (b : ProposedBlock) (pool : Address) (tip : Wei) : BlockReward :=
  let found := b.transfers pool
  if 0 < found.mevTotal then
    { amount := found.mevTotal, kind := some .mev, donations := found.donations }
  else if b.feeRecipient = pool then
    { amount := tip, kind := some .vanilla, donations := found.donations }
  else if 0 < found.mevMatches then
    { amount := 0, kind := some .mev, donations := found.donations }
  else
    { amount := 0, kind := none, donations := found.donations }

end ProposedBlock

end RewardPool
