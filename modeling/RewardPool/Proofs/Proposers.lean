import RewardPool.Proofs.BlockIncome
import RewardPool.Proofs.Effects

/-!
What becomes of the proposer of a slot. Before the donations and the events of a block there is the
block itself, or the lack of one, and what it means depends on where the proposer stands. Its status
turns first, then the reward is split by the statuses that result, and only then is the proposer paid
what it was waiting for. So its new status decides whether it has a share in its own reward.
-/
namespace RewardPool

/-- A slot at the point where its proposer is settled. -/
structure Proposal where
  proposer : ValidatorIndex
  block : Option (ProposedBlock × BlockReward)
  identity : Option Identity
  ledger : Ledger
  outcome : Outcome

/-- A validator that is paid for its block, with its share of the reward. -/
def Validator.rewarded (v : Validator) (share : Wei) (r : BlockRecord) : Validator :=
  { v with
    accumulated := v.accumulated + v.pending + share
    pending := 0
    proposed := v.proposed ++ [r] }

def Validator.expelled (v : Validator) (r : BlockRecord) : Validator :=
  { v with status := .banned, pending := 0, wrongFee := v.wrongFee ++ [r] }

namespace Reconcile

variable {ε : Type} {m : Type → Type} [Monad m]

/-- What the chain knows about a proposer that may join by its block; nobody else is asked for. -/
def identify (chain : Chain ε m) (l : Ledger) (b : ProposedBlock) (reward : BlockReward) :
    Step ε m (Option Identity) :=
  if reward.kind.isSome ∧ l.status b.proposer ≠ .banned ∧ (l.status b.proposer).isSubscribed = false
  then ask (chain.validator b.proposer b.slot)
  else return none

/-- The first part of a slot: its proposer. -/
def proposal (config : Config) (chain : Chain ε m) (l : Ledger) (slot : Slot) :
    Step ε m Proposal := do
  let proposer ← ask (chain.proposer slot)
  match ← ask (chain.block slot) with
  | none =>
    let (ledger, outcome) ← must (l.settleMissed slot proposer)
    return { proposer, block := none, identity := none, ledger, outcome }
  | some b =>
    if b.proposer ≠ proposer then throw (.fault (.proposerMismatch slot proposer b.proposer))
    let reward ← classify chain config.poolAddress b
    let identity ← identify chain l b reward
    let (ledger, outcome) ← must (l.settleProposal b reward identity)
    return { proposer, block := some (b, reward), identity, ledger, outcome }

/-- The second part of a slot: the donations and the events of its block. -/
def remainder (config : Config) (chain : Chain ε m) (slot : Slot) (p : Proposal) :
    Step ε m (Ledger × SlotReport) :=
  match p.block with
  | none =>
    return ({ p.ledger with latestSlot := some slot },
      { slot, proposer := p.proposer, block := none, outcome := p.outcome, donations := 0,
        subscriptions := 0, unsubscriptions := 0, checkpoint := none })
  | some (b, reward) => do
    let l := reward.donations.foldl Ledger.donate p.ledger
    let subscriptions ← ask (chain.subscriptions b.number b.number)
    let l ← subscriptions.foldlM (settleSubscription config chain slot) l
    let unsubscriptions ← ask (chain.unsubscriptions b.number b.number)
    let l ← unsubscriptions.foldlM (fun l u => must (l.unsubscribe u)) l
    return ({ l with latestSlot := some slot, latestBlock := some b.number },
      { slot, proposer := b.proposer, block := some b.number, outcome := p.outcome,
        donations := reward.donations.length, subscriptions := subscriptions.length,
        unsubscriptions := unsubscriptions.length, checkpoint := none })

variable [LawfulMonad m]

theorem settleProposer_eq (chain : Chain ε m) (l : Ledger) (b : ProposedBlock)
    (reward : BlockReward) :
    settleProposer chain l b reward =
      identify chain l b reward >>= fun identity => must (l.settleProposal b reward identity) := by
  unfold settleProposer identify Ledger.settleProposal
  cases reward.kind with
  | none => simp
  | some kind =>
    unfold settleReward
    by_cases hbanned : l.status b.proposer = .banned
    · simp [hbanned, must]
    · by_cases hsubscribed : (l.status b.proposer).isSubscribed = true
      · simp [hbanned, hsubscribed]
      · simp [hbanned, hsubscribed]

theorem throw_bind {α β : Type} (e : Failure ε) (f : α → Step ε m β) :
    (throw e : Step ε m α) >>= f = throw e := by
  apply ExceptT.ext
  simp

theorem settleBlock_eq (config : Config) (chain : Chain ε m) (l : Ledger) (slot : Slot)
    (b : ProposedBlock) :
    settleBlock config chain l slot b =
      (do
        let reward ← classify chain config.poolAddress b
        let identity ← identify chain l b reward
        let (ledger, outcome) ← must (l.settleProposal b reward identity)
        remainder config chain slot
          { proposer := b.proposer, block := some (b, reward), identity, ledger, outcome }) := by
  unfold settleBlock
  simp only [settleProposer_eq, bind_assoc]
  rfl

/-- A slot settles its proposer first, and the donations and events of its block after that. -/
theorem slot_eq (config : Config) (chain : Chain ε m) (l : Ledger) (slot : Slot) :
    Reconcile.slot config chain l slot =
      proposal config chain l slot >>= remainder config chain slot := by
  unfold Reconcile.slot proposal
  rw [bind_assoc]
  refine bind_congr fun proposer => ?_
  rw [bind_assoc]
  refine bind_congr fun block => ?_
  cases block with
  | none =>
    simp only [bind_assoc, pure_bind]
    rfl
  | some b =>
    by_cases hduty : b.proposer = proposer
    · subst hduty
      simp only [ne_eq, not_true_eq_false, if_false, settleBlock_eq, bind_assoc, pure_bind]
    · simp only [ne_eq, hduty, not_false_eq_true, if_true, bind_assoc]
      rw [throw_bind, throw_bind]

end Reconcile

namespace Ledger

variable {l l' m : Ledger} {i : ValidatorIndex} {v : Validator}

theorem splitsLike_credited (l : Ledger) (b : ProposedBlock) (reward : Wei) (kind : RewardKind) :
    (l.distribute reward).SplitsLike (l.credited b reward kind) := by
  refine .trans ?_ (splitsLike_logBlock _ _)
  refine .trans ?_ (splitsLike_update fun _ => rfl)
  exact splitsLike_update fun _ => rfl

/-- A validator whose status has turned has its share in the reward before it is paid. -/
theorem Becomes.credited {b : ProposedBlock} (h : l.Becomes m b.proposer v) (reward : Wei)
    (kind : RewardKind) :
    let record := rewardRecord b reward kind .okPoolProposal
    let paid := m.credited b reward kind
    (l.logBlock record).Shares paid b.proposer
      (some (v.rewarded (paid.gain v.status reward) record)) reward := by
  intro record paid
  have hpaid := (h.distribute reward).update
    (f := fun v => { v with accumulated := v.accumulated + v.pending, pending := 0 }) fun _ => rfl
  have hnoted := (hpaid.update
    (f := fun v => { v with proposed := v.proposed ++ [record] }) fun _ => rfl).logBlock record
  rw [(m.splitsLike_credited b reward kind).gain_eq]
  unfold Validator.rewarded
  rw [add_assoc]
  exact hnoted

theorem Becomes.expelled {d : Distribution} {b : ProposedBlock}
    (h : l.Becomes m b.proposer { v with status := .banned })
    (hshared : m.redistribute b.proposer = .ok (d, l')) :
    let record := wrongFeeRecord b
    let noted := l'.update b.proposer fun v => { v with wrongFee := v.wrongFee ++ [record] }
    (l.logBlock record).Shares (noted.logBlock record) b.proposer (some (v.expelled record))
      v.pending := by
  intro record noted
  obtain ⟨u, hu, -, rfl⟩ := redistribute_eq_ok.mp hshared
  obtain rfl := Option.some.inj (hu.symm.trans h.entry)
  have htaken := (h.update fun v => { v with pending := 0 }).distribute v.pending
  rw [gain_of_not_subscribed rfl, add_zero] at htaken
  exact (htaken.update
    (f := fun v => { v with wrongFee := v.wrongFee ++ [record] }) fun _ => rfl).logBlock record

end Ledger

open Ledger (missedRecord rewardRecord wrongFeeRecord)

/-- All that the first part of a slot may come to. What a case does not say of a validator or of the
ledger stays as it was. -/
inductive Proposal.Settled (l : Ledger) (slot : Slot) : Proposal → Prop
  | missed {i : ValidatorIndex} {v : Validator} {s : Status} {l' : Ledger}
      (hv : l.find? i = some v) (hsubscribed : v.status.isSubscribed = true)
      (hnext : v.status.next? .proposalMissed = some s)
      (hafter : (l.logBlock (missedRecord slot i)).Becomes l' i
        { v with status := s, missed := v.missed ++ [missedRecord slot i] }) :
      Settled l slot ⟨i, none, none, l', .missed⟩
  | absent {i : ValidatorIndex} (hstranger : (l.status i).isSubscribed = false) :
      Settled l slot ⟨i, none, none, l, .ignored⟩
  | rewarded {b : ProposedBlock} {reward : BlockReward} {identity : Option Identity}
      {kind : RewardKind} {v : Validator} {s : Status} {l' : Ledger} (hkind : reward.kind = some kind)
      (hv : l.find? b.proposer = some v) (hsubscribed : v.status.isSubscribed = true)
      (hnext : v.status.next? .proposalOk = some s)
      (hafter : (l.logBlock (rewardRecord b reward.amount kind .okPoolProposal)).Shares l' b.proposer
        (some ({ v with status := s }.rewarded (l'.gain s reward.amount)
          (rewardRecord b reward.amount kind .okPoolProposal))) reward.amount) :
      Settled l slot ⟨b.proposer, some (b, reward), identity, l', .rewarded reward.amount kind⟩
  | joined {b : ProposedBlock} {reward : BlockReward} {identity : Option Identity} {id : Identity}
      {address : Address} {kind : RewardKind} {v : Validator} {l' : Ledger}
      (hkind : reward.kind = some kind) (hstranger : (l.status b.proposer).isSubscribed = false)
      (hfree : l.status b.proposer ≠ .banned) (hidentity : identity = some id)
      (haddress : id.withdrawalAddress = some address)
      (hv : v = (l.find? b.proposer).getD (.fresh address id.pubkey))
      (hafter : (l.logBlock (rewardRecord b reward.amount kind .okPoolProposal)).Shares l' b.proposer
        (some ({ v with status := .active }.rewarded (l'.gain .active reward.amount)
          (rewardRecord b reward.amount kind .okPoolProposal))) reward.amount) :
      Settled l slot ⟨b.proposer, some (b, reward), identity, l', .autoSubscribed reward.amount kind⟩
  | banned {b : ProposedBlock} {reward : BlockReward} {identity : Option Identity}
      {kind : RewardKind} {l' : Ledger} (hkind : reward.kind = some kind)
      (hbanned : l.status b.proposer = .banned)
      (hafter : (l.logBlock
        (rewardRecord b reward.amount kind .okPoolProposalBannedValidator)).Shares l' b.proposer
          (l.find? b.proposer) reward.amount) :
      Settled l slot
        ⟨b.proposer, some (b, reward), identity, l', .bannedValidatorReward reward.amount⟩
  | homeless {b : ProposedBlock} {reward : BlockReward} {identity : Option Identity}
      {kind : RewardKind} {l' : Ledger} (hkind : reward.kind = some kind)
      (hstranger : (l.status b.proposer).isSubscribed = false)
      (hfree : l.status b.proposer ≠ .banned)
      (hidentity : identity.bind (·.withdrawalAddress) = none)
      (hafter : (l.logBlock
        (rewardRecord b reward.amount kind .okPoolProposalBannedValidator)).Shares l' b.proposer
          (l.find? b.proposer) reward.amount) :
      Settled l slot ⟨b.proposer, some (b, reward), identity, l', .ignored⟩
  | strayed {b : ProposedBlock} {reward : BlockReward} {identity : Option Identity} {v : Validator}
      {l' : Ledger} (hkind : reward.kind = none) (hv : l.find? b.proposer = some v)
      (hsubscribed : v.status.isSubscribed = true)
      (hafter : (l.logBlock (wrongFeeRecord b)).Shares l' b.proposer
        (some (v.expelled (wrongFeeRecord b))) v.pending) :
      Settled l slot ⟨b.proposer, some (b, reward), identity, l', .wrongFeeRecipient⟩
  | unconcerned {b : ProposedBlock} {reward : BlockReward} {identity : Option Identity}
      (hkind : reward.kind = none) (hstranger : (l.status b.proposer).isSubscribed = false) :
      Settled l slot ⟨b.proposer, some (b, reward), identity, l, .ignored⟩

namespace Proposal

variable {l l' : Ledger} {slot : Slot} {i : ValidatorIndex} {outcome : Outcome}

theorem settled_of_settleMissed (h : l.settleMissed slot i = .ok (l', outcome)) :
    Settled l slot ⟨i, none, none, l', outcome⟩ := by
  rcases Ledger.settleMissed_eq_ok h with
    ⟨rfl, rfl, hstranger⟩ | ⟨s, marked, record, hadvance, rfl, rfl, rfl⟩
  · exact .absent hstranger
  · obtain ⟨v, hv, hnext, -⟩ := Ledger.advance_eq_ok.mp hadvance
    obtain ⟨-, hmarked⟩ := (Ledger.becomes_self hv).advance hadvance
    refine .missed hv (Status.isSubscribed_of_next? rfl hnext) hnext ?_
    have hnoted := hmarked.update fun v => { v with missed := v.missed ++ [missedRecord slot i] }
    exact hnoted.logBlock _

variable {b : ProposedBlock} {reward : BlockReward} {identity : Option Identity}

theorem settled_of_settleWrongFee (hkind : reward.kind = none)
    (h : l.settleWrongFee b = .ok (l', outcome)) :
    Settled l slot ⟨b.proposer, some (b, reward), identity, l', outcome⟩ := by
  rcases Ledger.settleWrongFee_eq_ok h with
    ⟨rfl, rfl, hstranger⟩ | ⟨s, banned, d, shared, record, hadvance, hshared, rfl, rfl, rfl⟩
  · exact .unconcerned hkind hstranger
  · obtain ⟨v, hv, hnext, -⟩ := Ledger.advance_eq_ok.mp hadvance
    obtain ⟨-, hbanned⟩ := (Ledger.becomes_self hv).advance hadvance
    obtain rfl := Status.eq_banned_of_wrongFee hnext
    exact .strayed hkind hv (Status.isSubscribed_of_next? rfl hnext) (hbanned.expelled hshared)

theorem settled_of_settleProposal (h : l.settleProposal b reward identity = .ok (l', outcome)) :
    Settled l slot ⟨b.proposer, some (b, reward), identity, l', outcome⟩ := by
  rcases Ledger.settleProposal_eq_ok h with
    ⟨hkind, hwrong⟩ | ⟨kind, hkind, ⟨hbanned, rfl, rfl⟩ | ⟨-, -, hpaid⟩ | ⟨hfree, hstranger, hnew⟩⟩
  · exact settled_of_settleWrongFee hkind hwrong
  · refine .banned hkind hbanned ((Ledger.shares_distribute ?_ _).logBlock _)
    rw [hbanned]
    rfl
  · obtain ⟨s, moved, hadvance, rfl, rfl⟩ := Ledger.rewardSubscribed_eq_ok hpaid
    obtain ⟨v, hv, hnext, -⟩ := Ledger.advance_eq_ok.mp hadvance
    obtain ⟨-, hmoved⟩ := (Ledger.becomes_self hv).advance hadvance
    exact .rewarded hkind hv (Status.isSubscribed_of_next? rfl hnext) hnext (hmoved.credited _ kind)
  · rcases Ledger.rewardNewcomer_eq_ok hnew with
      ⟨rfl, rfl, hhomeless⟩ | ⟨id, address, s, moved, hidentity, haddress, hadvance, rfl, rfl⟩
    · have hshares := (Ledger.shares_distribute hstranger reward.amount).logBlock
        (rewardRecord b reward.amount kind .okPoolProposalBannedValidator)
      exact .homeless hkind hstranger hfree hhomeless hshares
    · obtain ⟨hnext, hmoved⟩ := (l.becomes_track b.proposer address id.pubkey).advance hadvance
      obtain rfl := Status.eq_active_of_joins rfl hnext
      exact .joined hkind hstranger hfree hidentity haddress rfl (hmoved.credited _ kind)

end Proposal

namespace Reconcile

/-- In every world in which the first part of a slot goes through, the proposer is settled by its
block, by the status it had, and by what the chain knew about it. The rest of the slot goes on from
there. -/
theorem proposer_is_settled {σ ε : Type} (config : Config) (chain : Chain ε (StateM σ)) (l : Ledger)
    (slot : Slot) :
    Reconcile.slot config chain l slot =
        proposal config chain l slot >>= remainder config chain slot ∧
      ∀ p, Succeeds (proposal config chain l slot) p → p.Settled l slot := by
  refine ⟨slot_eq config chain l slot, fun p h => ?_⟩
  unfold proposal at h
  obtain ⟨proposer, -, h⟩ := succeeds_bind h
  obtain ⟨block, -, h⟩ := succeeds_bind h
  cases block with
  | none =>
    obtain ⟨⟨ledger, outcome⟩, hmissed, h⟩ := succeeds_bind h
    rw [succeeds_pure h]
    exact Proposal.settled_of_settleMissed (succeeds_must hmissed)
  | some b =>
    by_cases hduty : b.proposer = proposer
    · subst hduty
      simp only [ne_eq, not_true_eq_false, if_false] at h
      obtain ⟨reward, -, h⟩ := succeeds_bind h
      obtain ⟨identity, -, h⟩ := succeeds_bind h
      obtain ⟨⟨ledger, outcome⟩, hsettled, h⟩ := succeeds_bind h
      rw [succeeds_pure h]
      exact Proposal.settled_of_settleProposal (succeeds_must hsettled)
    · simp only [ne_eq, hduty, not_false_eq_true, if_true, throw_bind] at h
      exact absurd h not_succeeds_throw

end Reconcile

namespace RedCard

def config : Config :=
  { SubscribeCall.config with feePercent := 10, eligibility := .activeAndYellowCard }

def ledger : Ledger :=
  let watched : Validator :=
    { Validator.fresh (.fill 0x10) .zero with status := .redCard, accumulated := 7, pending := 50 }
  let active : Validator := { Validator.fresh (.fill 0x20) .zero with status := .active }
  { Ledger.fresh config with validators := (SortedMap.empty.insert 9 watched).insert 3 active }

def history : History :=
  { SubscribeCall.history with
    block := fun _ =>
      some { SubscribeCall.block with
        transactions := [{ SubscribeCall.call with sender := .fill 0x66 }] } }

/-- By its block it is up to a yellow card again, and so it has half of what the pool leaves. -/
theorem redeemed_proposer_has_a_share :
    let chain : Chain Empty (StateM Unit) := history.chain
    ∃ p, Reconcile.Succeeds (Reconcile.proposal config chain ledger 100) p ∧ p.Settled ledger 100 ∧
      p.outcome = .rewarded 1000 .mev ∧
      (p.ledger.find? 9).map (fun v => (v.status, v.accumulated, v.pending)) =
        some (.yellowCard, 507, 0) ∧
      (p.ledger.find? 3).map (·.pending) = some 450 ∧ p.ledger.poolFees = 100 := by
  have hsettled := (Reconcile.proposer_is_settled config (history.chain : Chain Empty (StateM Unit))
    ledger 100).2
  exact ⟨_, ⟨(), rfl⟩, hsettled _ ⟨(), rfl⟩, by decide, by decide, by decide, by decide⟩

end RedCard

end RewardPool
