import RewardPool.Proofs.Answers
import RewardPool.Proofs.LedgerSteps

/-!
A slot that goes through is a list of entries posted to the ledger: the settlement of its proposer,
the donations of its block, the subscriptions and unsubscriptions, and a closing entry. The entries
are made of what the chain answered on the way. So whatever every entry preserves, every slot
preserves, in any world.
-/
namespace RewardPool

/-- One posting to the ledger. -/
inductive Entry where
  | missed (slot : Slot) (proposer : ValidatorIndex)
  | proposal (b : ProposedBlock) (reward : BlockReward) (identity : Option Identity)
  | donation (d : Donation)
  | subscription (s : Subscription) (identity : Option Identity)
  | unsubscription (u : Unsubscription)
  | closing (slot : Slot) (block : Option BlockNumber)

namespace Ledger

/-- Settles the proposer of a block. The identity counts only for a proposer that may still join. -/
def settleProposal (l : Ledger) (b : ProposedBlock) (reward : BlockReward)
    (identity : Option Identity) : Except Fault (Ledger × Outcome) :=
  match reward.kind with
  | none => l.settleWrongFee b
  | some kind =>
    if l.status b.proposer = .banned then
      .ok (l.shareReward b reward.amount kind, .bannedValidatorReward reward.amount)
    else if (l.status b.proposer).isSubscribed then l.rewardSubscribed b reward.amount kind
    else l.rewardNewcomer b reward.amount kind identity

def post (config : Config) (l : Ledger) : Entry → Except Fault Ledger
  | .missed slot proposer => (l.settleMissed slot proposer).map (·.1)
  | .proposal b reward identity => (l.settleProposal b reward identity).map (·.1)
  | .donation d => .ok (l.donate d)
  | .subscription s identity =>
    { l with subscriptions := l.subscriptions ++ [s] }.subscribe config s identity
  | .unsubscription u => l.unsubscribe u
  | .closing slot block =>
    .ok { l with latestSlot := some slot, latestBlock := block.or l.latestBlock }

def postAll (config : Config) (l : Ledger) (entries : List Entry) : Except Fault Ledger :=
  entries.foldlM (post config) l

variable {config : Config}

/-- Whoever is to be paid, a settlement is one of the four below. -/
theorem settleProposal_eq_ok {l l' : Ledger} {b : ProposedBlock} {reward : BlockReward}
    {identity : Option Identity} {outcome : Outcome}
    (h : l.settleProposal b reward identity = .ok (l', outcome)) :
    (reward.kind = none ∧ l.settleWrongFee b = .ok (l', outcome)) ∨
      ∃ kind, reward.kind = some kind ∧
        ((l.status b.proposer = .banned ∧ l' = l.shareReward b reward.amount kind ∧
            outcome = .bannedValidatorReward reward.amount) ∨
          (l.status b.proposer ≠ .banned ∧ (l.status b.proposer).isSubscribed = true ∧
            l.rewardSubscribed b reward.amount kind = .ok (l', outcome)) ∨
          (l.status b.proposer ≠ .banned ∧ (l.status b.proposer).isSubscribed = false ∧
            l.rewardNewcomer b reward.amount kind identity = .ok (l', outcome))) := by
  unfold settleProposal at h
  cases hkind : reward.kind with
  | none =>
    rw [hkind] at h
    exact .inl ⟨rfl, h⟩
  | some kind =>
    refine .inr ⟨kind, rfl, ?_⟩
    simp only [hkind] at h
    split at h
    · rename_i hbanned
      obtain ⟨rfl, rfl⟩ := Prod.mk.inj (Except.ok.inj h)
      exact .inl ⟨hbanned, rfl, rfl⟩
    · rename_i hbanned
      split at h
      · rename_i hsubscribed
        exact .inr (.inl ⟨hbanned, hsubscribed, h⟩)
      · rename_i hsubscribed
        exact .inr (.inr ⟨hbanned, Bool.eq_false_iff.mpr hsubscribed, h⟩)

theorem postAll_append {l l' : Ledger} {first rest : List Entry} :
    l.postAll config (first ++ rest) = .ok l' ↔
      ∃ m, l.postAll config first = .ok m ∧ m.postAll config rest = .ok l' := by
  unfold postAll
  rw [List.foldlM_append, except_bind_eq_ok]

theorem postAll_cons {l l' : Ledger} {e : Entry} {rest : List Entry} :
    l.postAll config (e :: rest) = .ok l' ↔
      ∃ m, l.post config e = .ok m ∧ m.postAll config rest = .ok l' := by
  unfold postAll
  rw [List.foldlM_cons, except_bind_eq_ok]

/-- What every entry of a list preserves, the list preserves. -/
theorem postAll_induction_mem {P : Ledger → Prop} {entries : List Entry} {l l' : Ledger}
    (hstep : ∀ m m' e, e ∈ entries → P m → m.post config e = .ok m' → P m') (hl : P l)
    (h : l.postAll config entries = .ok l') : P l' := by
  induction entries generalizing l with
  | nil => exact Except.ok.inj h ▸ hl
  | cons e rest ih =>
    obtain ⟨m, hpost, hrest⟩ := postAll_cons.mp h
    have hm := hstep l m e List.mem_cons_self hl hpost
    exact ih (fun m m' e he => hstep m m' e (List.mem_cons_of_mem _ he)) hm hrest

/-- What every entry preserves, a list of entries preserves. -/
theorem postAll_induction {P : Ledger → Prop}
    (hstep : ∀ m m' e, P m → m.post config e = .ok m' → P m') {entries : List Entry} {l l' : Ledger}
    (hl : P l) (h : l.postAll config entries = .ok l') : P l' :=
  postAll_induction_mem (fun m m' e _ => hstep m m' e) hl h

theorem postAll_donations (l : Ledger) (donations : List Donation) :
    l.postAll config (donations.map .donation) = .ok (donations.foldl donate l) := by
  induction donations generalizing l with
  | nil => rfl
  | cons d rest ih => exact ih (l.donate d)

theorem postAll_unsubscriptions (l : Ledger) (events : List Unsubscription) :
    l.postAll config (events.map .unsubscription) = events.foldlM unsubscribe l := by
  unfold postAll
  rw [List.foldlM_map]
  rfl

end Ledger

/-- What the chain answered about a slot with a block. -/
structure BlockAccount where
  block : ProposedBlock
  reward : BlockReward
  identity : Option Identity
  subscriptions : List (Subscription × Option Identity)
  unsubscriptions : List Unsubscription

/-- What the chain answered about a slot. -/
inductive SlotAccount where
  | missed (proposer : ValidatorIndex)
  | proposed (a : BlockAccount)

variable {σ ε : Type}

/-- The reward of a block by the receipts that the chain gave for it, if they matter. -/
def RewardAnswered (pool : Address) (chain : Chain ε (StateM σ)) (b : ProposedBlock)
    (reward : BlockReward) : Prop :=
  ∃ tip, reward = b.rewardWithTip pool tip ∧
    if b.needsReceipts pool then
      ∃ header receipts,
        Returns (chain.receipts b.number (b.transactions.map (·.hash))) (.ok (header, receipts)) ∧
        header.tip b.transactions receipts = .ok tip
    else tip = 0

namespace BlockAccount

/-- Every part of the account is an answer of the chain. An identity that was not asked for is
missing. -/
structure Answered (a : BlockAccount) (config : Config) (chain : Chain ε (StateM σ))
    (slot : Slot) : Prop where
  proposer : Returns (chain.proposer slot) (.ok a.block.proposer)
  block : Returns (chain.block slot) (.ok (some a.block))
  reward : RewardAnswered config.poolAddress chain a.block a.reward
  identity : a.identity = none ∨
    Returns (chain.validator a.block.proposer a.block.slot) (.ok a.identity)
  subscriptions :
    Returns (chain.subscriptions a.block.number a.block.number) (.ok (a.subscriptions.map (·.1)))
  identities : ∀ e ∈ a.subscriptions, Returns (chain.validator e.1.validator slot) (.ok e.2)
  unsubscriptions :
    Returns (chain.unsubscriptions a.block.number a.block.number) (.ok a.unsubscriptions)

def entries (a : BlockAccount) (slot : Slot) : List Entry :=
  .proposal a.block a.reward a.identity :: (a.reward.donations.map .donation ++
    (a.subscriptions.map (fun e => .subscription e.1 e.2) ++
      (a.unsubscriptions.map .unsubscription ++ [.closing slot (some a.block.number)])))

end BlockAccount

namespace SlotAccount

def Answered (config : Config) (chain : Chain ε (StateM σ)) (slot : Slot) : SlotAccount → Prop
  | missed proposer =>
    Returns (chain.proposer slot) (.ok proposer) ∧ Returns (chain.block slot) (.ok none)
  | proposed a => a.Answered config chain slot

def entries (slot : Slot) : SlotAccount → List Entry
  | missed proposer => [.missed slot proposer, .closing slot none]
  | proposed a => a.entries slot

end SlotAccount

namespace Reconcile

variable {config : Config} {chain : Chain ε (StateM σ)} {l l' : Ledger} {slot : Slot}

theorem classify_succeeds {pool : Address} {b : ProposedBlock} {reward : BlockReward}
    (h : Succeeds (classify chain pool b) reward) : RewardAnswered pool chain b reward := by
  unfold classify at h
  split at h
  · rename_i hneeds
    obtain ⟨⟨header, receipts⟩, hanswer, h⟩ := succeeds_bind h
    obtain ⟨tip, htip, h⟩ := succeeds_bind h
    refine ⟨tip, succeeds_pure h, ?_⟩
    rw [if_pos hneeds]
    exact ⟨header, receipts, succeeds_ask hanswer, succeeds_must htip⟩
  · rename_i hneeds
    refine ⟨0, succeeds_pure h, ?_⟩
    rw [if_neg hneeds]

theorem settleProposer_succeeds {b : ProposedBlock} {reward : BlockReward} {outcome : Outcome}
    (h : Succeeds (settleProposer chain l b reward) (l', outcome)) :
    ∃ identity, l.settleProposal b reward identity = .ok (l', outcome) ∧
      (identity = none ∨ Returns (chain.validator b.proposer b.slot) (.ok identity)) := by
  unfold settleProposer at h
  unfold Ledger.settleProposal
  cases hkind : reward.kind with
  | none =>
    simp only [hkind] at h ⊢
    exact ⟨none, succeeds_must h, .inl rfl⟩
  | some kind =>
    simp only [hkind, settleReward] at h ⊢
    split at h
    · rename_i hbanned
      exact ⟨none, by rw [if_pos hbanned, succeeds_pure h], .inl rfl⟩
    · rename_i hbanned
      simp only [if_neg hbanned]
      split at h
      · rename_i hsubscribed
        exact ⟨none, by rw [if_pos hsubscribed, succeeds_must h], .inl rfl⟩
      · rename_i hsubscribed
        obtain ⟨identity, hanswer, h⟩ := succeeds_bind h
        exact ⟨identity, by rw [if_neg hsubscribed, succeeds_must h], .inr (succeeds_ask hanswer)⟩

theorem settleSubscription_succeeds {s : Subscription}
    (h : Succeeds (settleSubscription config chain slot l s) l') :
    ∃ identity, Returns (chain.validator s.validator slot) (.ok identity) ∧
      l.post config (.subscription s identity) = .ok l' := by
  obtain ⟨identity, hanswer, h⟩ := succeeds_bind h
  exact ⟨identity, succeeds_ask hanswer, succeeds_must h⟩

/-- Each subscription is posted with the identity that was given for it. -/
theorem settleSubscriptions_succeed {events : List Subscription}
    (h : Succeeds (events.foldlM (settleSubscription config chain slot) l) l') :
    ∃ known : List (Subscription × Option Identity), known.map (·.1) = events ∧
      (∀ e ∈ known, Returns (chain.validator e.1.validator slot) (.ok e.2)) ∧
      l.postAll config (known.map fun e => .subscription e.1 e.2) = .ok l' := by
  induction events generalizing l with
  | nil => exact ⟨[], rfl, by simp, by rw [succeeds_pure h]; rfl⟩
  | cons s rest ih =>
    rw [List.foldlM_cons] at h
    obtain ⟨m, hfirst, hrest⟩ := succeeds_bind h
    obtain ⟨identity, hanswer, hpost⟩ := settleSubscription_succeeds hfirst
    obtain ⟨known, hknown, hanswers, hposts⟩ := ih hrest
    refine ⟨(s, identity) :: known, by simp [hknown], ?_, ?_⟩
    · intro e he
      rcases List.mem_cons.mp he with rfl | he
      · exact hanswer
      · exact hanswers e he
    · rw [List.map_cons, Ledger.postAll_cons]
      exact ⟨m, hpost, hposts⟩

theorem settleBlock_succeeds {b : ProposedBlock} {report : SlotReport}
    (hproposer : Returns (chain.proposer slot) (.ok b.proposer))
    (hblock : Returns (chain.block slot) (.ok (some b)))
    (h : Succeeds (settleBlock config chain l slot b) (l', report)) :
    ∃ a : BlockAccount, a.Answered config chain slot ∧
      l.postAll config (a.entries slot) = .ok l' := by
  unfold settleBlock at h
  obtain ⟨reward, hreward, h⟩ := succeeds_bind h
  obtain ⟨⟨settled, outcome⟩, hsettled, h⟩ := succeeds_bind h
  obtain ⟨identity, hproposal, hidentity⟩ := settleProposer_succeeds hsettled
  obtain ⟨events, hevents, h⟩ := succeeds_bind h
  obtain ⟨joined, hjoined, h⟩ := succeeds_bind h
  obtain ⟨requests, hrequests, h⟩ := succeeds_bind h
  obtain ⟨left, hleft, h⟩ := succeeds_bind h
  obtain ⟨rfl, -⟩ := Prod.mk.inj (succeeds_pure h)
  obtain ⟨known, rfl, hidentities, hknown⟩ := settleSubscriptions_succeed hjoined
  refine ⟨⟨b, reward, identity, known, requests⟩, ?_, ?_⟩
  · exact ⟨hproposer, hblock, classify_succeeds hreward, hidentity, succeeds_ask hevents,
      hidentities, succeeds_ask hrequests⟩
  · unfold BlockAccount.entries
    simp only [Ledger.postAll_cons, Ledger.postAll_append, Ledger.postAll_donations,
      Ledger.postAll_unsubscriptions]
    refine ⟨settled, ?_, _, rfl, joined, hknown, left, succeeds_foldlM_must hleft, _, rfl, rfl⟩
    simp [Ledger.post, hproposal, Except.map]

/-- A slot that goes through posts the entries of an account that the chain gave of it. -/
theorem slot_succeeds {report : SlotReport}
    (h : Succeeds (Reconcile.slot config chain l slot) (l', report)) :
    ∃ a : SlotAccount, a.Answered config chain slot ∧
      l.postAll config (a.entries slot) = .ok l' := by
  unfold Reconcile.slot at h
  obtain ⟨proposer, hproposer, h⟩ := succeeds_bind h
  obtain ⟨block, hblock, h⟩ := succeeds_bind h
  cases block with
  | none =>
    obtain ⟨⟨marked, outcome⟩, hmarked, h⟩ := succeeds_bind h
    obtain ⟨rfl, -⟩ := Prod.mk.inj (succeeds_pure h)
    refine ⟨.missed proposer, ⟨succeeds_ask hproposer, succeeds_ask hblock⟩, ?_⟩
    unfold SlotAccount.entries
    simp only [Ledger.postAll_cons]
    refine ⟨marked, ?_, _, rfl, rfl⟩
    simp [Ledger.post, succeeds_must hmarked, Except.map]
  | some b =>
    by_cases hduty : b.proposer = proposer
    · simp only [hduty, ne_eq, not_true_eq_false, if_false] at h
      obtain ⟨a, ha, hentries⟩ :=
        settleBlock_succeeds (hduty ▸ succeeds_ask hproposer) (succeeds_ask hblock) h
      exact ⟨.proposed a, ha, hentries⟩
    · simp only [ne_eq, hduty, not_false_eq_true, if_true] at h
      obtain ⟨_, hthrow, _⟩ := succeeds_bind h
      exact absurd hthrow not_succeeds_throw

end Reconcile

end RewardPool
