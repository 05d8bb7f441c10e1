import RewardPool.Proofs.Conservation
import RewardPool.Proofs.Histories

/-!
What a slot with a block brings in. The transfers of the block come in through the scan of its
transactions, each of them once, as a payment of the builder or as a donation. Subscriptions come in
through the events of the contract. Nothing matches the one against the other, so a transfer that
carries the collateral of a subscription comes in twice.
-/
namespace RewardPool

/-- The transaction of a subscription brought its collateral as the value. -/
def Transaction.Carries (t : Transaction) (s : Subscription) : Prop :=
  t.hash = s.transaction ∧ t.value = s.collateral

namespace Transaction

instance (t : Transaction) (s : Subscription) : Decidable (t.Carries s) :=
  inferInstanceAs (Decidable (_ ∧ _))

variable {ts : List Transaction}

/-- A transfer without value is counted on neither side, and counts for nothing. -/
theorem sum_by_sender (payer : Address) (ts : List Transaction) :
    (ts.map (·.value)).sum =
      ((ts.filter (·.sender = payer)).map (·.value)).sum +
        ((ts.filter fun t => t.sender ≠ payer ∧ 0 < t.value).map (·.value)).sum := by
  induction ts with
  | nil => simp
  | cons t rest ih =>
    rw [List.map_cons, List.sum_cons, ih]
    by_cases hpayer : t.sender = payer
    · simp [hpayer, add_assoc]
    · by_cases hvalue : 0 < t.value
      · rw [List.filter_cons_of_neg (by simpa using hpayer),
          List.filter_cons_of_pos (by simpa [hpayer] using hvalue), List.map_cons, List.sum_cons]
        ring
      · have hzero : t.value = 0 := by
          have := BitVec.not_lt.mp hvalue
          exact BitVec.le_zero_iff.mp this
        simp [hpayer, hzero]

theorem sum_same_hash (hts : (ts.map (·.hash)).Nodup) {t : Transaction} (ht : t ∈ ts) :
    (ts.map fun u => if u.hash = t.hash then u.value else 0).sum = t.value := by
  induction ts with
  | nil => simp at ht
  | cons u rest ih =>
    obtain ⟨hfresh, hrest⟩ := List.nodup_cons.mp hts
    rw [List.map_cons, List.sum_cons]
    rcases List.mem_cons.mp ht with rfl | ht
    · have hothers : (rest.map fun u => if u.hash = t.hash then u.value else 0).sum = 0 := by
        refine List.sum_eq_zero fun x hx => ?_
        obtain ⟨u, hu, rfl⟩ := List.mem_map.mp hx
        exact if_neg fun heq => hfresh (List.mem_map.mpr ⟨u, hu, heq⟩)
      rw [if_pos rfl, hothers, add_zero]
    · have hother : u.hash ≠ t.hash := fun heq => hfresh (List.mem_map.mpr ⟨t, ht, heq.symm⟩)
      rw [if_neg hother, zero_add, ih hrest ht]

/-- Subscriptions that came by different transfers brought what those transfers are worth. -/
theorem sum_carried (hts : (ts.map (·.hash)).Nodup) {events : List Subscription}
    (hevents : (events.map (·.transaction)).Nodup)
    (hcarried : ∀ s ∈ events, ∃ t ∈ ts, t.Carries s) :
    (events.map (·.collateral)).sum =
      (ts.map fun t => if t.hash ∈ events.map (·.transaction) then t.value else 0).sum := by
  induction events with
  | nil => simp
  | cons s rest ih =>
    obtain ⟨hfresh, hrest⟩ := List.nodup_cons.mp hevents
    obtain ⟨t, ht, hhash, hvalue⟩ := hcarried s List.mem_cons_self
    -- The transfer of `s` carries no other subscription, so it is in one of the two sums only.
    have hsplit : ∀ u : Transaction,
        (if u.hash ∈ (s :: rest).map (·.transaction) then u.value else 0) =
          (if u.hash = t.hash then u.value else 0) +
            if u.hash ∈ rest.map (·.transaction) then u.value else 0 := by
      intro u
      simp only [List.map_cons, List.mem_cons, ← hhash]
      by_cases hu : u.hash = t.hash
      · have hone : u.hash ∉ rest.map (·.transaction) := by rwa [hu, hhash]
        rw [if_pos (.inl hu), if_pos hu, if_neg hone, add_zero]
      · simp [hu]
    have hrestCarried : ∀ s' ∈ rest, ∃ t ∈ ts, t.Carries s' :=
      fun s' hs' => hcarried s' (List.mem_cons_of_mem _ hs')
    rw [List.map_cons, List.sum_cons, ih hrest hrestCarried, ← hvalue, ← sum_same_hash hts ht,
      ← List.sum_map_add]
    exact congrArg List.sum (List.map_congr_left fun u _ => (hsplit u).symm)

end Transaction

namespace ProposedBlock

variable (b : ProposedBlock) (pool : Address)

theorem mevTotal_transfers :
    (b.transfers pool).mevTotal = ((b.builderTransfers pool).map (·.value)).sum := rfl

theorem sum_transfersTo :
    ((b.transfersTo pool).map (·.value)).sum =
      (b.transfers pool).mevTotal + ((b.donationsTo pool).map (·.amount)).sum := by
  rw [Transaction.sum_by_sender b.feeRecipient, mevTotal_transfers]
  simp [builderTransfers, donationsTo, Function.comp_def]

/-- The builder's transfers are the reward, and the tip is one where the pool is fee recipient and
no such transfer paid anything. -/
theorem amount_rewardWithTip (tip : Wei) :
    (if (b.rewardWithTip pool tip).kind.isSome then (b.rewardWithTip pool tip).amount else 0) =
      (b.transfers pool).mevTotal +
        if (b.rewardWithTip pool tip).kind = some .vanilla then (b.rewardWithTip pool tip).amount
        else 0 := by
  have hnone : (b.transfers pool).mevMatches = 0 → (b.transfers pool).mevTotal = 0 := by
    intro hmatches
    have hnil : b.builderTransfers pool = [] := List.eq_nil_of_length_eq_zero hmatches
    simp [mevTotal_transfers, hnil]
  have hzero : ¬ 0 < (b.transfers pool).mevTotal → (b.transfers pool).mevTotal = 0 :=
    fun hpaid => BitVec.le_zero_iff.mp (BitVec.not_lt.mp hpaid)
  unfold rewardWithTip
  by_cases hpaid : 0 < (b.transfers pool).mevTotal
  · rw [if_pos hpaid]
    simp
  · rw [if_neg hpaid]
    by_cases hpool : b.feeRecipient = pool
    · simp [hpool, hzero hpaid]
    · by_cases hmatches : 0 < (b.transfers pool).mevMatches
      · simp [hpool, hmatches, hzero hpaid]
      · simp [hpool, hmatches, hnone (by omega)]

theorem donations_rewardWithTip (tip : Wei) :
    (b.rewardWithTip pool tip).donations = b.donationsTo pool := by
  unfold rewardWithTip
  dsimp only
  split
  · rfl
  · split
    · rfl
    · split <;> rfl

end ProposedBlock

namespace BlockAccount

theorem inflow_entries (a : BlockAccount) (slot : Slot) :
    ((a.entries slot).map (·.inflow)).sum =
      (if a.reward.kind.isSome then a.reward.amount else 0) +
        (a.reward.donations.map (·.amount)).sum +
          ((a.subscriptions.map (·.1)).map (·.collateral)).sum := by
  simp [entries, Entry.inflow, Function.comp_def, add_assoc]

theorem donations_entries (a : BlockAccount) (slot : Slot) :
    (a.entries slot).flatMap (·.donations) = a.reward.donations := by
  simp [entries, Entry.donations, List.flatMap_append, List.flatMap_map]

end BlockAccount

namespace Reconcile

variable {σ ε : Type} {config : Config} {chain : Chain ε (StateM σ)} {l l' : Ledger} {slot : Slot}
variable {b : ProposedBlock} {events : List Subscription}

/-- A slot with a block brings in every transfer of the block to the pool once, and once more if a
subscription came by it. The first time it is a payment of the builder or a logged donation. -/
theorem transfers_with_subscriptions_count_twice (hblock : Says (chain.block slot) (some b))
    (hevents : Says (chain.subscriptions b.number b.number) events)
    (hhashes : (b.transactions.map (·.hash)).Nodup)
    (hcarriers : (events.map (·.transaction)).Nodup)
    (hcarried : ∀ s ∈ events, ∃ t ∈ b.transfersTo config.poolAddress, t.Carries s)
    {report : SlotReport}
    (h : Returns (Reconcile.slot config chain l slot).run (.ok (l', report))) :
    ∃ reward, RewardAnswered config.poolAddress chain b reward ∧
      l'.held = l.held +
        ((b.transfersTo config.poolAddress).map fun t =>
          if t.hash ∈ events.map (·.transaction) then t.value + t.value else t.value).sum +
        (if reward.kind = some .vanilla then reward.amount else 0) ∧
      ∀ s ∈ events, 0 < s.collateral →
        (∃ t ∈ b.builderTransfers config.poolAddress, t.Carries s) ∨
          ∃ d ∈ l'.donations, d.transaction = s.transaction ∧ d.amount = s.collateral := by
  obtain ⟨a, ha, hposts⟩ := slot_succeeds h
  cases a with
  | missed proposer => exact absurd (hblock.eq ha.2) (by simp)
  | proposed a =>
    obtain rfl : a.block = b := Option.some.inj (hblock.eq ha.block)
    have hknown : a.subscriptions.map (·.1) = events := hevents.eq ha.subscriptions
    obtain ⟨tip, hreward, -⟩ := ha.reward
    have hdonations : a.reward.donations = a.block.donationsTo config.poolAddress := by
      rw [hreward, ProposedBlock.donations_rewardWithTip]
    refine ⟨a.reward, ha.reward, ?_, ?_⟩
    · have hscan := a.block.sum_transfersTo config.poolAddress
      have hpaid := a.block.amount_rewardWithTip config.poolAddress tip
      have htransfers : ((a.block.transfersTo config.poolAddress).map (·.hash)).Nodup :=
        (List.filter_sublist.map Transaction.hash).nodup hhashes
      have htwice := Transaction.sum_carried htransfers hcarriers hcarried
      have hsplit : ∀ t : Transaction,
          (if t.hash ∈ events.map (·.transaction) then t.value + t.value else t.value) =
            t.value + if t.hash ∈ events.map (·.transaction) then t.value else 0 := by
        intro t
        split <;> simp
      rw [Ledger.held_postAll hposts, SlotAccount.entries, BlockAccount.inflow_entries, hknown,
        hdonations]
      simp only [hsplit, List.sum_map_add]
      rw [← hreward] at hpaid
      rw [← htwice, hscan, hpaid]
      ring
    · intro s hs hcollateral
      obtain ⟨t, ht, hhash, hvalue⟩ := hcarried s hs
      by_cases hbuilder : t.sender = a.block.feeRecipient
      · exact .inl ⟨t, List.mem_filter.mpr ⟨ht, by simpa using hbuilder⟩, hhash, hvalue⟩
      · refine .inr ⟨⟨t.sender, t.value, a.block.number, t.hash⟩, ?_, hhash, hvalue⟩
        rw [Ledger.donations_postAll hposts, SlotAccount.entries, BlockAccount.donations_entries,
          hdonations]
        refine List.mem_append_right _ (List.mem_map.mpr ⟨t, List.mem_filter.mpr ⟨ht, ?_⟩, rfl⟩)
        rw [hvalue]
        simpa [hbuilder] using hcollateral

end Reconcile

/-! A validator subscribes by a call of its own, the only transaction of its block. -/
namespace SubscribeCall

def config : Config where
  poolAddress := .fill 0xaa
  deployedSlot := 100
  deployedBlock := 1000
  checkpointSize := 10
  feePercent := 0
  feeAddress := .fill 0xfe
  collateral := 1000
  eligibility := .activeOnly

def call : Transaction where
  hash := .fill 0x0d
  type := 2
  sender := .fill 0x10
  recipient := some (.fill 0xaa)
  value := 1000
  gasPrice := none
  feeCap := 0
  tipCap := none

def block : ProposedBlock where
  slot := 100
  proposer := 9
  number := 1000
  feeRecipient := .fill 0x66
  transactions := [call]

def event : Subscription where
  validator := 0
  sender := .fill 0x10
  collateral := 1000
  block := 1000
  logIndex := 0
  transaction := .fill 0x0d

def history : History where
  proposer _ := 9
  block slot := if slot = 100 then some block else none
  receipts number _ := (⟨number, none, 0⟩, [])
  subscriptions first last := if first ≤ 1000 ∧ 1000 ≤ last then [event] else []
  unsubscriptions _ _ := []
  validator i _ := if i = 0 then some ⟨0, .zero, some (.fill 0x10)⟩ else none

/-- The only payment of the slot is worth 1000. -/
theorem held_exceeds_payments :
    (∀ s ∈ history.subscriptions 1000 1000, ∃ t ∈ block.transfersTo config.poolAddress,
      t.Carries s) ∧
    (block.transactions.map (·.hash)).Nodup ∧
    ((history.subscriptions 1000 1000).map (·.transaction)).Nodup ∧
    (block.rewardWithTip config.poolAddress 0).kind ≠ some .vanilla ∧
    ∃ l', history.reconcile config (.fresh config) 100 = .ok l' ∧
      l'.held ≠ (Ledger.fresh config).held +
        ((block.transfersTo config.poolAddress).map (·.value)).sum := by
  refine ⟨by decide, by decide, by decide, by decide, _, rfl, ?_⟩
  decide

theorem call_counts_twice :
    ∃ l' report reward,
      Returns (Reconcile.slot config (history.chain : Chain Empty (StateM Unit)) (.fresh config)
        100).run (.ok (l', report)) ∧
      RewardAnswered config.poolAddress (history.chain : Chain Empty (StateM Unit)) block reward ∧
      l'.held = (Ledger.fresh config).held +
        ((block.transfersTo config.poolAddress).map fun t =>
          if t.hash ∈ [event].map (·.transaction) then t.value + t.value else t.value).sum +
        (if reward.kind = some .vanilla then reward.amount else 0) ∧
      ∀ s ∈ [event], 0 < s.collateral →
        (∃ t ∈ block.builderTransfers config.poolAddress, t.Carries s) ∨
          ∃ d ∈ l'.donations, d.transaction = s.transaction ∧ d.amount = s.collateral := by
  have hanswers := history.governs_chain (σ := Unit) (ε := Empty)
  have hdone : ∃ done : Ledger × SlotReport, Returns (Reconcile.slot config
      (history.chain : Chain Empty (StateM Unit)) (.fresh config) 100).run (.ok done) :=
    ⟨_, (), rfl⟩
  obtain ⟨⟨l', report⟩, hrun⟩ := hdone
  obtain ⟨reward, hreward⟩ := Reconcile.transfers_with_subscriptions_count_twice
    (hanswers.block 100) (hanswers.subscriptions 1000 1000) (by decide) (by decide) (by decide)
    hrun
  exact ⟨l', report, reward, hrun, hreward⟩

end SubscribeCall

end RewardPool
