import RewardPool.Proofs.Judgements
import RewardPool.Proofs.Postings
import RewardPool.Proofs.Replay
import RewardPool.Proofs.Splits

/-!
No slot is held up by the ledger itself. A status takes every event that a handler passes to it,
because each handler looks at the status first, and what is looked up is tracked by then. So the
handlers go through on every ledger, also on one that no run leads to, and what is left to go wrong in
a call comes from outside: the slot that is asked for, the answers of the chain, or the submission.
-/
namespace RewardPool

/-- Whether an event begins a subscription. -/
def Event.joins : Event → Bool
  | .manualSubscription | .autoSubscription => true
  | .proposalOk | .proposalMissed | .proposalWrongFee | .unsubscribe => false

/-- Who is subscribed takes all events but those that begin a subscription; these are for the others,
unless they are banned. -/
theorem Status.isSome_next? (s : Status) (e : Event) :
    (s.next? e).isSome = if e.joins then !s.isSubscribed && s ≠ .banned else s.isSubscribed := by
  cases s <;> cases e <;> rfl

theorem Status.isSubscribed_of_next? {s t : Status} {e : Event} (he : e.joins = false)
    (hnext : s.next? e = some t) : s.isSubscribed = true := by
  have hsome := s.isSome_next? e
  rw [hnext, he] at hsome
  exact hsome.symm

theorem Status.eq_active_of_joins {s t : Status} {e : Event} (he : e.joins = true)
    (hnext : s.next? e = some t) : t = .active := by
  cases s <;> cases e <;> simp_all [Event.joins, next?]

theorem Status.eq_banned_of_wrongFee {s t : Status}
    (hnext : s.next? .proposalWrongFee = some t) : t = .banned := by
  cases s <;> simp_all [next?]

namespace Ledger

variable {l : Ledger} {i : ValidatorIndex} {e : Event}

theorem status_of_find? {v : Validator} (hv : l.find? i = some v) : l.status i = v.status := by
  simp [status, hv]

/-- Only a validator that is not tracked has no entry. -/
theorem find?_of_status (hs : l.status i ≠ .untracked) : ∃ v, l.find? i = some v := by
  unfold status at hs
  cases hi : l.find? i with
  | none =>
    rw [hi] at hs
    exact absurd rfl hs
  | some v => exact ⟨v, rfl⟩

theorem find?_of_isSubscribed (hs : (l.status i).isSubscribed = true) :
    ∃ v, l.find? i = some v := by
  apply find?_of_status
  intro huntracked
  rw [huntracked] at hs
  exact absurd hs (by decide)

theorem status_getD_fresh (l : Ledger) (i : ValidatorIndex) (address : Address) (pubkey : Pubkey) :
    ((l.find? i).getD (.fresh address pubkey)).status = l.status i := by
  unfold status
  cases l.find? i <;> rfl

theorem find?_of_track (l : Ledger) (i : ValidatorIndex) (address : Address) (pubkey : Pubkey) :
    ∃ v, (l.track i address pubkey).find? i = some v ∧ v.status = l.status i :=
  ⟨_, by rw [find?_track, if_pos rfl], l.status_getD_fresh i address pubkey⟩

theorem exists_advance {v : Validator} (hv : l.find? i = some v)
    (hnext : (v.status.next? e).isSome = true) : ∃ s m, l.advance i e = .ok (s, m) := by
  obtain ⟨s, hs⟩ := Option.isSome_iff_exists.mp hnext
  exact ⟨s, _, advance_eq_ok.mpr ⟨v, hv, hs, rfl⟩⟩

theorem exists_advance_of_subscribed (hs : (l.status i).isSubscribed = true)
    (he : e.joins = false) : ∃ s m, l.advance i e = .ok (s, m) := by
  obtain ⟨v, hv⟩ := find?_of_isSubscribed hs
  apply exists_advance hv
  rw [status_of_find? hv] at hs
  rw [Status.isSome_next?, he, hs]
  rfl

theorem exists_advance_of_newcomer (address : Address) (pubkey : Pubkey)
    (hs : (l.status i).isSubscribed = false) (hbanned : l.status i ≠ .banned)
    (he : e.joins = true) : ∃ s m, (l.track i address pubkey).advance i e = .ok (s, m) := by
  obtain ⟨v, hv, hstatus⟩ := l.find?_of_track i address pubkey
  apply exists_advance hv
  rw [Status.isSome_next?, he, hstatus, hs]
  simpa using hbanned

theorem exists_redistribute (hi : ∃ v, l.find? i = some v) : ∃ d m, l.redistribute i = .ok (d, m) := by
  obtain ⟨v, hv⟩ := hi
  exact ⟨_, _, redistribute_eq_ok.mpr ⟨v, hv, rfl, rfl⟩⟩

theorem exists_addCollateral (hi : ∃ v, l.find? i = some v) (amount : Wei) :
    ∃ m, l.addCollateral i amount = .ok m := by
  obtain ⟨v, hv⟩ := hi
  exact ⟨_, addCollateral_eq_ok.mpr ⟨v, hv, rfl⟩⟩

theorem exists_settleMissed (l : Ledger) (slot : Slot) (i : ValidatorIndex) :
    ∃ r, l.settleMissed slot i = .ok r := by
  unfold settleMissed
  by_cases hs : (l.status i).isSubscribed = true
  · obtain ⟨s, m, hadvance⟩ := exists_advance_of_subscribed (e := .proposalMissed) hs rfl
    rw [hs, hadvance]
    exact ⟨_, rfl⟩
  · rw [Bool.not_eq_true] at hs
    rw [hs]
    exact ⟨_, rfl⟩

theorem exists_rewardSubscribed {b : ProposedBlock} (hs : (l.status b.proposer).isSubscribed = true)
    (reward : Wei) (kind : RewardKind) : ∃ r, l.rewardSubscribed b reward kind = .ok r := by
  obtain ⟨s, m, hadvance⟩ := exists_advance_of_subscribed (e := .proposalOk) hs rfl
  have hcredit : m.creditReward b reward kind = .ok (m.credited b reward kind) :=
    creditReward_eq_ok.mpr ⟨find?_of_advance hadvance, rfl⟩
  unfold rewardSubscribed
  rw [hadvance]
  exact ⟨_, except_bind_eq_ok.mpr ⟨_, rfl, except_bind_eq_ok.mpr ⟨_, hcredit, rfl⟩⟩⟩

theorem exists_rewardNewcomer {b : ProposedBlock}
    (hs : (l.status b.proposer).isSubscribed = false) (hbanned : l.status b.proposer ≠ .banned)
    (reward : Wei) (kind : RewardKind) (identity : Option Identity) :
    ∃ r, l.rewardNewcomer b reward kind identity = .ok r := by
  unfold rewardNewcomer
  split
  · exact ⟨_, rfl⟩
  · rename_i pubkey address _
    obtain ⟨s, m, hadvance⟩ := exists_advance_of_newcomer (e := .autoSubscription)
      address pubkey hs hbanned rfl
    have hcredit : m.creditReward b reward kind = .ok (m.credited b reward kind) :=
      creditReward_eq_ok.mpr ⟨find?_of_advance hadvance, rfl⟩
    rw [hadvance]
    exact ⟨_, except_bind_eq_ok.mpr ⟨_, rfl, except_bind_eq_ok.mpr ⟨_, hcredit, rfl⟩⟩⟩

theorem exists_settleWrongFee (l : Ledger) (b : ProposedBlock) :
    ∃ r, l.settleWrongFee b = .ok r := by
  unfold settleWrongFee
  by_cases hs : (l.status b.proposer).isSubscribed = true
  · obtain ⟨s, m, hadvance⟩ := exists_advance_of_subscribed (e := .proposalWrongFee) hs rfl
    obtain ⟨d, m', hshared⟩ := exists_redistribute (find?_of_advance hadvance)
    rw [hs, hadvance]
    exact ⟨_, except_bind_eq_ok.mpr ⟨_, rfl, except_bind_eq_ok.mpr ⟨_, hshared, rfl⟩⟩⟩
  · rw [Bool.not_eq_true] at hs
    rw [hs]
    exact ⟨_, rfl⟩

theorem exists_subscribe (l : Ledger) (config : Config) (s : Subscription)
    (identity : Option Identity) : ∃ m, l.subscribe config s identity = .ok m := by
  unfold subscribe
  by_cases haccepts : l.accepts config s identity = true
  · rw [haccepts]
    cases identity with
    | none => simp [accepts] at haccepts
    | some id =>
      have hbanned : l.status s.validator ≠ .banned := by
        simp only [accepts, Bool.and_eq_true, decide_eq_true_eq] at haccepts
        exact haccepts.2.2
      by_cases hs : (l.status s.validator).isSubscribed = true
      · obtain ⟨m, hadd⟩ := exists_addCollateral (find?_of_isSubscribed hs) s.collateral
        simp only [hs, hadd]
        exact ⟨m, rfl⟩
      · rw [Bool.not_eq_true] at hs
        obtain ⟨t, joined, hadvance⟩ := exists_advance_of_newcomer (e := .manualSubscription)
          s.sender id.pubkey hs hbanned rfl
        obtain ⟨m, hadd⟩ := exists_addCollateral (find?_of_advance hadvance) s.collateral
        simp only [hs, hadvance]
        exact ⟨m, hadd⟩
  · rw [Bool.not_eq_true] at haccepts
    rw [haccepts]
    exact ⟨_, rfl⟩

theorem exists_unsubscribe (l : Ledger) (u : Unsubscription) : ∃ m, l.unsubscribe u = .ok m := by
  unfold unsubscribe
  dsimp only
  generalize { l with unsubscriptions := l.unsubscriptions ++ [u] } = logged
  by_cases hs : (logged.status u.validator).isSubscribed = true
  · obtain ⟨v, hv⟩ := find?_of_isSubscribed hs
    rw [hs, validator_eq_ok.mpr hv]
    by_cases howner : v.withdrawalAddress = u.sender
    · obtain ⟨s, m, hadvance⟩ := exists_advance_of_subscribed (e := .unsubscribe) hs rfl
      obtain ⟨d, m', hshared⟩ := exists_redistribute (find?_of_advance hadvance)
      refine ⟨m', except_bind_eq_ok.mpr ⟨v, rfl, ?_⟩⟩
      rw [if_neg (not_not.mpr howner), hadvance]
      exact except_bind_eq_ok.mpr ⟨_, rfl, except_bind_eq_ok.mpr ⟨_, hshared, rfl⟩⟩
    · refine ⟨logged, except_bind_eq_ok.mpr ⟨v, rfl, ?_⟩⟩
      rw [if_pos howner]
      rfl
  · rw [Bool.not_eq_true] at hs
    rw [hs]
    exact ⟨_, rfl⟩

end Ledger

/-- The contradictions that a block can have with its header and its receipts. -/
inductive Fault.OfReceipts : Fault → Prop
  | receiptCount (block : BlockNumber) (transactions receipts : Nat) :
      OfReceipts (.receiptCount block transactions receipts)
  | receiptOrder (block : BlockNumber) (transaction receipt : Hash) :
      OfReceipts (.receiptOrder block transaction receipt)
  | missingBaseFee (block : BlockNumber) : OfReceipts (.missingBaseFee block)
  | negativeTip (block : BlockNumber) (collected burned : Wei) :
      OfReceipts (.negativeTip block collected burned)
  | unsupportedTransaction (hash : Hash) (type : UInt8) :
      OfReceipts (.unsupportedTransaction hash type)

theorem Transaction.ofReceipts_of_effectivePrice {t : Transaction} {baseFee : UInt64} {f : Fault}
    (h : t.effectivePrice baseFee = .error f) : f.OfReceipts := by
  unfold effectivePrice at h
  split at h
  · exact Except.error.inj h ▸ .unsupportedTransaction _ _
  · split at h
    · exact absurd h (by simp)
    · split at h
      · exact Except.error.inj h ▸ .unsupportedTransaction _ _
      · exact absurd h (by simp)

namespace Header

theorem ofReceipts_of_collect {h : Header} {baseFee : UInt64} {collected : Wei}
    {p : Transaction × Receipt} {f : Fault} (hf : h.collect baseFee collected p = .error f) :
    f.OfReceipts := by
  obtain ⟨t, r⟩ := p
  unfold collect at hf
  by_cases hhash : t.hash = r.hash
  · cases hprice : t.effectivePrice baseFee with
    | ok price => simp [hhash, hprice, bind, Except.bind, pure, Except.pure] at hf
    | error g =>
      obtain rfl : g = f := by simpa [hhash, hprice, bind, Except.bind] using hf
      exact t.ofReceipts_of_effectivePrice hprice
  · obtain rfl : Fault.receiptOrder h.number t.hash r.hash = f := by
      simpa [hhash, bind, Except.bind, throw, throwThe, MonadExceptOf.throw] using hf
    exact .receiptOrder _ _ _

theorem ofReceipts_of_foldlM_collect {h : Header} {baseFee : UInt64} {collected : Wei}
    {ps : List (Transaction × Receipt)} {f : Fault}
    (hf : ps.foldlM (h.collect baseFee) collected = .error f) : f.OfReceipts := by
  induction ps generalizing collected with
  | nil => exact absurd hf (by simp [pure, Except.pure])
  | cons p rest ih =>
    rw [List.foldlM_cons] at hf
    cases hfirst : h.collect baseFee collected p with
    | ok sum =>
      rw [hfirst] at hf
      exact ih hf
    | error g =>
      rw [hfirst] at hf
      obtain rfl : g = f := Except.error.inj hf
      exact ofReceipts_of_collect hfirst

theorem ofReceipts_of_tip {h : Header} {transactions : List Transaction} {receipts : List Receipt}
    {f : Fault} (hf : h.tip transactions receipts = .error f) : f.OfReceipts := by
  unfold tip at hf
  by_cases hcount : transactions.length = receipts.length
  · rw [if_neg (not_not.mpr hcount)] at hf
    cases hbase : h.baseFee with
    | none =>
      rw [hbase] at hf
      exact Except.error.inj hf ▸ .missingBaseFee h.number
    | some baseFee =>
      rw [hbase] at hf
      cases hpaid : (transactions.zip receipts).foldlM (h.collect baseFee) 0 with
      | error g =>
        simp only [hpaid] at hf
        obtain rfl : g = f := Except.error.inj hf
        exact ofReceipts_of_foldlM_collect hpaid
      | ok collected =>
        simp only [hpaid, bind, Except.bind, pure, Except.pure] at hf
        split at hf
        · exact absurd hf (by simp)
        · exact Except.error.inj hf ▸ .negativeTip h.number collected _
  · rw [if_pos hcount] at hf
    exact Except.error.inj hf ▸ .receiptCount h.number _ _

end Header

variable {σ ε α β : Type}

/-- The failures for which the ledger is not to blame. -/
inductive Failure.FromOutside : Failure ε → Prop
  | slotOutOfOrder (expected got : Slot) : FromOutside (.fault (.slotOutOfOrder expected got))
  | provider (cause : ε) : FromOutside (.provider cause)
  | proposerMismatch (slot : Slot) (duty proposer : ValidatorIndex) :
      FromOutside (.fault (.proposerMismatch slot duty proposer))
  | receipts {f : Fault} (hf : f.OfReceipts) : FromOutside (.fault f)
  | submission (failure : SubmissionFailure ε) : FromOutside (.submission failure)

namespace Reconcile

/-- A step that fails from outside only. -/
def FailsFromOutside (x : Step ε (StateM σ) α) : Prop :=
  (Judgement.returning.except Failure.FromOutside).Passes x

theorem failsFromOutside_ask (question : StateM σ (Except ε α)) :
    FailsFromOutside (ask question) := by
  intro r hr
  obtain ⟨answer, -, hr⟩ := returns_bind hr
  cases answer with
  | ok a => exact returns_pure hr ▸ trivial
  | error e => exact returns_pure hr ▸ .provider e

theorem failsFromOutside_must {x : Except Fault α}
    (hx : ∀ f, x = .error f → (Failure.fault f : Failure ε).FromOutside) :
    FailsFromOutside (must x : Step ε (StateM σ) α) := by
  intro r hr
  cases x with
  | ok a => exact returns_pure hr ▸ trivial
  | error f => exact returns_pure hr ▸ hx f rfl

theorem failsFromOutside_must_of_exists {x : Except Fault α} (hx : ∃ a, x = .ok a) :
    FailsFromOutside (must x : Step ε (StateM σ) α) := by
  obtain ⟨a, rfl⟩ := hx
  apply failsFromOutside_must
  intro f hf
  exact absurd hf (by simp)

theorem failsFromOutside_pure (a : α) : FailsFromOutside (pure a : Step ε (StateM σ) α) :=
  Judgement.passes_pure _ a

theorem failsFromOutside_bind {x : Step ε (StateM σ) α} {f : α → Step ε (StateM σ) β}
    (hx : FailsFromOutside x) (hf : ∀ a, FailsFromOutside (f a)) : FailsFromOutside (x >>= f) :=
  Judgement.passes_bind hx hf

theorem failsFromOutside_foldlM {f : β → α → Step ε (StateM σ) β}
    (hf : ∀ b a, FailsFromOutside (f b a)) (as : List α) (b : β) :
    FailsFromOutside (as.foldlM f b) := by
  induction as generalizing b with
  | nil => exact failsFromOutside_pure b
  | cons a rest ih =>
    rw [List.foldlM_cons]
    exact failsFromOutside_bind (hf b a) ih

variable {config : Config} {chain : Chain ε (StateM σ)} {l : Ledger} {b : ProposedBlock}

theorem classify_failsFromOutside (chain : Chain ε (StateM σ)) (pool : Address)
    (b : ProposedBlock) : FailsFromOutside (classify chain pool b) := by
  unfold classify
  split
  · apply failsFromOutside_bind (failsFromOutside_ask _)
    intro (header, receipts)
    apply failsFromOutside_bind
    · apply failsFromOutside_must
      intro f hf
      exact .receipts (Header.ofReceipts_of_tip hf)
    · intro tip
      exact failsFromOutside_pure _
  · exact failsFromOutside_pure _

theorem settleProposer_failsFromOutside (chain : Chain ε (StateM σ)) (l : Ledger)
    (b : ProposedBlock) (reward : BlockReward) :
    FailsFromOutside (settleProposer chain l b reward) := by
  unfold settleProposer
  cases reward.kind with
  | none => exact failsFromOutside_must_of_exists (l.exists_settleWrongFee b)
  | some kind =>
    dsimp only
    unfold settleReward
    by_cases hbanned : l.status b.proposer = .banned
    · simp only [if_pos hbanned]
      exact failsFromOutside_pure _
    · by_cases hs : (l.status b.proposer).isSubscribed = true
      · simp only [if_neg hbanned, if_pos hs]
        exact failsFromOutside_must_of_exists (Ledger.exists_rewardSubscribed hs _ _)
      · simp only [if_neg hbanned, if_neg hs]
        rw [Bool.not_eq_true] at hs
        apply failsFromOutside_bind (failsFromOutside_ask _)
        intro identity
        exact failsFromOutside_must_of_exists (Ledger.exists_rewardNewcomer hs hbanned _ _ _)

theorem settleSubscription_failsFromOutside (config : Config) (chain : Chain ε (StateM σ))
    (slot : Slot) (l : Ledger) (s : Subscription) :
    FailsFromOutside (settleSubscription config chain slot l s) := by
  unfold settleSubscription
  apply failsFromOutside_bind (failsFromOutside_ask _)
  intro identity
  exact failsFromOutside_must_of_exists (Ledger.exists_subscribe _ config s identity)

theorem settleBlock_failsFromOutside (config : Config) (chain : Chain ε (StateM σ)) (l : Ledger)
    (slot : Slot) (b : ProposedBlock) :
    FailsFromOutside (settleBlock config chain l slot b) := by
  unfold settleBlock
  apply failsFromOutside_bind (classify_failsFromOutside chain _ b)
  intro reward
  apply failsFromOutside_bind (settleProposer_failsFromOutside chain l b reward)
  intro (settled, outcome)
  apply failsFromOutside_bind (failsFromOutside_ask _)
  intro events
  apply failsFromOutside_bind
  · exact failsFromOutside_foldlM (settleSubscription_failsFromOutside config chain slot) events _
  · intro joined
    apply failsFromOutside_bind (failsFromOutside_ask _)
    intro requests
    apply failsFromOutside_bind
    · apply failsFromOutside_foldlM
      intro l u
      exact failsFromOutside_must_of_exists (l.exists_unsubscribe u)
    · intro left
      exact failsFromOutside_pure _

theorem slot_failsFromOutside (config : Config) (chain : Chain ε (StateM σ)) (l : Ledger)
    (slot : Slot) : FailsFromOutside (Reconcile.slot config chain l slot) := by
  unfold Reconcile.slot
  apply failsFromOutside_bind (failsFromOutside_ask _)
  intro proposer
  apply failsFromOutside_bind (failsFromOutside_ask _)
  intro block
  cases block with
  | none =>
    apply failsFromOutside_bind (failsFromOutside_must_of_exists (l.exists_settleMissed slot proposer))
    intro (settled, outcome)
    exact failsFromOutside_pure _
  | some b =>
    dsimp only
    split
    · apply failsFromOutside_bind
      · intro r hr
        exact returns_pure hr ▸ .proposerMismatch slot proposer b.proposer
      · intro _
        exact settleBlock_failsFromOutside config chain l slot b
    · exact settleBlock_failsFromOutside config chain l slot b

end Reconcile

namespace Oracle

open Merkle (Digest)

theorem Called.fromOutside {h : Digest} {chain : Chain ε (StateM σ)}
    {submitter : Option (Submitter ε (StateM σ))} {o o' : Oracle} {slot : Slot} {w w' : σ}
    {failure : Failure ε} (hcalled : Called h chain submitter o slot w (.error failure) o' w')
    (hsize : o.config.checkpointSize ≠ 0) : failure.FromOutside := by
  generalize hr : (Except.error failure : Except (Failure ε) SlotReport) = r at hcalled
  cases hcalled with
  | outOfOrder hslot => exact Except.error.inj hr ▸ .slotOutOfOrder _ _
  | failed hslot hfailed =>
    obtain rfl := Except.error.inj hr
    exact Reconcile.slot_failsFromOutside _ _ _ _ _ (returns_of_run hfailed)
  | aborted hslot hdone hdue => exact absurd hdue (Config.isCheckpointSlot?_ne_none hsize slot)
  | passed hslot hdone hdue => exact absurd hr (by simp)
  | committed hslot hdone hdue hcommit =>
    rcases hcommit.result with ⟨c, rfl⟩ | ⟨f, rfl⟩
    · exact absurd hr (by simp [Except.map])
    · exact Except.error.inj hr ▸ .submission f

theorem nextSlot_of_latestSlot {o : Oracle} {s : Slot} (hs : o.ledger.latestSlot = some s)
    (hmax : s.toNat < 2 ^ 64 - 1) : o.nextSlot.toNat = s.toNat + 1 := by
  have hone : (1 : UInt64).toNat = 1 := rfl
  unfold nextSlot
  rw [hs]
  dsimp only
  rw [UInt64.toNat_add]
  omega

theorem checkpointSize_ne_zero {config : Config} (hconfig : config.fault? = none) :
    config.checkpointSize ≠ 0 := by
  intro hzero
  unfold Config.fault? at hconfig
  rw [if_pos hzero] at hconfig
  split at hconfig <;> exact absurd hconfig (by simp)

theorem ofNat_eligibleCount_ne_zero {l : Ledger} (hcount : l.eligibleCount ≠ 0) :
    BitVec.ofNat 256 l.eligibleCount ≠ 0 := by
  intro hzero
  apply hcount
  rw [← l.toNat_eligibleCount, hzero]
  rfl

/-- With a good configuration the ledger holds up no slot, whatever it is and whatever the chain
answers. The next slot is a slot, nothing is divided by zero, and a failure is one from outside. -/
theorem processSlot_fails_from_outside {σ ε : Type} (h : Digest) (chain : Chain ε (StateM σ))
    (submitter : Option (Submitter ε (StateM σ))) {o : Oracle} (hconfig : o.config.fault? = none)
    (hlatest : ∀ s, o.ledger.latestSlot = some s → s.toNat < 2 ^ 64 - 1) (slot : Slot) (w : σ) :
    (∀ s, o.ledger.latestSlot = some s → o.nextSlot.toNat = s.toNat + 1) ∧
    o.config.checkpointSize ≠ 0 ∧
    (∀ l : Ledger, l.eligibleCount ≠ 0 → BitVec.ofNat 256 l.eligibleCount ≠ 0) ∧
    ∀ failure, ((o.processSlot h chain submitter slot).run w).1.1 = .error failure →
      failure.FromOutside ∧ failure ≠ .aborted ∧
      (∀ i status e, failure ≠ .fault (.invalidTransition i status e)) ∧
      ∀ i, failure ≠ .fault (.unknownValidator i) := by
  refine ⟨?_, checkpointSize_ne_zero hconfig, fun l => ofNat_eligibleCount_ne_zero, ?_⟩
  · intro s hs
    exact nextSlot_of_latestSlot hs (hlatest s hs)
  · intro failure hfailure
    obtain ⟨⟨⟨r, o'⟩, w'⟩, hrun⟩ : ∃ call, (o.processSlot h chain submitter slot).run w = call :=
      ⟨_, rfl⟩
    rw [hrun] at hfailure
    obtain rfl : r = .error failure := hfailure
    have houtside := (processSlot_called hrun).fromOutside (checkpointSize_ne_zero hconfig)
    refine ⟨houtside, ?_, ?_, ?_⟩
    · rintro rfl
      cases houtside
    · rintro i status e rfl
      obtain _ | _ | _ | hreceipts | _ := houtside
      cases hreceipts
    · rintro i rfl
      obtain _ | _ | _ | hreceipts | _ := houtside
      cases hreceipts

end Oracle

/-! No run leads to this ledger: who is not tracked has an entry in it, and a balance. It comes to a
block that pays its fees to the pool, with a transaction of a type that has no price. -/
namespace StrayLedger

def ledger : Ledger :=
  { QuietChain.oracle.ledger with
    validators := .insert .empty 7
      { Validator.fresh .zero .zero with status := .untracked, pending := 5 }
    latestSlot := some 200 }

def oracle : Oracle := { QuietChain.oracle with ledger }

def transaction : Transaction where
  hash := .fill 0x0d
  type := 9
  sender := .fill 0x10
  recipient := none
  value := 0
  gasPrice := none
  feeCap := 0
  tipCap := none

def history : History :=
  { QuietChain.history with
    block := fun slot =>
      some
        { slot, proposer := 7, number := 1001, feeRecipient := .fill 0xaa,
          transactions := [transaction] }
    receipts := fun number hashes => (⟨number, some 7, 21000⟩, hashes.map (⟨·, 21000⟩)) }

theorem fails_from_outside :
    let chain : Chain Empty (StateM Unit) := history.chain
    oracle.config.fault? = none ∧
      (∀ s, oracle.ledger.latestSlot = some s → s.toNat < 2 ^ 64 - 1) ∧
      ((oracle.processSlot Keccak.digest chain none 201).run ()).1.1 =
        .error (.fault (.unsupportedTransaction (.fill 0x0d) 9)) ∧
      (Failure.fault (.unsupportedTransaction (.fill 0x0d) 9) : Failure Empty).FromOutside := by
  intro chain
  have hconfig : oracle.config.fault? = none := by decide
  have hlatest : ∀ s, oracle.ledger.latestSlot = some s → s.toNat < 2 ^ 64 - 1 := by
    rintro s ⟨⟩
    decide
  have hfailure : ((oracle.processSlot Keccak.digest chain none 201).run ()).1.1 =
      .error (.fault (.unsupportedTransaction (.fill 0x0d) 9)) := rfl
  obtain ⟨-, -, -, hfails⟩ := Oracle.processSlot_fails_from_outside Keccak.digest chain none
    hconfig hlatest 201 ()
  exact ⟨hconfig, hlatest, hfailure, (hfails _ hfailure).1⟩

end StrayLedger

end RewardPool
