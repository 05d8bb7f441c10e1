import RewardPool.Keccak
import RewardPool.Proofs.BlockIncome
import RewardPool.Proofs.Postings

/-!
The lives of validators. Whoever the ledger tracks has a status of its own, and whoever is not
subscribed waits for nothing: a validator that leaves or is banned gives up its pending balance in the
same step, and later splits pass it by. A ban is for good, and the entry of a banned validator is
never written to again. Between the change of a status and the sharing of the balance the entry of one
validator is out of order, so each step is followed with that entry left out until it is in order
again.
-/
namespace RewardPool

/-- A tracked validator as each step leaves it: without a subscription there is nothing pending. -/
structure Validator.Orderly (v : Validator) : Prop where
  tracked : v.status ≠ .untracked
  idle : v.status.isSubscribed = false → v.pending = 0

theorem Validator.Orderly.of_subscribed {v : Validator} (hv : v.status.isSubscribed = true) :
    v.Orderly where
  tracked huntracked := by
    rw [huntracked] at hv
    exact absurd hv (by decide)
  idle hidle := absurd (hv.symm.trans hidle) (by decide)

/-- Whether an event ends a subscription. -/
def Event.ends : Event → Bool
  | .proposalWrongFee | .unsubscribe => true
  | .proposalOk | .proposalMissed | .manualSubscription | .autoSubscription => false

theorem Status.of_next? {s t : Status} {e : Event} (h : s.next? e = some t) :
    s ≠ .banned ∧ t ≠ .untracked ∧ t.isSubscribed = !e.ends := by
  cases s <;> cases e <;> cases h <;> exact ⟨by decide, by decide, rfl⟩

theorem Eligibility.isSubscribed_of_admits {p : Eligibility} {s : Status} (h : p.admits s = true) :
    s.isSubscribed = true := by
  cases p <;> cases s <;> first | rfl | exact absurd h (by decide)

namespace Ledger

/-- The validators that pass a test are in order, and those that were banned before are as they
were. -/
structure OrderlyOn (P : ValidatorIndex → Prop) (before l : Ledger) : Prop where
  orderly : ∀ j v, P j → l.find? j = some v → v.Orderly
  banned : ∀ j v, P j → before.find? j = some v → v.status = .banned → l.find? j = some v

/-- All validators are in order, and those that were banned before are as they were. -/
abbrev OrderlySince (before l : Ledger) : Prop := OrderlyOn (fun _ => True) before l

variable {before l m m' : Ledger} {i : ValidatorIndex} {e : Event} {s : Status}

theorem OrderlyOn.of_find? {P : ValidatorIndex → Prop} (h : OrderlyOn P before l)
    (hm : ∀ j, P j → m.find? j = l.find? j) : OrderlyOn P before m where
  orderly j v hj hv := h.orderly j v hj (hm j hj ▸ hv)
  banned j v hj hv hbanned := (hm j hj).trans (h.banned j v hj hv hbanned)

theorem orderlyOn_start {P : ValidatorIndex → Prop} (h : ∀ j v, P j → l.find? j = some v → v.Orderly) :
    OrderlyOn P l l where
  orderly := h
  banned _ _ _ hv _ := hv

/-- Leaves one validator out. -/
theorem OrderlySince.but (h : OrderlySince before l) (i : ValidatorIndex) :
    OrderlyOn (· ≠ i) before l where
  orderly j v _ := h.orderly j v trivial
  banned j v _ := h.banned j v trivial

/-- A validator that was left out and was not banned before is taken back once it is in order. -/
theorem OrderlyOn.close (h : OrderlyOn (· ≠ i) before l) (hi : before.status i ≠ .banned)
    (hv : ∀ v, l.find? i = some v → v.Orderly) : OrderlySince before l where
  orderly j v _ hj := by
    by_cases hji : j = i
    · subst hji
      exact hv v hj
    · exact h.orderly j v hji hj
  banned j v _ hj hbanned := by
    by_cases hji : j = i
    · subst hji
      rw [← hbanned] at hi
      exact absurd (by simp [status, hj]) hi
    · exact h.banned j v hji hj hbanned

theorem OrderlyOn.update (h : OrderlyOn (· ≠ i) before l) (f : Validator → Validator) :
    OrderlyOn (· ≠ i) before (l.update i f) := by
  apply h.of_find?
  intro j hj
  rw [find?_update, if_neg hj]

theorem OrderlyOn.track (h : OrderlyOn (· ≠ i) before l) (address : Address) (pubkey : Pubkey) :
    OrderlyOn (· ≠ i) before (l.track i address pubkey) := by
  apply h.of_find?
  intro j hj
  rw [find?_track, if_neg hj]

theorem OrderlySince.update (h : OrderlySince before l) (hi : before.status i ≠ .banned)
    {f : Validator → Validator} (hf : ∀ v, v.Orderly → (f v).Orderly) :
    OrderlySince before (l.update i f) := by
  apply ((h.but i).update f).close hi
  intro v hv
  rw [find?_update, if_pos rfl] at hv
  obtain ⟨u, hu, rfl⟩ := Option.map_eq_some_iff.mp hv
  exact hf u (h.orderly i u trivial hu)

theorem shared_of_not_subscribed {v : Validator} (l : Ledger) (share : Wei)
    (hv : v.status.isSubscribed = false) : l.shared share v = v := by
  unfold shared
  apply if_neg
  intro heligible
  exact absurd (hv.symm.trans (Eligibility.isSubscribed_of_admits heligible)) (by decide)

theorem status_shared (l : Ledger) (share : Wei) (v : Validator) :
    (l.shared share v).status = v.status := by
  unfold shared
  split <;> rfl

/-- A split passes by all that are not subscribed. -/
theorem OrderlySince.distribute (h : OrderlySince before l) (amount : Wei) :
    OrderlySince before (l.distribute amount) where
  orderly j v _ hv := by
    rw [find?_distribute] at hv
    obtain ⟨u, hu, rfl⟩ := Option.map_eq_some_iff.mp hv
    have horderly := h.orderly j u trivial hu
    by_cases hs : u.status.isSubscribed = true
    · apply Validator.Orderly.of_subscribed
      rw [status_shared]
      exact hs
    · rw [Bool.not_eq_true] at hs
      rw [shared_of_not_subscribed _ _ hs]
      exact horderly
  banned j v _ hv hbanned := by
    have hs : v.status.isSubscribed = false := by
      rw [hbanned]
      rfl
    rw [find?_distribute, h.banned j v trivial hv hbanned, Option.map_some,
      shared_of_not_subscribed _ _ hs]

theorem status_ne_banned_of_advance (h : l.advance i e = .ok (s, m)) : l.status i ≠ .banned := by
  obtain ⟨v, hv, hnext, -⟩ := advance_eq_ok.mp h
  rw [show l.status i = v.status by simp [status, hv]]
  exact (Status.of_next? hnext).1

/-- Who is not banned was not banned before. -/
theorem OrderlySince.status_ne_banned (h : OrderlySince before l) (hi : l.status i ≠ .banned) :
    before.status i ≠ .banned := by
  intro hbanned
  apply hi
  unfold status at hbanned ⊢
  cases hv : before.find? i with
  | none =>
    rw [hv] at hbanned
    exact absurd hbanned (by decide)
  | some v =>
    rw [hv] at hbanned
    rw [h.banned i v trivial hv hbanned]
    exact hbanned

/-- Whoever an event leaves subscribed is in order. -/
theorem OrderlyOn.advance (h : OrderlyOn (· ≠ i) before l) (hi : before.status i ≠ .banned)
    (hadvance : l.advance i e = .ok (s, m)) (he : e.ends = false) : OrderlySince before m := by
  obtain ⟨v, hv, hnext, rfl⟩ := advance_eq_ok.mp hadvance
  apply (h.update _).close hi
  intro u hu
  rw [find?_update, if_pos rfl, hv] at hu
  obtain rfl := Option.some.inj hu
  apply Validator.Orderly.of_subscribed
  rw [(Status.of_next? hnext).2.2, he]
  rfl

/-- Whoever an event sends away is in order as soon as its pending balance is taken. -/
theorem OrderlyOn.dismiss {d : Distribution} (h : OrderlyOn (· ≠ i) before l)
    (hi : before.status i ≠ .banned) (hadvance : l.advance i e = .ok (s, m))
    (hshared : m.redistribute i = .ok (d, m')) : OrderlySince before m' := by
  obtain ⟨v, hv, hnext, rfl⟩ := advance_eq_ok.mp hadvance
  obtain ⟨u, hu, -, rfl⟩ := redistribute_eq_ok.mp hshared
  apply OrderlySince.distribute
  apply ((h.update _).update _).close hi
  intro t ht
  rw [find?_update, if_pos rfl, find?_update, if_pos rfl, hv] at ht
  obtain rfl := Option.some.inj ht
  exact ⟨(Status.of_next? hnext).2.1, fun _ => rfl⟩

/-- The logs do not matter. -/
theorem OrderlySince.logBlock (h : OrderlySince before l) (r : BlockRecord) :
    OrderlySince before (l.logBlock r) :=
  h.of_find? fun _ _ => rfl

theorem OrderlySince.credited {b : ProposedBlock} (h : OrderlySince before l)
    (hb : before.status b.proposer ≠ .banned) (reward : Wei) (kind : RewardKind) :
    OrderlySince before (l.credited b reward kind) := by
  have hpaid := (h.distribute reward).update hb
    (f := fun v => { v with accumulated := v.accumulated + v.pending, pending := 0 })
    fun v hv => ⟨hv.tracked, fun _ => rfl⟩
  have hnoted := hpaid.update hb
    (f := fun v => { v with proposed := v.proposed ++ [rewardRecord b reward kind .okPoolProposal] })
    fun v hv => ⟨hv.tracked, hv.idle⟩
  exact hnoted.logBlock _

theorem OrderlySince.shareReward (h : OrderlySince before l) (b : ProposedBlock) (reward : Wei)
    (kind : RewardKind) : OrderlySince before (l.shareReward b reward kind) :=
  (h.distribute reward).logBlock _

theorem OrderlySince.settleMissed {slot : Slot} {outcome : Outcome} (h : OrderlySince before l)
    (hm : l.settleMissed slot i = .ok (m, outcome)) : OrderlySince before m := by
  rcases settleMissed_eq_ok hm with ⟨rfl, -⟩ | ⟨s, marked, record, hadvance, -, rfl, -⟩
  · exact h
  · have hi := h.status_ne_banned (status_ne_banned_of_advance hadvance)
    have hmarked := (h.but i).advance hi hadvance rfl
    have hnoted := hmarked.update hi (f := fun v => { v with missed := v.missed ++ [record] })
      fun v hv => ⟨hv.tracked, hv.idle⟩
    exact hnoted.logBlock record

theorem OrderlySince.rewardSubscribed {b : ProposedBlock} {reward : Wei} {kind : RewardKind}
    {outcome : Outcome} (h : OrderlySince before l)
    (hm : l.rewardSubscribed b reward kind = .ok (m, outcome)) : OrderlySince before m := by
  obtain ⟨s, moved, hadvance, rfl, -⟩ := rewardSubscribed_eq_ok hm
  have hb := h.status_ne_banned (status_ne_banned_of_advance hadvance)
  have hmoved := (h.but b.proposer).advance hb hadvance rfl
  exact hmoved.credited hb reward kind

theorem OrderlySince.rewardNewcomer {b : ProposedBlock} {reward : Wei} {kind : RewardKind}
    {identity : Option Identity} {outcome : Outcome} (h : OrderlySince before l)
    (hbanned : l.status b.proposer ≠ .banned)
    (hm : l.rewardNewcomer b reward kind identity = .ok (m, outcome)) : OrderlySince before m := by
  rcases rewardNewcomer_eq_ok hm with ⟨rfl, -⟩ | ⟨id, address, s, moved, -, -, hadvance, rfl, -⟩
  · exact h.shareReward b reward kind
  · have hb := h.status_ne_banned hbanned
    have hmoved := ((h.but b.proposer).track address id.pubkey).advance hb hadvance rfl
    exact hmoved.credited hb reward kind

theorem OrderlySince.settleWrongFee {b : ProposedBlock} {outcome : Outcome}
    (h : OrderlySince before l) (hm : l.settleWrongFee b = .ok (m, outcome)) :
    OrderlySince before m := by
  rcases settleWrongFee_eq_ok hm with
    ⟨rfl, -⟩ | ⟨s, banned, d, shared, record, hadvance, hshared, -, rfl, -⟩
  · exact h
  · have hb := h.status_ne_banned (status_ne_banned_of_advance hadvance)
    have hdismissed := (h.but b.proposer).dismiss hb hadvance hshared
    have hnoted := hdismissed.update hb
      (f := fun v => { v with wrongFee := v.wrongFee ++ [record] })
      fun v hv => ⟨hv.tracked, hv.idle⟩
    exact hnoted.logBlock record

theorem OrderlySince.settleProposal {b : ProposedBlock} {reward : BlockReward}
    {identity : Option Identity} {outcome : Outcome} (h : OrderlySince before l)
    (hm : l.settleProposal b reward identity = .ok (m, outcome)) : OrderlySince before m := by
  rcases Ledger.settleProposal_eq_ok hm with
    ⟨-, hm⟩ | ⟨kind, -, ⟨-, rfl, -⟩ | ⟨-, -, hm⟩ | ⟨hbanned, -, hm⟩⟩
  · exact h.settleWrongFee hm
  · exact h.shareReward b reward.amount kind
  · exact h.rewardSubscribed hm
  · exact h.rewardNewcomer hbanned hm

theorem OrderlySince.addCollateral {amount : Wei} (h : OrderlySince before l)
    (hi : before.status i ≠ .banned) (hm : l.addCollateral i amount = .ok m) :
    OrderlySince before m := by
  obtain ⟨v, -, rfl⟩ := addCollateral_eq_ok.mp hm
  exact h.update hi fun v hv => ⟨hv.tracked, hv.idle⟩

theorem OrderlySince.subscribe {config : Config} {sub : Subscription} {identity : Option Identity}
    (h : OrderlySince before l) (hm : l.subscribe config sub identity = .ok m) :
    OrderlySince before m := by
  rcases subscribe_eq_ok hm with
    ⟨-, rfl⟩ | ⟨-, hsubscribed, hadd⟩ | ⟨id, t, joined, haccepts, -, rfl, hadvance, hadd⟩
  · exact h.distribute sub.collateral
  · have hi : before.status sub.validator ≠ .banned := by
      apply h.status_ne_banned
      intro hbanned
      rw [hbanned] at hsubscribed
      exact absurd hsubscribed (by decide)
    exact h.addCollateral hi hadd
  · have hi : before.status sub.validator ≠ .banned := by
      apply h.status_ne_banned
      simp only [accepts, Bool.and_eq_true, decide_eq_true_eq] at haccepts
      exact haccepts.2.2
    have hjoined := ((h.but sub.validator).track sub.sender id.pubkey).advance hi hadvance rfl
    exact hjoined.addCollateral hi hadd

theorem OrderlySince.unsubscribe {u : Unsubscription} (h : OrderlySince before l)
    (hm : l.unsubscribe u = .ok m) : OrderlySince before m := by
  have hlogged : OrderlySince before { l with unsubscriptions := l.unsubscriptions ++ [u] } :=
    h.of_find? fun _ _ => rfl
  rcases unsubscribe_eq_ok hm with rfl | ⟨v, s, left, d, -, -, hadvance, hshared⟩
  · exact hlogged
  · have hi := hlogged.status_ne_banned (status_ne_banned_of_advance hadvance)
    exact (hlogged.but u.validator).dismiss hi hadvance hshared

/-- Every entry leaves all validators in order, and does not touch who was banned before. -/
theorem OrderlySince.post {config : Config} {entry : Entry} (h : OrderlySince before l)
    (hm : l.post config entry = .ok m) : OrderlySince before m := by
  cases entry with
  | missed slot proposer =>
    obtain ⟨⟨settled, outcome⟩, hsettled, rfl⟩ := except_map_eq_ok.mp hm
    exact h.settleMissed hsettled
  | proposal b reward identity =>
    obtain ⟨⟨settled, outcome⟩, hsettled, rfl⟩ := except_map_eq_ok.mp hm
    exact h.settleProposal hsettled
  | donation d =>
    obtain rfl := Except.ok.inj hm
    exact (h.distribute d.amount).of_find? fun _ _ => rfl
  | subscription sub identity =>
    have hlogged : OrderlySince before { l with subscriptions := l.subscriptions ++ [sub] } :=
      h.of_find? fun _ _ => rfl
    exact hlogged.subscribe hm
  | unsubscription u => exact h.unsubscribe hm
  | closing slot block =>
    obtain rfl := Except.ok.inj hm
    exact h.of_find? fun _ _ => rfl

end Ledger

namespace Oracle

open Merkle (Digest)

theorem orderlySince_processAll {ε σ : Type} {h : Digest} {chain : Chain ε (StateM σ)}
    {submitter : Option (Submitter ε (StateM σ))} {slots : List Slot} {o o' : Oracle}
    (hstart : ∀ i v, o.ledger.find? i = some v → v.Orderly)
    (hr : Returns (processAll h chain submitter slots o) o') :
    o.ledger.OrderlySince o'.ledger :=
  processAll_induction (P := o.ledger.OrderlySince) (fun _ _ _ hl hpost => hl.post hpost)
    (Ledger.orderlyOn_start fun i v _ => hstart i v) hr

/-- In a ledger of a run from a fresh one nobody is tracked without a status, and nobody waits for
anything without a subscription. Who was banned in an earlier ledger of the run has the very entry
that it had then. -/
theorem lives_of_validators {ε σ : Type} (h : Digest) (chain : Chain ε (StateM σ))
    (submitter : Option (Submitter ε (StateM σ))) (config : Config)
    (checkpoints : SortedMap Hash Checkpoint) (latest submittedRoot : Option Hash)
    (first rest : List Slot) (w : σ) :
    let start : Oracle :=
      { config, ledger := .fresh config, checkpoints, latest, submittedRoot }
    let earlier := (processAll h chain submitter first start).run w
    let s := earlier.1.ledger
    let t := ((processAll h chain submitter rest earlier.1).run earlier.2).1.ledger
    (∀ i v, t.find? i = some v →
      v.status ≠ .untracked ∧ (v.status = .notSubscribed ∨ v.status = .banned → v.pending = 0)) ∧
    ∀ i v, s.find? i = some v → v.status = .banned → t.find? i = some v ∧ v.pending = 0 := by
  intro start earlier s t
  have hfresh : ∀ i v, start.ledger.find? i = some v → v.Orderly := by
    intro i v hv
    exact absurd hv (by simp [start, Ledger.fresh, Ledger.find?, SortedMap.find?, SortedMap.empty,
      SortedMap.lookup])
  have hs : start.ledger.OrderlySince s :=
    orderlySince_processAll hfresh (returns_run (processAll h chain submitter first start) w)
  have horderly : ∀ i v, s.find? i = some v → v.Orderly := fun i v => hs.orderly i v trivial
  have ht : s.OrderlySince t :=
    orderlySince_processAll horderly
      (returns_run (processAll h chain submitter rest earlier.1) earlier.2)
  refine ⟨?_, ?_⟩
  · intro i v hv
    have hlife := ht.orderly i v trivial hv
    refine ⟨hlife.tracked, ?_⟩
    rintro (hstatus | hstatus)
    · exact hlife.idle (by rw [hstatus]; rfl)
    · exact hlife.idle (by rw [hstatus]; rfl)
  · intro i v hv hbanned
    exact ⟨ht.banned i v trivial hv hbanned, (horderly i v hv).idle (by rw [hbanned]; rfl)⟩

end Oracle

/-! In the slot after its subscription the validator pays someone else. Then it pays the pool, and asks
for a subscription again. -/
namespace SubscribeCall

def strayed : History :=
  { history with
    proposer := fun slot => if slot = 100 then 9 else 0
    block := fun slot =>
      if slot = 100 then some block
      else if slot = 101 then
        some { block with slot := 101, proposer := 0, number := 1001, transactions := [] }
      else some { block with slot, proposer := 0, number := 1002 }
    subscriptions := fun first _ => if first = 1001 then [] else [event] }

theorem ban_stands :
    let chain : Chain Empty (StateM Unit) := strayed.chain
    let start : Oracle :=
      { config, ledger := .fresh config, checkpoints := .empty, latest := none, submittedRoot := none }
    let earlier := (Oracle.processAll Keccak.digest chain none [100, 101] start).run ()
    let s := earlier.1.ledger
    let t := ((Oracle.processAll Keccak.digest chain none [102] earlier.1).run earlier.2).1.ledger
    t.latestSlot = some 102 ∧
      ∃ v, s.find? 0 = some v ∧ v.status = .banned ∧ v.accumulated = 1000 ∧ t.find? 0 = some v ∧
        v.pending = 0 := by
  have hstands : ∀ s t : Ledger,
      (∀ i v, s.find? i = some v → v.status = .banned → t.find? i = some v ∧ v.pending = 0) →
      (s.find? 0).map (fun v => (v.status, v.accumulated)) = some (.banned, 1000) →
      ∃ v, s.find? 0 = some v ∧ v.status = .banned ∧ v.accumulated = 1000 ∧ t.find? 0 = some v ∧
        v.pending = 0 := by
    intro s t hbans hentry
    obtain ⟨v, hv, hpair⟩ := Option.map_eq_some_iff.mp hentry
    obtain ⟨hbanned, haccumulated⟩ := Prod.mk.inj hpair
    exact ⟨v, hv, hbanned, haccumulated, hbans 0 v hv hbanned⟩
  have hlives := Oracle.lives_of_validators Keccak.digest (strayed.chain : Chain Empty (StateM Unit))
    none config .empty none none [100, 101] [102] ()
  exact ⟨by decide, hstands _ _ hlives.2 (by decide)⟩

end SubscribeCall

end RewardPool
