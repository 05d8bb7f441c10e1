import RewardPool.Proofs.MapTotals
import RewardPool.Settlement

/-!
What each operation of the ledger does when it succeeds. An operation on one validator succeeds
exactly if the ledger tracks that validator and its status takes the event; the ledger that comes
out is then given outright. Everything proved about slots and runs is read off these equivalences.
-/
namespace RewardPool

theorem except_bind_eq_ok {ε α β : Type} {x : Except ε α} {f : α → Except ε β} {b : β} :
    (x >>= f) = .ok b ↔ ∃ a, x = .ok a ∧ f a = .ok b := by
  cases x with
  | error e => simp [bind, Except.bind]
  | ok a => simp [bind, Except.bind]

theorem except_pure_eq_ok {ε α : Type} {a b : α} : (pure a : Except ε α) = .ok b ↔ a = b := by
  simp [pure, Except.pure]

theorem except_map_eq_ok {ε α β : Type} {x : Except ε α} {f : α → β} {b : β} :
    x.map f = .ok b ↔ ∃ a, x = .ok a ∧ f a = b := by
  cases x with
  | error e => simp [Except.map]
  | ok a => simp [Except.map]

namespace Ledger

variable {l l' : Ledger} {i j : ValidatorIndex}

theorem find?_update (l : Ledger) (i j : ValidatorIndex) (f : Validator → Validator) :
    (l.update i f).find? j = if j = i then (l.find? j).map f else l.find? j :=
  SortedMap.find?_modify l.validators i j f

/-- Tracking changes the entry of one validator, and only if there is none. -/
theorem find?_track (l : Ledger) (i j : ValidatorIndex) (address : Address) (pubkey : Pubkey) :
    (l.track i address pubkey).find? j =
      if j = i then some ((l.find? j).getD (.fresh address pubkey)) else l.find? j := by
  unfold track
  cases hi : l.find? i with
  | some v =>
    by_cases hj : j = i
    · rw [if_pos hj, hj, hi, Option.getD_some]
    · rw [if_neg hj]
  | none =>
    have hinsert := SortedMap.find?_insert l.validators i j (.fresh address pubkey)
    by_cases hj : j = i
    · subst hj
      rw [if_pos rfl] at hinsert
      rw [if_pos rfl, hi, Option.getD_none]
      exact hinsert
    · rw [if_neg (Ne.symm hj)] at hinsert
      rw [if_neg hj]
      exact hinsert

/-- What a distribution does to one validator. -/
def shared (l : Ledger) (share : Wei) (v : Validator) : Validator :=
  if l.isEligible v then { v with pending := v.pending + share } else v

theorem find?_distribute (l : Ledger) (total : Wei) (i : ValidatorIndex) :
    (l.distribute total).find? i = (l.find? i).map (l.shared (l.distribution total).share) :=
  SortedMap.find?_map l.validators _ i

/-- A split raises the sum of a quantity by what one share counts for, once for each who shares. -/
theorem total_distribute {M : Type} [AddCommMonoid M] {amount : Wei} {g : Validator → M} {d : M}
    (hg : ∀ v ∈ l.validators.values, g (l.shared (l.distribution amount).share v) =
      g v + if l.isEligible v then d else 0) :
    (l.distribute amount).validators.total g = l.validators.total g + l.eligibleCount • d :=
  calc (l.distribute amount).validators.total g
      = l.validators.total fun v => g (l.shared (l.distribution amount).share v) :=
        SortedMap.total_map l.validators _ g
    _ = l.validators.total fun v => g v + if l.isEligible v then d else 0 :=
        SortedMap.total_congr hg
    _ = l.validators.total g + l.eligibleCount • d := by
        rw [SortedMap.total_add, SortedMap.total_ite]
        rfl

theorem validator_eq_ok {v : Validator} : l.validator i = .ok v ↔ l.find? i = some v := by
  unfold validator
  cases l.find? i <;> simp

theorem advance_eq_ok {e : Event} {s : Status} :
    l.advance i e = .ok (s, l') ↔
      ∃ v, l.find? i = some v ∧ v.status.next? e = some s ∧
        l' = l.update i fun v => { v with status := s } := by
  unfold advance
  rw [except_bind_eq_ok]
  refine exists_congr fun v => and_congr validator_eq_ok ?_
  cases hs : v.status.next? e with
  | none => simp [throw, throwThe, MonadExceptOf.throw]
  | some s' =>
    rw [except_pure_eq_ok, Prod.mk.injEq, Option.some.injEq]
    constructor
    · rintro ⟨rfl, rfl⟩
      exact ⟨rfl, rfl⟩
    · rintro ⟨rfl, rfl⟩
      exact ⟨rfl, rfl⟩

theorem consolidate_eq_ok :
    l.consolidate i = .ok l' ↔
      ∃ v, l.find? i = some v ∧
        l' = l.update i fun v =>
          { v with accumulated := v.accumulated + v.pending, pending := 0 } := by
  unfold consolidate
  rw [except_bind_eq_ok]
  exact exists_congr fun v => and_congr validator_eq_ok (except_pure_eq_ok.trans eq_comm)

/-- The ledger without the pending balance of a validator. -/
def withoutPending (l : Ledger) (i : ValidatorIndex) : Ledger :=
  l.update i fun v => { v with pending := 0 }

theorem redistribute_eq_ok {d : Distribution} :
    l.redistribute i = .ok (d, l') ↔
      ∃ v, l.find? i = some v ∧ d = (l.withoutPending i).distribution v.pending ∧
        l' = (l.withoutPending i).distribute v.pending := by
  unfold redistribute
  rw [except_bind_eq_ok]
  refine exists_congr fun v => and_congr validator_eq_ok ?_
  rw [except_pure_eq_ok, Prod.mk.injEq]
  exact and_congr eq_comm eq_comm

theorem addCollateral_eq_ok {amount : Wei} :
    l.addCollateral i amount = .ok l' ↔
      ∃ v, l.find? i = some v ∧
        l' = l.update i fun v =>
          { v with
            collateral := v.collateral + amount
            accumulated := v.accumulated + amount } := by
  unfold addCollateral
  rw [except_bind_eq_ok]
  exact exists_congr fun v => and_congr validator_eq_ok (except_pure_eq_ok.trans eq_comm)

/-- The ledger after a reward was split and its proposer paid out. -/
def credited (l : Ledger) (b : ProposedBlock) (reward : Wei) (kind : RewardKind) : Ledger :=
  let record := rewardRecord b reward kind .okPoolProposal
  let paid := (l.distribute reward).update b.proposer fun v =>
    { v with accumulated := v.accumulated + v.pending, pending := 0 }
  (paid.update b.proposer fun v => { v with proposed := v.proposed ++ [record] }).logBlock record

theorem creditReward_eq_ok {b : ProposedBlock} {reward : Wei} {kind : RewardKind} :
    l.creditReward b reward kind = .ok l' ↔
      (∃ v, l.find? b.proposer = some v) ∧ l' = l.credited b reward kind := by
  unfold creditReward
  simp only [except_bind_eq_ok, except_pure_eq_ok, consolidate_eq_ok, find?_distribute,
    Option.map_eq_some_iff]
  constructor
  · rintro ⟨_, ⟨_, ⟨v, hv, _⟩, rfl⟩, rfl⟩
    exact ⟨⟨v, hv⟩, rfl⟩
  · rintro ⟨⟨v, hv⟩, rfl⟩
    exact ⟨_, ⟨_, ⟨v, hv, rfl⟩, rfl⟩, rfl⟩

/-- The record of a missed slot. -/
def missedRecord (slot : Slot) (i : ValidatorIndex) : BlockRecord :=
  { slot, validator := i, number := none, reward := 0, rewardKind := none, kind := .missedProposal }

/-- The record of a block that paid someone else. -/
def wrongFeeRecord (b : ProposedBlock) : BlockRecord :=
  { slot := b.slot, validator := b.proposer, number := some b.number, reward := 0,
    rewardKind := none, kind := .wrongFeeRecipient }

/-- A missed slot is nobody's concern, or a mark against a subscribed proposer. -/
theorem settleMissed_eq_ok {slot : Slot} {outcome : Outcome}
    (h : l.settleMissed slot i = .ok (l', outcome)) :
    (l' = l ∧ outcome = .ignored ∧ (l.status i).isSubscribed = false) ∨
      ∃ s marked record, l.advance i .proposalMissed = .ok (s, marked) ∧
        record = missedRecord slot i ∧
        l' = (marked.update i fun v => { v with missed := v.missed ++ [record] }).logBlock record ∧
        outcome = .missed := by
  unfold settleMissed at h
  split at h
  · rename_i hstranger
    obtain ⟨rfl, rfl⟩ := Prod.mk.inj (except_pure_eq_ok.mp h)
    exact .inl ⟨rfl, rfl, by simpa using hstranger⟩
  · obtain ⟨⟨s, marked⟩, hadvance, h⟩ := except_bind_eq_ok.mp h
    obtain ⟨rfl, rfl⟩ := Prod.mk.inj (except_pure_eq_ok.mp h)
    exact .inr ⟨s, marked, _, hadvance, rfl, rfl, rfl⟩

theorem rewardSubscribed_eq_ok {b : ProposedBlock} {reward : Wei} {kind : RewardKind}
    {outcome : Outcome} (h : l.rewardSubscribed b reward kind = .ok (l', outcome)) :
    ∃ s moved, l.advance b.proposer .proposalOk = .ok (s, moved) ∧
      l' = moved.credited b reward kind ∧ outcome = .rewarded reward kind := by
  unfold rewardSubscribed at h
  obtain ⟨⟨s, moved⟩, hadvance, h⟩ := except_bind_eq_ok.mp h
  obtain ⟨paid, hpaid, h⟩ := except_bind_eq_ok.mp h
  obtain ⟨rfl, rfl⟩ := Prod.mk.inj (except_pure_eq_ok.mp h)
  exact ⟨s, moved, hadvance, (creditReward_eq_ok.mp hpaid).2, rfl⟩

/-- A newcomer without an address leaves its reward to the others; one with an address joins. -/
theorem rewardNewcomer_eq_ok {b : ProposedBlock} {reward : Wei} {kind : RewardKind}
    {identity : Option Identity} {outcome : Outcome}
    (h : l.rewardNewcomer b reward kind identity = .ok (l', outcome)) :
    (l' = l.shareReward b reward kind ∧ outcome = .ignored ∧
        identity.bind (·.withdrawalAddress) = none) ∨
      ∃ id address s moved, identity = some id ∧ id.withdrawalAddress = some address ∧
        (l.track b.proposer address id.pubkey).advance b.proposer .autoSubscription =
          .ok (s, moved) ∧
        l' = moved.credited b reward kind ∧ outcome = .autoSubscribed reward kind := by
  unfold rewardNewcomer at h
  split at h
  · rename_i hidentity
    obtain ⟨rfl, rfl⟩ := Prod.mk.inj (except_pure_eq_ok.mp h)
    refine .inl ⟨rfl, rfl, ?_⟩
    cases identity with
    | none => rfl
    | some id => simpa using hidentity
  · rename_i pubkey address hidentity
    obtain ⟨id, hid, haddress⟩ := Option.bind_eq_some_iff.mp hidentity
    obtain ⟨address', haddress', hpair⟩ := Option.map_eq_some_iff.mp haddress
    obtain ⟨rfl, rfl⟩ := Prod.mk.inj hpair
    obtain ⟨⟨s, moved⟩, hadvance, h⟩ := except_bind_eq_ok.mp h
    obtain ⟨paid, hpaid, h⟩ := except_bind_eq_ok.mp h
    obtain ⟨rfl, rfl⟩ := Prod.mk.inj (except_pure_eq_ok.mp h)
    exact .inr ⟨id, address', s, moved, hid, haddress', hadvance,
      (creditReward_eq_ok.mp hpaid).2, rfl⟩

theorem settleWrongFee_eq_ok {b : ProposedBlock} {outcome : Outcome}
    (h : l.settleWrongFee b = .ok (l', outcome)) :
    (l' = l ∧ outcome = .ignored ∧ (l.status b.proposer).isSubscribed = false) ∨
      ∃ s banned d shared record, l.advance b.proposer .proposalWrongFee = .ok (s, banned) ∧
        banned.redistribute b.proposer = .ok (d, shared) ∧
        record = wrongFeeRecord b ∧
        l' = (shared.update b.proposer fun v =>
          { v with wrongFee := v.wrongFee ++ [record] }).logBlock record ∧
        outcome = .wrongFeeRecipient := by
  unfold settleWrongFee at h
  split at h
  · rename_i hstranger
    obtain ⟨rfl, rfl⟩ := Prod.mk.inj (except_pure_eq_ok.mp h)
    exact .inl ⟨rfl, rfl, by simpa using hstranger⟩
  · obtain ⟨⟨s, banned⟩, hadvance, h⟩ := except_bind_eq_ok.mp h
    obtain ⟨⟨d, shared⟩, hshared, h⟩ := except_bind_eq_ok.mp h
    obtain ⟨rfl, rfl⟩ := Prod.mk.inj (except_pure_eq_ok.mp h)
    exact .inr ⟨s, banned, d, shared, _, hadvance, hshared, rfl, rfl, rfl⟩

/-- A collateral is shared, or credited to the validator it subscribes. -/
theorem subscribe_eq_ok {config : Config} {s : Subscription} {identity : Option Identity}
    (h : l.subscribe config s identity = .ok l') :
    (l.accepts config s identity = false ∧ l' = l.distribute s.collateral) ∨
      (l.accepts config s identity = true ∧ (l.status s.validator).isSubscribed = true ∧
        l.addCollateral s.validator s.collateral = .ok l') ∨
      ∃ id t joined, l.accepts config s identity = true ∧
        (l.status s.validator).isSubscribed = false ∧ identity = some id ∧
        (l.track s.validator s.sender id.pubkey).advance s.validator .manualSubscription =
          .ok (t, joined) ∧
        joined.addCollateral s.validator s.collateral = .ok l' := by
  unfold subscribe at h
  split at h
  · rename_i haccepts
    exact .inl ⟨by simpa using haccepts, (except_pure_eq_ok.mp h).symm⟩
  · rename_i haccepts
    have hyes : l.accepts config s identity = true := by simpa using haccepts
    split at h
    · rename_i id
      split at h
      · rename_i hsubscribed
        exact .inr (.inl ⟨hyes, hsubscribed, h⟩)
      · rename_i hsubscribed
        obtain ⟨⟨t, joined⟩, hadvance, h⟩ := except_bind_eq_ok.mp h
        exact .inr (.inr ⟨id, t, joined, hyes, by simpa using hsubscribed, rfl, hadvance, h⟩)
    · simp [accepts] at hyes

/-- A request to leave is only logged, or ends a subscription. -/
theorem unsubscribe_eq_ok {u : Unsubscription} (h : l.unsubscribe u = .ok l') :
    let logged := { l with unsubscriptions := l.unsubscriptions ++ [u] }
    l' = logged ∨
      ∃ v s left d, logged.find? u.validator = some v ∧ v.withdrawalAddress = u.sender ∧
        logged.advance u.validator .unsubscribe = .ok (s, left) ∧
        left.redistribute u.validator = .ok (d, l') := by
  unfold unsubscribe at h
  simp only at h ⊢
  split at h
  · exact .inl (except_pure_eq_ok.mp h).symm
  · obtain ⟨v, hv, h⟩ := except_bind_eq_ok.mp h
    split at h
    · exact .inl (except_pure_eq_ok.mp h).symm
    · rename_i hsender
      obtain ⟨⟨s, left⟩, hadvance, h⟩ := except_bind_eq_ok.mp h
      obtain ⟨⟨d, shared⟩, hshared, h⟩ := except_bind_eq_ok.mp h
      obtain rfl := except_pure_eq_ok.mp h
      exact .inr ⟨v, s, left, d, validator_eq_ok.mp hv, not_not.mp hsender, hadvance, hshared⟩

end Ledger

end RewardPool
