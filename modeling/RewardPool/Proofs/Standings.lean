import RewardPool.Proofs.Lifecycles

/-!
Where a validator stands, its balances left aside: the address it is tracked with, its status, and
the records that were kept of it. Splits of rewards do not show there. A posting turns the standing of
one validator by one event or leaves all of them alone, and what it adds to the log of the pool it adds
to the records of that very validator.
-/
namespace RewardPool

structure Standing where
  /-- The withdrawal address, if the validator is tracked. -/
  address : Option Address
  status : Status
  records : BlockKind → List BlockRecord

namespace Standing

/-- Where a validator stands that is not tracked. -/
def blank : Standing where
  address := none
  status := .untracked
  records _ := []

/-- The standing after an event, with the address that was given for the validator and the record
that was made. -/
def turned (s : Standing) (status : Status) (given : Option Address) (new : Option BlockRecord) :
    Standing where
  address := s.address.or given
  status := status
  records kind := s.records kind ++ new.toList.filter (·.kind = kind)

end Standing

namespace Validator

def records (v : Validator) : BlockKind → List BlockRecord
  | .okPoolProposal => v.proposed
  | .missedProposal => v.missed
  | .wrongFeeRecipient => v.wrongFee
  | .okPoolProposalBannedValidator => []

def standing (v : Validator) : Standing := ⟨some v.withdrawalAddress, v.status, v.records⟩

theorem standing_noted (v : Validator) {r : BlockRecord}
    (hr : r.kind ≠ .okPoolProposalBannedValidator) :
    (v.noted r).standing = v.standing.turned v.status none (some r) := by
  have hrecords : ∀ kind, (v.noted r).records kind =
      v.records kind ++ [r].filter (·.kind = kind) := by
    intro kind
    unfold noted
    cases hkind : r.kind with
    | okPoolProposalBannedValidator => exact absurd hkind hr
    | okPoolProposal => cases kind <;> simp [records, hkind]
    | missedProposal => cases kind <;> simp [records, hkind]
    | wrongFeeRecipient => cases kind <;> simp [records, hkind]
  have hkept : (v.noted r).withdrawalAddress = v.withdrawalAddress ∧
      (v.noted r).status = v.status := by
    unfold noted
    split <;> exact ⟨rfl, rfl⟩
  unfold standing Standing.turned
  rw [hkept.1, hkept.2, funext hrecords]
  rfl

end Validator

namespace Ledger

variable {l m l' : Ledger} {i : ValidatorIndex} {e : Event} {s : Status} {v : Validator}
variable {config : Config}

def standing (l : Ledger) (i : ValidatorIndex) : Standing :=
  ((l.find? i).map Validator.standing).getD .blank

theorem standing_eq (hv : l.find? i = some v) : l.standing i = v.standing := by
  unfold standing
  rw [hv]
  rfl

theorem status_standing (l : Ledger) (i : ValidatorIndex) :
    (l.standing i).status = l.status i := by
  unfold standing status
  cases l.find? i <;> rfl

/-- A validator has an address exactly if it is tracked. -/
theorem address_standing {a : Address} :
    (l.standing i).address = some a ↔ ∃ v, l.find? i = some v ∧ v.withdrawalAddress = a := by
  unfold standing
  cases hi : l.find? i with
  | none => simp [Standing.blank]
  | some v => simp [Validator.standing]

theorem standing_congr (h : (l'.find? i).map Validator.standing =
    (l.find? i).map Validator.standing) : l'.standing i = l.standing i := by
  unfold standing
  rw [h]

theorem standing_of_validators (h : l'.validators = l.validators) : l'.standing = l.standing := by
  funext i
  unfold standing find?
  rw [h]

theorem standing_distribute (l : Ledger) (amount : Wei) :
    (l.distribute amount).standing = l.standing := by
  funext i
  apply standing_congr
  rw [find?_distribute, Option.map_map]
  congr 1
  funext v
  show (l.shared _ v).standing = v.standing
  unfold shared
  split <;> rfl

theorem standing_update (hv : l.find? i = some v) (f : Validator → Validator) :
    (l.update i f).standing = Function.update l.standing i (f v).standing := by
  funext j
  by_cases hj : j = i
  · subst hj
    have hupdated : (l.update j f).find? j = some (f v) := by
      rw [find?_update, if_pos rfl, hv]
      rfl
    rw [Function.update_self, standing_eq hupdated]
  · rw [Function.update_of_ne hj]
    apply standing_congr
    rw [find?_update, if_neg hj]

theorem standing_update_of_eq {f : Validator → Validator}
    (hf : ∀ v, (f v).standing = v.standing) : (l.update i f).standing = l.standing := by
  funext j
  apply standing_congr
  rw [find?_update]
  by_cases hj : j = i
  · rw [if_pos hj, Option.map_map]
    congr 1
    exact funext hf
  · rw [if_neg hj]

theorem standing_advance (h : l.advance i e = .ok (s, m)) :
    (l.standing i).status.next? e = some s ∧
      m.standing = Function.update l.standing i { l.standing i with status := s } := by
  obtain ⟨v, hv, hnext, rfl⟩ := advance_eq_ok.mp h
  rw [standing_update hv, standing_eq hv]
  exact ⟨hnext, rfl⟩

theorem standing_track (l : Ledger) (i : ValidatorIndex) (address : Address) (pubkey : Pubkey) :
    (l.track i address pubkey).standing = Function.update l.standing i
      { l.standing i with address := (l.standing i).address.or (some address) } := by
  funext j
  by_cases hj : j = i
  · subst hj
    have hnone : (Validator.fresh address pubkey).records = fun _ => [] := by
      funext kind
      cases kind <;> rfl
    rw [Function.update_self]
    unfold standing
    rw [find?_track, if_pos rfl]
    cases l.find? j with
    | some v => rfl
    | none =>
      rw [Option.getD_none, Option.map_some, Option.getD_some, Validator.standing, hnone]
      rfl
  · rw [Function.update_of_ne hj]
    apply standing_congr
    rw [find?_track, if_neg hj]

theorem standing_redistribute {d : Distribution} (h : l.redistribute i = .ok (d, m)) :
    m.standing = l.standing := by
  obtain ⟨v, -, -, rfl⟩ := redistribute_eq_ok.mp h
  rw [standing_distribute]
  exact standing_update_of_eq fun _ => rfl

theorem standing_addCollateral {amount : Wei} (h : l.addCollateral i amount = .ok m) :
    m.standing = l.standing := by
  obtain ⟨v, -, rfl⟩ := addCollateral_eq_ok.mp h
  exact standing_update_of_eq fun _ => rfl

/-- An event turns the standing of a validator, and what is recorded of it is logged. -/
structure Turns (l l' : Ledger) (i : ValidatorIndex) (e : Event) (given : Option Address)
    (new : Option BlockRecord) : Prop where
  standing : ∃ s, (l.standing i).status.next? e = some s ∧
    l'.standing = Function.update l.standing i ((l.standing i).turned s given new)
  blocks : l'.poolBlocks = l.poolBlocks ++ new.toList

/-- A validator that may have been tracked just now is moved on, and what is recorded of it is noted
and logged. Nothing that is done to balances before and after that shows. -/
theorem turns_of_note {tracked moved : Ledger} {given : Option Address} {r : BlockRecord}
    (htracked : tracked.standing = Function.update l.standing i
      { l.standing i with address := (l.standing i).address.or given })
    (hadvance : tracked.advance i e = .ok (s, moved)) (hm : m.standing = moved.standing)
    (hblocks : m.poolBlocks = l.poolBlocks) (hr : r.kind ≠ .okPoolProposalBannedValidator)
    {f : Validator → Validator} (hf : ∀ v, f v = v.noted r) :
    Turns l ((m.update i f).logBlock r) i e given (some r) := by
  obtain rfl : f = fun v => v.noted r := funext hf
  obtain ⟨hnext, hmoved⟩ := standing_advance hadvance
  rw [htracked, Function.update_self] at hnext hmoved
  rw [Function.update_idem] at hmoved
  refine ⟨⟨s, hnext, ?_⟩, congrArg (· ++ [r]) hblocks⟩
  have hstanding := congrFun (hm.trans hmoved) i
  rw [Function.update_self] at hstanding
  obtain ⟨v, hv⟩ : ∃ v, m.find? i = some v := by
    obtain ⟨v, hv⟩ := find?_of_advance hadvance
    have haddress : (m.standing i).address = some v.withdrawalAddress := by
      rw [hm, standing_eq hv]
      rfl
    obtain ⟨u, hu, -⟩ := address_standing.mp haddress
    exact ⟨u, hu⟩
  rw [standing_eq hv] at hstanding
  have hlogged : ((m.update i fun v => v.noted r).logBlock r).standing =
      (m.update i fun v => v.noted r).standing := standing_of_validators rfl
  have hstatus : v.status = s := congrArg Standing.status hstanding
  rw [hlogged, standing_update hv, hm, hmoved, Function.update_idem, v.standing_noted hr, hstanding,
    hstatus]
  congr 1
  unfold Standing.turned
  simp

end Ledger

/-- The slot that an entry may log a record of. -/
def Entry.slot? : Entry → Option Slot
  | .missed slot _ => some slot
  | .proposal b _ _ => some b.slot
  | .donation _ | .subscription .. | .unsubscription _ | .closing .. => none

/-- Whom an entry can turn, by which event, which address it gives for a validator that was not
tracked, and what it records. -/
inductive Entry.Turn (l : Ledger) :
    Entry → ValidatorIndex → Event → Option Address → Option BlockRecord → Prop
  | missed {slot : Slot} {i : ValidatorIndex} :
      Turn l (.missed slot i) i .proposalMissed none
        (some ⟨slot, i, none, 0, none, .missedProposal⟩)
  | rewarded {b : ProposedBlock} {reward : BlockReward} {identity : Option Identity}
      {kind : RewardKind} :
      Turn l (.proposal b reward identity) b.proposer .proposalOk none
        (some (Ledger.rewardRecord b reward.amount kind .okPoolProposal))
  | joined {b : ProposedBlock} {reward : BlockReward} {id : Identity} {address : Address}
      {kind : RewardKind} (haddress : id.withdrawalAddress = some address) :
      Turn l (.proposal b reward (some id)) b.proposer .autoSubscription (some address)
        (some (Ledger.rewardRecord b reward.amount kind .okPoolProposal))
  | strayed {b : ProposedBlock} {reward : BlockReward} {identity : Option Identity} :
      Turn l (.proposal b reward identity) b.proposer .proposalWrongFee none
        (some ⟨b.slot, b.proposer, some b.number, 0, none, .wrongFeeRecipient⟩)
  | subscribed {sub : Subscription} {id : Identity}
      (haddress : id.withdrawalAddress = some sub.sender) :
      Turn l (.subscription sub (some id)) sub.validator .manualSubscription (some sub.sender) none
  | left {u : Unsubscription} (howner : (l.standing u.validator).address = some u.sender) :
      Turn l (.unsubscription u) u.validator .unsubscribe none none

namespace Ledger

variable {l m l' : Ledger} {i : ValidatorIndex} {e : Event} {s : Status} {v : Validator}
variable {config : Config}

/-- The ways in which a posting shows in the standings. -/
inductive Posted (l l' : Ledger) (entry : Entry) : Prop
  | still (new : Option BlockRecord)
      (hnew : ∀ r ∈ new, r.kind = .okPoolProposalBannedValidator ∧ entry.slot? = some r.slot)
      (hstanding : l'.standing = l.standing) (hblocks : l'.poolBlocks = l.poolBlocks ++ new.toList)
  | turned {i : ValidatorIndex} {e : Event} {given : Option Address} {new : Option BlockRecord}
      (hturn : entry.Turn l i e given new) (hturns : l.Turns l' i e given new)

theorem posted_nothing {entry : Entry} (hstanding : l'.standing = l.standing)
    (hblocks : l'.poolBlocks = l.poolBlocks) : Posted l l' entry :=
  .still none (by simp) hstanding (by simp [hblocks])

theorem poolBlocks_advance (h : l.advance i e = .ok (s, m)) : m.poolBlocks = l.poolBlocks := by
  obtain ⟨v, -, -, rfl⟩ := advance_eq_ok.mp h
  rfl

theorem poolBlocks_track (l : Ledger) (i : ValidatorIndex) (address : Address) (pubkey : Pubkey) :
    (l.track i address pubkey).poolBlocks = l.poolBlocks := by
  unfold track
  split <;> rfl

theorem poolBlocks_redistribute {d : Distribution} (h : l.redistribute i = .ok (d, m)) :
    m.poolBlocks = l.poolBlocks := by
  obtain ⟨v, -, -, rfl⟩ := redistribute_eq_ok.mp h
  rfl

/-- A validator that is tracked already keeps its address. -/
theorem standing_eq_update (l : Ledger) (i : ValidatorIndex) :
    l.standing = Function.update l.standing i
      { l.standing i with address := (l.standing i).address.or none } := by
  simp

theorem posted_settleMissed {slot : Slot} {outcome : Outcome}
    (h : l.settleMissed slot i = .ok (l', outcome)) : Posted l l' (.missed slot i) := by
  rcases settleMissed_eq_ok h with ⟨rfl, -⟩ | ⟨s, marked, record, hadvance, rfl, rfl, -⟩
  · exact posted_nothing rfl rfl
  · have hturns := turns_of_note (l.standing_eq_update i) hadvance rfl (poolBlocks_advance hadvance)
      (r := missedRecord slot i) (by simp [missedRecord]) fun v => rfl
    exact .turned .missed hturns

theorem turns_credited {tracked moved : Ledger} {b : ProposedBlock} {given : Option Address}
    (htracked : tracked.standing = Function.update l.standing b.proposer
      { l.standing b.proposer with address := (l.standing b.proposer).address.or given })
    (hblocks : tracked.poolBlocks = l.poolBlocks)
    (hadvance : tracked.advance b.proposer e = .ok (s, moved)) (reward : Wei) (kind : RewardKind) :
    Turns l (moved.credited b reward kind) b.proposer e given
      (some (rewardRecord b reward kind .okPoolProposal)) := by
  have hpaid : ((moved.distribute reward).update b.proposer fun v =>
      { v with accumulated := v.accumulated + v.pending, pending := 0 }).standing =
        moved.standing := by
    rw [← moved.standing_distribute reward]
    exact standing_update_of_eq fun _ => rfl
  exact turns_of_note htracked hadvance hpaid ((poolBlocks_advance hadvance).trans hblocks)
    (by simp [rewardRecord]) fun v => rfl

theorem posted_shareReward (l : Ledger) (b : ProposedBlock) (reward : BlockReward) (kind : RewardKind)
    (identity : Option Identity) :
    Posted l (l.shareReward b reward.amount kind) (.proposal b reward identity) := by
  refine .still (some (rewardRecord b reward.amount kind .okPoolProposalBannedValidator)) ?_
    (l.standing_distribute reward.amount) rfl
  intro r hr
  obtain rfl := Option.mem_some_iff.mp hr
  exact ⟨rfl, rfl⟩

theorem posted_settleWrongFee {b : ProposedBlock} {reward : BlockReward}
    {identity : Option Identity} {outcome : Outcome} (h : l.settleWrongFee b = .ok (l', outcome)) :
    Posted l l' (.proposal b reward identity) := by
  rcases settleWrongFee_eq_ok h with
    ⟨rfl, -⟩ | ⟨s, banned, d, shared, record, hadvance, hshared, rfl, rfl, -⟩
  · exact posted_nothing rfl rfl
  · have hturns := turns_of_note (l.standing_eq_update b.proposer) hadvance
      (standing_redistribute hshared)
      ((poolBlocks_redistribute hshared).trans (poolBlocks_advance hadvance))
      (r := wrongFeeRecord b) (by simp [wrongFeeRecord]) fun v => rfl
    exact .turned .strayed hturns

theorem posted_settleProposal {b : ProposedBlock} {reward : BlockReward}
    {identity : Option Identity} {outcome : Outcome}
    (h : l.settleProposal b reward identity = .ok (l', outcome)) :
    Posted l l' (.proposal b reward identity) := by
  rcases settleProposal_eq_ok h with
    ⟨-, h⟩ | ⟨kind, -, ⟨-, rfl, -⟩ | ⟨-, -, h⟩ | ⟨-, -, h⟩⟩
  · exact posted_settleWrongFee h
  · exact l.posted_shareReward b reward kind identity
  · obtain ⟨s, moved, hadvance, rfl, -⟩ := rewardSubscribed_eq_ok h
    exact .turned .rewarded
      (turns_credited (l.standing_eq_update b.proposer) rfl hadvance reward.amount kind)
  · rcases rewardNewcomer_eq_ok h with
      ⟨rfl, -⟩ | ⟨id, address, s, moved, rfl, haddress, hadvance, rfl, -⟩
    · exact l.posted_shareReward b reward kind identity
    · exact .turned (.joined haddress)
        (turns_credited (l.standing_track b.proposer address id.pubkey)
          (l.poolBlocks_track b.proposer address id.pubkey) hadvance reward.amount kind)

theorem sender_of_accepts {sub : Subscription} {id : Identity}
    (h : l.accepts config sub (some id) = true) : id.withdrawalAddress = some sub.sender := by
  simp only [accepts, Bool.and_eq_true, decide_eq_true_eq] at h
  exact h.2.1

theorem posted_subscribe {sub : Subscription} {identity : Option Identity}
    (h : l.subscribe config sub identity = .ok l') :
    Posted l l' (.subscription sub identity) := by
  rcases subscribe_eq_ok h with
    ⟨-, rfl⟩ | ⟨-, -, hadd⟩ | ⟨id, t, joined, haccepts, -, rfl, hadvance, hadd⟩
  · exact posted_nothing (l.standing_distribute sub.collateral) rfl
  · apply posted_nothing (standing_addCollateral hadd)
    obtain ⟨v, -, rfl⟩ := addCollateral_eq_ok.mp hadd
    rfl
  · obtain ⟨hnext, hjoined⟩ := standing_advance hadvance
    rw [standing_track, Function.update_self] at hnext hjoined
    rw [Function.update_idem] at hjoined
    refine .turned (.subscribed (sender_of_accepts haccepts)) ⟨⟨t, hnext, ?_⟩, ?_⟩
    · rw [standing_addCollateral hadd, hjoined]
      simp [Standing.turned]
    · obtain ⟨v, -, rfl⟩ := addCollateral_eq_ok.mp hadd
      rw [Option.toList_none, List.append_nil]
      exact (poolBlocks_advance hadvance).trans (l.poolBlocks_track _ _ _)

theorem posted_unsubscribe {u : Unsubscription} (h : l.unsubscribe u = .ok l') :
    Posted l l' (.unsubscription u) := by
  have hlogged : ({ l with unsubscriptions := l.unsubscriptions ++ [u] } : Ledger).standing =
      l.standing := standing_of_validators rfl
  rcases unsubscribe_eq_ok h with rfl | ⟨v, s, left, d, hv, howner, hadvance, hshared⟩
  · exact posted_nothing hlogged rfl
  · obtain ⟨hnext, hleft⟩ := standing_advance hadvance
    rw [hlogged] at hnext hleft
    have haddress : (l.standing u.validator).address = some u.sender :=
      address_standing.mpr ⟨v, hv, howner⟩
    refine .turned (.left haddress) ⟨⟨s, hnext, ?_⟩, ?_⟩
    · rw [standing_redistribute hshared, hleft]
      simp [Standing.turned]
    · have hblocks := poolBlocks_advance hadvance
      rw [Option.toList_none, List.append_nil, poolBlocks_redistribute hshared, hblocks]

/-- Every posting leaves the standings alone or turns one of them. -/
theorem posted_post {entry : Entry} (h : l.post config entry = .ok l') : Posted l l' entry := by
  cases entry with
  | missed slot proposer =>
    obtain ⟨⟨settled, outcome⟩, hsettled, rfl⟩ := except_map_eq_ok.mp h
    exact posted_settleMissed hsettled
  | proposal b reward identity =>
    obtain ⟨⟨settled, outcome⟩, hsettled, rfl⟩ := except_map_eq_ok.mp h
    exact posted_settleProposal hsettled
  | donation d =>
    obtain rfl := Except.ok.inj h
    exact posted_nothing (l.standing_distribute d.amount) rfl
  | subscription sub identity =>
    have hlogged : ({ l with subscriptions := l.subscriptions ++ [sub] } : Ledger).standing =
        l.standing := standing_of_validators rfl
    cases posted_subscribe h with
    | still new hnew hstanding hblocks => exact .still new hnew (hstanding.trans hlogged) hblocks
    | turned hturn hturns =>
      cases hturn with
      | subscribed haddress =>
        exact .turned (.subscribed haddress) ⟨hlogged ▸ hturns.standing, hturns.blocks⟩
  | unsubscription u => exact posted_unsubscribe h
  | closing slot block =>
    obtain rfl := Except.ok.inj h
    exact posted_nothing (standing_of_validators rfl) rfl

end Ledger

end RewardPool
