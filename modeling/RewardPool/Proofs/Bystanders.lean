import RewardPool.Proofs.Hearings
import RewardPool.Proofs.Standings

/-!
What a slot does to those whom it does not concern. An entry is about one validator at most, and
whatever else it does to balances it does by a split, which gives the same to all who are eligible. Their
statuses stay as they are in the meantime. So who is eligible before the slot is so at every split, and
all such validators end up with the same increase, however many splits there were and whoever else came
to share in them.
-/
namespace RewardPool

namespace Ledger

variable {l m l' : Ledger} {T T' : ValidatorIndex → Prop} {i : ValidatorIndex} {config : Config}

theorem shared_of_eligibility (h : l'.eligibility = l.eligibility) (share : Wei) :
    l'.shared share = l.shared share := by
  funext v
  unfold shared isEligible
  rw [h]

theorem shared_zero (l : Ledger) (v : Validator) : l.shared 0 v = v := by
  unfold shared
  rw [add_zero]
  split <;> rfl

theorem shared_shared (l : Ledger) (c d : Wei) (v : Validator) :
    l.shared d (l.shared c v) = l.shared (c + d) v := by
  unfold shared
  by_cases hv : l.isEligible v
  · have hafter : l.isEligible { v with pending := v.pending + c } := hv
    rw [if_pos hv, if_pos hafter, if_pos hv, BitVec.add_assoc]
  · rw [if_neg hv, if_neg hv, if_neg hv]

/-- Everyone whom `T` does not hold of stays as it was, but for one amount that all who are eligible
were given. -/
structure SparesAllBut (T : ValidatorIndex → Prop) (l l' : Ledger) : Prop where
  eligibility : l'.eligibility = l.eligibility
  evenly : ∃ d, ∀ i, ¬ T i → l'.find? i = (l.find? i).map (l.shared d)

namespace SparesAllBut

theorem of_others (he : l'.eligibility = l.eligibility)
    (h : ∀ i, ¬ T i → l'.find? i = l.find? i) : SparesAllBut T l l' := by
  refine ⟨he, 0, fun i hi => ?_⟩
  have hsame : l.shared 0 = id := funext l.shared_zero
  rw [hsame, Option.map_id, id, h i hi]

theorem of_validators (T : ValidatorIndex → Prop) (he : l'.eligibility = l.eligibility)
    (h : l'.validators = l.validators) : SparesAllBut T l l' :=
  of_others he fun i _ => congrArg (SortedMap.find? · i) h

theorem refl (T : ValidatorIndex → Prop) (l : Ledger) : SparesAllBut T l l :=
  of_validators T rfl rfl

theorem trans (h : SparesAllBut T l m) (h' : SparesAllBut T m l') : SparesAllBut T l l' := by
  obtain ⟨c, hc⟩ := h.evenly
  obtain ⟨d, hd⟩ := h'.evenly
  refine ⟨h'.eligibility.trans h.eligibility, c + d, fun i hi => ?_⟩
  rw [hd i hi, hc i hi, Option.map_map, shared_of_eligibility h.eligibility]
  exact congrArg (Option.map · _) (funext (l.shared_shared c d))

theorem mono (h : SparesAllBut T l l') (hT : ∀ i, T i → T' i) : SparesAllBut T' l l' := by
  obtain ⟨d, hd⟩ := h.evenly
  exact ⟨h.eligibility, d, fun i hi => hd i fun hTi => hi (hT i hTi)⟩

end SparesAllBut

theorem spares_distribute (T : ValidatorIndex → Prop) (l : Ledger) (amount : Wei) :
    SparesAllBut T l (l.distribute amount) :=
  ⟨rfl, _, fun i _ => l.find?_distribute amount i⟩

theorem spares_update (l : Ledger) (i : ValidatorIndex) (f : Validator → Validator) :
    SparesAllBut (· = i) l (l.update i f) :=
  .of_others rfl fun j hj => by rw [find?_update, if_neg hj]

theorem spares_track (l : Ledger) (i : ValidatorIndex) (address : Address) (pubkey : Pubkey) :
    SparesAllBut (· = i) l (l.track i address pubkey) := by
  have heligibility : (l.track i address pubkey).eligibility = l.eligibility := by
    unfold track
    split <;> rfl
  exact .of_others heligibility fun j hj => by rw [find?_track, if_neg hj]

theorem spares_advance {e : Event} {s : Status} (h : l.advance i e = .ok (s, l')) :
    SparesAllBut (· = i) l l' := by
  obtain ⟨v, -, -, rfl⟩ := advance_eq_ok.mp h
  exact spares_update l i _

theorem spares_redistribute {d : Distribution} (h : l.redistribute i = .ok (d, l')) :
    SparesAllBut (· = i) l l' := by
  obtain ⟨v, -, -, rfl⟩ := redistribute_eq_ok.mp h
  exact (spares_update l i _).trans (spares_distribute _ _ v.pending)

theorem spares_addCollateral {amount : Wei} (h : l.addCollateral i amount = .ok l') :
    SparesAllBut (· = i) l l' := by
  obtain ⟨v, -, rfl⟩ := addCollateral_eq_ok.mp h
  exact spares_update l i _

theorem spares_logBlock (T : ValidatorIndex → Prop) (l : Ledger) (r : BlockRecord) :
    SparesAllBut T l (l.logBlock r) := .of_validators T rfl rfl

theorem spares_credited (l : Ledger) (b : ProposedBlock) (reward : Wei) (kind : RewardKind) :
    SparesAllBut (· = b.proposer) l (l.credited b reward kind) :=
  ((spares_distribute _ l reward).trans (spares_update _ _ _)).trans
    ((spares_update _ _ _).trans (spares_logBlock _ _ _))

theorem spares_shareReward (T : ValidatorIndex → Prop) (l : Ledger) (b : ProposedBlock)
    (reward : Wei) (kind : RewardKind) : SparesAllBut T l (l.shareReward b reward kind) :=
  (spares_distribute T l reward).trans (spares_logBlock T _ _)

theorem spares_settleMissed {slot : Slot} {outcome : Outcome}
    (h : l.settleMissed slot i = .ok (l', outcome)) : SparesAllBut (· = i) l l' := by
  rcases settleMissed_eq_ok h with ⟨rfl, -⟩ | ⟨s, marked, record, hadvance, -, rfl, -⟩
  · exact .refl _ _
  · have hmarked := spares_advance hadvance
    exact hmarked.trans ((spares_update marked i _).trans (spares_logBlock _ _ record))

theorem spares_settleWrongFee {b : ProposedBlock} {outcome : Outcome}
    (h : l.settleWrongFee b = .ok (l', outcome)) : SparesAllBut (· = b.proposer) l l' := by
  rcases settleWrongFee_eq_ok h with
    ⟨rfl, -⟩ | ⟨s, banned, d, shared, record, hadvance, hshared, -, rfl, -⟩
  · exact .refl _ _
  · have hstripped := (spares_advance hadvance).trans (spares_redistribute hshared)
    exact hstripped.trans ((spares_update shared b.proposer _).trans (spares_logBlock _ _ record))

theorem spares_settleProposal {b : ProposedBlock} {reward : BlockReward}
    {identity : Option Identity} {outcome : Outcome}
    (h : l.settleProposal b reward identity = .ok (l', outcome)) :
    SparesAllBut (· = b.proposer) l l' := by
  rcases settleProposal_eq_ok h with
    ⟨-, h⟩ | ⟨kind, -, ⟨-, rfl, -⟩ | ⟨-, -, h⟩ | ⟨-, -, h⟩⟩
  · exact spares_settleWrongFee h
  · exact spares_shareReward _ l b reward.amount kind
  · obtain ⟨s, moved, hadvance, rfl, -⟩ := rewardSubscribed_eq_ok h
    exact (spares_advance hadvance).trans (spares_credited moved b reward.amount kind)
  · rcases rewardNewcomer_eq_ok h with ⟨rfl, -⟩ | ⟨id, address, s, moved, -, -, hadvance, rfl, -⟩
    · exact spares_shareReward _ l b reward.amount kind
    · have hjoined := (spares_track l b.proposer address id.pubkey).trans (spares_advance hadvance)
      exact hjoined.trans (spares_credited moved b reward.amount kind)

theorem spares_subscribe {s : Subscription} {identity : Option Identity}
    (h : l.subscribe config s identity = .ok l') : SparesAllBut (· = s.validator) l l' := by
  rcases subscribe_eq_ok h with
    ⟨-, rfl⟩ | ⟨-, -, hadd⟩ | ⟨id, t, joined, -, -, -, hadvance, hadd⟩
  · exact spares_distribute _ l s.collateral
  · exact spares_addCollateral hadd
  · have hjoined := (spares_track l s.validator s.sender id.pubkey).trans (spares_advance hadvance)
    exact hjoined.trans (spares_addCollateral hadd)

theorem spares_unsubscribe {u : Unsubscription} (h : l.unsubscribe u = .ok l') :
    SparesAllBut (· = u.validator) l l' := by
  have hlogged : SparesAllBut (· = u.validator) l
      { l with unsubscriptions := l.unsubscriptions ++ [u] } := .of_validators _ rfl rfl
  rcases unsubscribe_eq_ok h with rfl | ⟨v, s, left, d, -, -, hadvance, hshared⟩
  · exact hlogged
  · exact hlogged.trans ((spares_advance hadvance).trans (spares_redistribute hshared))

end Ledger

namespace Entry

/-- The validator that an entry is about. -/
def validator? : Entry → Option ValidatorIndex
  | .missed _ proposer => some proposer
  | .proposal b _ _ => some b.proposer
  | .subscription s _ => some s.validator
  | .unsubscription u => some u.validator
  | .donation _ | .closing .. => none

/-- The validator that an entry may bring into the pool. -/
def newcomer? : Entry → Option ValidatorIndex
  | .proposal b _ _ => some b.proposer
  | .subscription s _ => some s.validator
  | .missed .. | .donation _ | .unsubscription _ | .closing .. => none

theorem Turn.given_eq_none {l : Ledger} {entry : Entry} {i : ValidatorIndex} {e : Event}
    {given : Option Address} {new : Option BlockRecord} (h : entry.Turn l i e given new)
    (hi : entry.newcomer? ≠ some i) : given = none := by
  cases h with
  | missed => rfl
  | rewarded => rfl
  | joined haddress => exact absurd rfl hi
  | strayed => rfl
  | subscribed haddress => exact absurd rfl hi
  | left howner => rfl

end Entry

namespace Ledger

variable {l l' : Ledger} {T : ValidatorIndex → Prop} {i : ValidatorIndex} {config : Config}
variable {entries : List Entry}

theorem spares_post {e : Entry} (h : l.post config e = .ok l') :
    SparesAllBut (fun i => e.validator? = some i) l l' := by
  cases e with
  | missed slot proposer =>
    obtain ⟨⟨settled, outcome⟩, hsettled, rfl⟩ := except_map_eq_ok.mp h
    exact (spares_settleMissed hsettled).mono fun i hi => congrArg some hi.symm
  | proposal b reward identity =>
    obtain ⟨⟨settled, outcome⟩, hsettled, rfl⟩ := except_map_eq_ok.mp h
    exact (spares_settleProposal hsettled).mono fun i hi => congrArg some hi.symm
  | donation d =>
    obtain rfl := Except.ok.inj h
    exact (spares_distribute _ l d.amount).trans (.of_validators _ rfl rfl)
  | subscription s identity =>
    have hlogged : SparesAllBut (· = s.validator) l
        { l with subscriptions := l.subscriptions ++ [s] } := .of_validators _ rfl rfl
    exact (hlogged.trans (spares_subscribe h)).mono fun i hi => congrArg some hi.symm
  | unsubscription u => exact (spares_unsubscribe h).mono fun i hi => congrArg some hi.symm
  | closing slot block =>
    obtain rfl := Except.ok.inj h
    exact .of_validators _ rfl rfl

/-- Entries spare everyone whom none of them is about. -/
theorem spares_postAll (hT : ∀ e ∈ entries, ∀ i, e.validator? = some i → T i)
    (h : l.postAll config entries = .ok l') : SparesAllBut T l l' := by
  refine postAll_induction_mem (P := SparesAllBut T l) ?_ (.refl T l) h
  intro m m' e he hm hpost
  exact hm.trans ((spares_post hpost).mono (hT e he))

theorem find?_eq_none_iff : l.find? i = none ↔ (l.standing i).address = none := by
  unfold standing
  cases l.find? i <;> simp [Standing.blank, Validator.standing]

theorem untracked_post {e : Entry} (h : l.post config e = .ok l') (hi : e.newcomer? ≠ some i)
    (hnone : l.find? i = none) : l'.find? i = none := by
  rw [find?_eq_none_iff] at hnone ⊢
  cases posted_post h with
  | still new hnew hstanding hblocks => rwa [hstanding]
  | @turned j event given new hturn hturns =>
    obtain ⟨s, -, hstanding⟩ := hturns.standing
    rw [hstanding]
    by_cases hij : i = j
    · subst hij
      rw [Function.update_self, Standing.turned, hnone, hturn.given_eq_none hi]
      rfl
    · rwa [Function.update_of_ne hij]

/-- Only those whom an entry may bring in come to be tracked. -/
theorem untracked_postAll (hi : ∀ e ∈ entries, e.newcomer? ≠ some i)
    (h : l.postAll config entries = .ok l') (hnone : l.find? i = none) : l'.find? i = none :=
  postAll_induction_mem (P := fun m => m.find? i = none)
    (fun _ _ e he hm hpost => untracked_post hpost (hi e he) hm) hnone h

end Ledger

namespace Oracle

open Merkle (Digest)

variable {σ ε : Type} {t : Hearing ε} {e : Entry} {i : ValidatorIndex}

/-- A validator did not have its turn in the slot of a call, and no event of the block names it. -/
structure Hearing.Bystander (t : Hearing ε) (i : ValidatorIndex) : Prop where
  proposer : .proposer t.slot i ∉ t.answers
  subscriptions : ∀ b events, .block t.slot (some b) ∈ t.answers →
    .subscriptions b.number b.number events ∈ t.answers → ∀ s ∈ events, s.validator ≠ i
  unsubscriptions : ∀ b events, .block t.slot (some b) ∈ t.answers →
    .unsubscriptions b.number b.number events ∈ t.answers → ∀ u ∈ events, u.validator ≠ i

/-- A validator had its turn in the slot of a call, or a subscription of the block names it. -/
def Hearing.MayJoin (t : Hearing ε) (i : ValidatorIndex) : Prop :=
  .proposer t.slot i ∈ t.answers ∨
    ∃ b events, .block t.slot (some b) ∈ t.answers ∧
      .subscriptions b.number b.number events ∈ t.answers ∧ ∃ s ∈ events, s.validator = i

theorem Hearing.Bystander.not_about (hi : t.Bystander i) (he : e.Told t.answers t.slot) :
    e.validator? ≠ some i := by
  intro habout
  cases he with
  | missed hproposer =>
    obtain rfl := Option.some.inj habout
    exact hi.proposer hproposer
  | proposal hproposer =>
    obtain rfl := Option.some.inj habout
    exact hi.proposer hproposer
  | @subscription b events s _ hblock hevents hs =>
    exact hi.subscriptions b events hblock hevents s hs (Option.some.inj habout)
  | @unsubscription b events u hblock hevents hu =>
    exact hi.unsubscriptions b events hblock hevents u hu (Option.some.inj habout)
  | donation | closing => exact absurd habout (by simp [Entry.validator?])

theorem Hearing.mayJoin_of_newcomer (he : e.Told t.answers t.slot) (hi : e.newcomer? = some i) :
    t.MayJoin i := by
  cases he with
  | proposal hproposer =>
    obtain rfl := Option.some.inj hi
    exact .inl hproposer
  | @subscription b events s _ hblock hevents hs =>
    exact .inr ⟨b, events, hblock, hevents, s, hs, Option.some.inj hi⟩
  | missed | donation | unsubscription | closing => exact absurd hi (by simp [Entry.newcomer?])

theorem Hearing.Accounted.spares (ht : t.Accounted) :
    Ledger.SparesAllBut (fun i => ¬ t.Bystander i) t.before.ledger t.after.ledger := by
  rcases ht.ledger with hkept | ⟨-, a, htold, hposts⟩
  · rw [hkept]
    exact .refl _ _
  · refine Ledger.spares_postAll (fun e he i hi hbystander => ?_) hposts
    exact hbystander.not_about (htold.entry e he) hi

theorem Hearing.Accounted.untracked (ht : t.Accounted) (hi : ¬ t.MayJoin i)
    (hnone : t.before.ledger.find? i = none) : t.after.ledger.find? i = none := by
  rcases ht.ledger with hkept | ⟨-, a, htold, hposts⟩
  · rwa [hkept]
  · have hnew : ∀ e ∈ a.entries t.slot, e.newcomer? ≠ some i :=
      fun e he hjoins => hi (Hearing.mayJoin_of_newcomer (htold.entry e he) hjoins)
    exact Ledger.untracked_postAll hnew hposts hnone

/-- A call leaves a bystander as it was, and if the bystander is eligible it raises its pending
balance by an amount that is the same for all of them. Nobody joins but the proposer of the slot and
those whom a subscription of its block names. The policy stays, and each call begins where the one
before it ended. -/
theorem bystanders_are_treated_alike (h : Digest) (chain : Chain ε (StateM σ))
    (submitter : Option (Submitter ε (StateM σ))) (slots : List Slot) (start : Oracle) (w : σ) :
    (hearings h chain submitter slots start w).map (·.toCall) =
      calls h chain submitter slots start w ∧
    (hearings h chain submitter slots start w).map (·.before) ++
        [((processAll h chain submitter slots start).run w).1] =
      start :: (hearings h chain submitter slots start w).map (·.after) ∧
    ∀ t ∈ hearings h chain submitter slots start w,
      t.after.ledger.eligibility = t.before.ledger.eligibility ∧
      (∃ d : Wei, ∀ i v, t.Bystander i → t.before.ledger.find? i = some v →
        t.after.ledger.find? i = some { v with
          pending := if t.before.ledger.eligibility.admits v.status then v.pending + d
            else v.pending }) ∧
      ∀ i, ¬ t.MayJoin i → t.before.ledger.find? i = none → t.after.ledger.find? i = none := by
  refine ⟨calls_of_hearings h chain submitter slots start w,
    before_of_hearings h chain submitter slots start w, fun t ht => ?_⟩
  obtain ⟨haccounted, -⟩ := (hearings_induction (P := fun _ => True)
    (fun _ _ _ _ _ => trivial) trivial).1 t ht
  obtain ⟨heligibility, d, hd⟩ := haccounted.spares
  refine ⟨heligibility, ⟨d, fun i v hi hv => ?_⟩, fun i => haccounted.untracked⟩
  rw [hd i (not_not.mpr hi), hv, Option.map_some]
  unfold Ledger.shared Ledger.isEligible
  split <;> rfl

end Oracle

/-! Two validators are there already when the call comes in, and one of them has missed a slot. -/
namespace SubscribeCall

def neighbour (s : Status) : Validator := { Validator.fresh (.fill 0x33) .zero with status := s }

def populated : Ledger :=
  { Ledger.fresh config with
    validators := (SortedMap.empty.insert 3 (neighbour .active)).insert 4 (neighbour .yellowCard) }

def answers : List Answer :=
  [.proposer 100 9, .block 100 (some block), .subscriptions 1000 1000 [event],
    .validator 0 100 (some ⟨0, .zero, some (.fill 0x10)⟩), .unsubscriptions 1000 1000 []]

theorem neighbours_of_subscriber :
    ∃ t ∈ Oracle.hearings Keccak.digest (history.chain : Chain Empty (StateM Unit)) none [100]
        (.start config populated) (),
      t.Bystander 3 ∧ t.Bystander 4 ∧ ¬ t.MayJoin 7 ∧
      t.after.ledger.find? 3 = some { neighbour .active with pending := 1000 } ∧
      t.after.ledger.find? 4 = some (neighbour .yellowCard) ∧ t.after.ledger.find? 7 = none := by
  obtain ⟨t, w', hslot, hbefore, -, hhearings, -⟩ := Oracle.hearings_cons Keccak.digest
    (history.chain : Chain Empty (StateM Unit)) none 100 [] (.start config populated) ()
  have hmem : t ∈ Oracle.hearings Keccak.digest (history.chain : Chain Empty (StateM Unit)) none
      [100] (.start config populated) () := by
    rw [hhearings]
    exact List.mem_cons_self
  have hanswers : t.answers = answers := by
    have hall : (Oracle.hearings Keccak.digest (history.chain : Chain Empty (StateM Unit)) none
        [100] (.start config populated) ()).map (·.answers) = [answers] := by decide +kernel
    rw [hhearings] at hall
    exact (List.cons.inj hall).1
  have hshare : (t.after.ledger.find? 3).map (·.pending) = some 1000 := by
    have hall : (Oracle.hearings Keccak.digest (history.chain : Chain Empty (StateM Unit)) none
        [100] (.start config populated) ()).map
          (fun t => (t.after.ledger.find? 3).map (·.pending)) = [some 1000] := by decide
    rw [hhearings] at hall
    exact (List.cons.inj hall).1
  have hevents : ∀ first last events, .subscriptions first last events ∈ answers →
      events = [event] := by
    intro first last events hevents
    simp only [answers, List.mem_cons, reduceCtorEq, Answer.subscriptions.injEq, List.not_mem_nil,
      false_or, or_false] at hevents
    exact hevents.2.2
  have hrequests : ∀ first last events, .unsubscriptions first last events ∈ answers →
      events = [] := by
    intro first last events hrequests
    simp only [answers, List.mem_cons, reduceCtorEq, Answer.unsubscriptions.injEq,
      List.not_mem_nil, false_or, or_false] at hrequests
    exact hrequests.2.2
  have hbystander : ∀ i : ValidatorIndex, i ≠ 9 → i ≠ 0 → t.Bystander i := by
    intro i hproposer hsubscriber
    refine ⟨?_, fun b events _ hheard s hs => ?_, fun b events _ hheard u hu => ?_⟩
    · rw [hanswers]
      simpa [answers] using fun _ => hproposer
    · rw [hanswers] at hheard
      rw [hevents _ _ _ hheard] at hs
      rw [List.mem_singleton.mp hs]
      exact Ne.symm hsubscriber
    · rw [hanswers] at hheard
      rw [hrequests _ _ _ hheard] at hu
      exact absurd hu List.not_mem_nil
  have hnewcomer : ¬ t.MayJoin 7 := by
    rintro (hproposer | ⟨b, events, -, hheard, s, hs, hsubscriber⟩)
    · rw [hanswers] at hproposer
      exact absurd hproposer (by simp [answers])
    · rw [hanswers] at hheard
      rw [hevents _ _ _ hheard] at hs
      rw [List.mem_singleton.mp hs] at hsubscriber
      exact absurd hsubscriber (by decide)
  obtain ⟨-, -, hcalls⟩ := Oracle.bystanders_are_treated_alike Keccak.digest
    (history.chain : Chain Empty (StateM Unit)) none [100] (.start config populated) ()
  obtain ⟨-, ⟨d, hspared⟩, huntracked⟩ := hcalls t hmem
  rw [hbefore] at hspared huntracked
  have hactive := hspared 3 (neighbour .active) (hbystander 3 (by decide) (by decide)) rfl
  have hyellow := hspared 4 (neighbour .yellowCard) (hbystander 4 (by decide) (by decide)) rfl
  rw [hactive, Option.map_some] at hshare
  have hpending := congrArg (fun p => some { neighbour .active with pending := p })
    (Option.some.inj hshare)
  exact ⟨t, hmem, hbystander 3 (by decide) (by decide), hbystander 4 (by decide) (by decide),
    hnewcomer, hactive.trans hpending, hyellow, huntracked 7 hnewcomer rfl⟩

end SubscribeCall

end RewardPool
