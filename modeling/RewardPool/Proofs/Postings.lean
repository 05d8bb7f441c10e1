import RewardPool.Proofs.Moves
import RewardPool.Proofs.Runs

/-!
Every posting is a course of moves, and it logs what it brings in: the reward of a block that paid
the pool, a donation, or the collateral of a subscription, accepted or not. The handlers of a slot
are taken apart here once; what holds of all moves then holds of every posting and of every run.
-/
namespace RewardPool

/-- What an entry brings into the ledger. -/
def Entry.inflow : Entry → Wei
  | .proposal _ reward _ => if reward.kind.isSome then reward.amount else 0
  | .donation d => d.amount
  | .subscription s _ => s.collateral
  | .missed .. | .unsubscription _ | .closing .. => 0

/-- The donations that an entry logs. -/
def Entry.donations : Entry → List Donation
  | .donation d => [d]
  | .missed .. | .proposal .. | .subscription .. | .unsubscription _ | .closing .. => []

namespace Ledger

variable {l l' : Ledger} {i : ValidatorIndex} {config : Config}

theorem moved_track (l : Ledger) (i : ValidatorIndex) (address : Address) (pubkey : Pubkey) :
    Moved l (l.track i address pubkey) 0 .empty := by
  unfold track
  cases hi : l.find? i with
  | some v => exact .refl l
  | none => exact moved_move (a := .track i address pubkey) hi

theorem moved_advance {e : Event} {s : Status} (h : l.advance i e = .ok (s, l')) :
    Moved l l' 0 .empty := by
  obtain ⟨v, hv, hnext, rfl⟩ := advance_eq_ok.mp h
  exact moved_move (a := .mark i s) ⟨v, e, hv, hnext⟩

theorem moved_redistribute {d : Distribution} (h : l.redistribute i = .ok (d, l')) :
    Moved l l' 0 .empty := by
  obtain ⟨v, hv, -, rfl⟩ := redistribute_eq_ok.mp h
  rw [← pendingOf_eq hv]
  exact moved_move (a := .forfeit i) ⟨v, hv⟩

theorem moved_addCollateral {amount : Wei} (h : l.addCollateral i amount = .ok l') :
    Moved l l' amount.toNat .empty := by
  obtain ⟨v, hv, rfl⟩ := addCollateral_eq_ok.mp h
  exact moved_move (a := .deposit i amount) ⟨v, hv⟩

theorem moved_distribute (l : Ledger) (amount : Wei) :
    Moved l (l.distribute amount) amount.toNat .empty :=
  moved_move (a := .split amount) trivial

theorem moved_log (l : Ledger) (new : Logs) : Moved l (l.move (.log new)) 0 new :=
  moved_move (a := .log new) trivial

theorem moved_logBlock (l : Ledger) (r : BlockRecord) :
    Moved l (l.logBlock r) 0 (.ofBlocks [r]) := by
  have hmoved := moved_log l (.ofBlocks [r])
  simpa [move, logBlock, Logs.ofBlocks] using hmoved

/-- A record is noted with its validator and logged. -/
theorem moved_note (hi : ∃ v, l.find? i = some v) {f : Validator → Validator} {r : BlockRecord}
    (hf : ∀ v, f v = v.noted r) : Moved l ((l.update i f).logBlock r) 0 (.ofBlocks [r]) := by
  obtain rfl : f = fun v => v.noted r := funext hf
  have hnoted : Moved l (l.update i fun v => v.noted r) 0 .empty := moved_move (a := .note i r) hi
  simpa using hnoted.trans (moved_logBlock _ r)

theorem moved_credited {b : ProposedBlock} {reward : Wei} {kind : RewardKind}
    (hb : ∃ v, l.find? b.proposer = some v) :
    Moved l (l.credited b reward kind) reward.toNat
      (.ofBlocks [rewardRecord b reward kind .okPoolProposal]) := by
  obtain ⟨v, hv⟩ := hb
  have hsplit : (l.distribute reward).find? b.proposer =
      some (l.shared (l.distribution reward).share v) := by
    rw [find?_distribute, hv, Option.map_some]
  have hpaid : ((l.distribute reward).move (.payOut b.proposer)).find? b.proposer ≠ none := by
    rw [move, find?_update, if_pos rfl, hsplit]
    simp
  have hpayOut : Moved (l.distribute reward) ((l.distribute reward).move (.payOut b.proposer)) 0
      .empty := moved_move (a := .payOut b.proposer) ⟨_, hsplit⟩
  have hnoted := moved_note (Option.ne_none_iff_exists'.mp hpaid)
    (r := rewardRecord b reward kind .okPoolProposal) fun v => rfl
  have hcredited : Moved l (l.credited b reward kind) _ _ :=
    ((moved_distribute l reward).trans hpayOut).trans hnoted
  simpa using hcredited

theorem moved_shareReward (l : Ledger) (b : ProposedBlock) (reward : Wei) (kind : RewardKind) :
    Moved l (l.shareReward b reward kind) reward.toNat
      (.ofBlocks [rewardRecord b reward kind .okPoolProposalBannedValidator]) := by
  have hshared : Moved l (l.shareReward b reward kind) _ _ :=
    (moved_distribute l reward).trans
      (moved_logBlock _ (rewardRecord b reward kind .okPoolProposalBannedValidator))
  simpa using hshared

theorem find?_of_advance {e : Event} {s : Status} (h : l.advance i e = .ok (s, l')) :
    ∃ v, l'.find? i = some v := by
  obtain ⟨v, hv, -, rfl⟩ := advance_eq_ok.mp h
  exact ⟨{ v with status := s }, by rw [find?_update, if_pos rfl, hv]; rfl⟩

theorem find?_of_redistribute {d : Distribution} (h : l.redistribute i = .ok (d, l')) :
    ∃ v, l'.find? i = some v := by
  obtain ⟨v, hv, -, rfl⟩ := redistribute_eq_ok.mp h
  rw [find?_distribute, withoutPending, find?_update, if_pos rfl, hv]
  exact ⟨_, rfl⟩

theorem moved_settleMissed {slot : Slot} {outcome : Outcome}
    (h : l.settleMissed slot i = .ok (l', outcome)) :
    ∃ records, Moved l l' 0 (.ofBlocks records) ∧ (Logs.ofBlocks records).plain = 0 := by
  rcases settleMissed_eq_ok h with ⟨rfl, -⟩ | ⟨s, marked, record, hadvance, rfl, rfl, -⟩
  · exact ⟨[], .refl l', rfl⟩
  · have hnoted := moved_note (find?_of_advance hadvance)
      (f := fun v => { v with missed := v.missed ++ [missedRecord slot i] })
      (r := missedRecord slot i) fun v => rfl
    exact ⟨_, by simpa using (moved_advance hadvance).trans hnoted, rfl⟩

theorem moved_settleWrongFee {b : ProposedBlock} {outcome : Outcome}
    (h : l.settleWrongFee b = .ok (l', outcome)) :
    ∃ records, Moved l l' 0 (.ofBlocks records) ∧ (Logs.ofBlocks records).plain = 0 := by
  rcases settleWrongFee_eq_ok h with
    ⟨rfl, -⟩ | ⟨s, banned, d, shared, record, hadvance, hshared, rfl, rfl, -⟩
  · exact ⟨[], .refl l', rfl⟩
  · have hnoted := moved_note (find?_of_redistribute hshared)
      (f := fun v => { v with wrongFee := v.wrongFee ++ [wrongFeeRecord b] })
      (r := wrongFeeRecord b) fun v => rfl
    have hbanned := (moved_advance hadvance).trans (moved_redistribute hshared)
    exact ⟨_, by simpa using hbanned.trans hnoted, rfl⟩

/-- Whoever proposed it, a reward is credited in full, and one record carries it. -/
theorem moved_settleProposal {b : ProposedBlock} {reward : BlockReward} {identity : Option Identity}
    {outcome : Outcome} (h : l.settleProposal b reward identity = .ok (l', outcome)) :
    ∃ records,
      Moved l l' (if reward.kind.isSome then reward.amount else 0).toNat (.ofBlocks records) ∧
      (Logs.ofBlocks records).plain = (if reward.kind.isSome then reward.amount else 0).toNat := by
  have hplain : ∀ kind blockKind,
      (Logs.ofBlocks [rewardRecord b reward.amount kind blockKind]).plain =
        reward.amount.toNat := by
    intro kind blockKind
    simp [Logs.plain, Logs.ofBlocks, rewardRecord]
  rcases settleProposal_eq_ok h with
    ⟨hkind, h⟩ | ⟨kind, hkind, ⟨-, rfl, -⟩ | ⟨-, -, h⟩ | ⟨-, -, h⟩⟩ <;>
    simp only [hkind, Option.isSome_none, Option.isSome_some, Bool.false_eq_true, if_true, if_false]
  · exact moved_settleWrongFee h
  · exact ⟨_, moved_shareReward l b reward.amount kind, hplain _ _⟩
  · obtain ⟨s, moved, hadvance, rfl, -⟩ := rewardSubscribed_eq_ok h
    have hcredited : Moved moved (moved.credited b reward.amount kind) _ _ :=
      moved_credited (find?_of_advance hadvance)
    exact ⟨_, by simpa using (moved_advance hadvance).trans hcredited, hplain _ _⟩
  · rcases rewardNewcomer_eq_ok h with ⟨rfl, -⟩ | ⟨id, address, s, moved, -, -, hadvance, rfl, -⟩
    · exact ⟨_, moved_shareReward l b reward.amount kind, hplain _ _⟩
    · have hjoined := (moved_track l b.proposer address id.pubkey).trans (moved_advance hadvance)
      have hcredited : Moved moved (moved.credited b reward.amount kind) _ _ :=
        moved_credited (find?_of_advance hadvance)
      exact ⟨_, by simpa using hjoined.trans hcredited, hplain _ _⟩

theorem moved_subscribe {s : Subscription} {identity : Option Identity}
    (h : l.subscribe config s identity = .ok l') : Moved l l' s.collateral.toNat .empty := by
  rcases subscribe_eq_ok h with
    ⟨-, rfl⟩ | ⟨-, -, hadd⟩ | ⟨id, t, joined, -, -, -, hadvance, hadd⟩
  · exact moved_distribute l s.collateral
  · exact moved_addCollateral hadd
  · have hjoined := (moved_track l s.validator s.sender id.pubkey).trans (moved_advance hadvance)
    simpa using hjoined.trans (moved_addCollateral hadd)

theorem moved_unsubscribe {u : Unsubscription} (h : l.unsubscribe u = .ok l') :
    Moved l l' 0 ⟨[], [u], [], []⟩ := by
  have hlogged : Moved l { l with unsubscriptions := l.unsubscriptions ++ [u] } 0
      ⟨[], [u], [], []⟩ := by
    simpa [move] using moved_log l ⟨[], [u], [], []⟩
  rcases unsubscribe_eq_ok h with rfl | ⟨v, s, left, d, -, -, hadvance, hshared⟩
  · exact hlogged
  · simpa using (hlogged.trans (moved_advance hadvance)).trans (moved_redistribute hshared)

/-- A posting moves the ledger by what its entry brings, and logs as much. -/
theorem moved_post {e : Entry} (h : l.post config e = .ok l') :
    ∃ new, Moved l l' e.inflow.toNat new ∧ new.plain = e.inflow.toNat ∧
      new.donations = e.donations := by
  cases e with
  | missed slot proposer =>
    obtain ⟨⟨m, outcome⟩, hm, rfl⟩ := except_map_eq_ok.mp h
    obtain ⟨records, hmoved, hplain⟩ := moved_settleMissed hm
    exact ⟨_, hmoved, hplain, rfl⟩
  | proposal b reward identity =>
    obtain ⟨⟨m, outcome⟩, hm, rfl⟩ := except_map_eq_ok.mp h
    obtain ⟨records, hmoved, hplain⟩ := moved_settleProposal hm
    exact ⟨_, hmoved, hplain, rfl⟩
  | donation d =>
    obtain rfl := Except.ok.inj h
    have hlogged := moved_log (l.distribute d.amount) ⟨[], [], [d], []⟩
    refine ⟨⟨[], [], [d], []⟩, ?_, by simp [Logs.plain, Entry.inflow], rfl⟩
    simpa [move, donate, Entry.inflow] using (moved_distribute l d.amount).trans hlogged
  | subscription s identity =>
    have hlogged : Moved l { l with subscriptions := l.subscriptions ++ [s] } 0
        ⟨[s], [], [], []⟩ := by
      simpa [move] using moved_log l ⟨[s], [], [], []⟩
    refine ⟨⟨[s], [], [], []⟩, ?_, by simp [Logs.plain, Entry.inflow], rfl⟩
    simpa [Entry.inflow] using hlogged.trans (moved_subscribe h)
  | unsubscription u => exact ⟨_, moved_unsubscribe h, rfl, rfl⟩
  | closing slot block =>
    obtain rfl := Except.ok.inj h
    exact ⟨.empty, moved_move (a := .close slot block) trivial, rfl, rfl⟩

end Ledger

namespace Oracle

open Merkle (Digest)

variable {ε σ : Type} {h : Digest} {chain : Chain ε (StateM σ)}
variable {submitter : Option (Submitter ε (StateM σ))}

/-- A run of calls moves the ledger, and its logs record all that came in. -/
theorem moved_processAll {slots : List Slot} {o o' : Oracle}
    (hr : Returns (processAll h chain submitter slots o) o') :
    ∃ new, Ledger.Moved o.ledger o'.ledger new.plain new := by
  refine processAll_induction (P := fun l => ∃ new, Ledger.Moved o.ledger l new.plain new) ?_ ?_ hr
  · intro l l' e hl hpost
    obtain ⟨new, hmoved⟩ := hl
    obtain ⟨posted, hposted, hplain, -⟩ := Ledger.moved_post hpost
    rw [← hplain] at hposted
    refine ⟨new.append posted, ?_⟩
    rw [Logs.plain_append]
    exact hmoved.trans hposted
  · exact ⟨.empty, .refl o.ledger⟩

end Oracle

end RewardPool
