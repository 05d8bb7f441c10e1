import RewardPool.Proofs.Progress
import RewardPool.Proofs.Lifecycles

/-!
What a change of the ledger comes to, validator by validator. A handler changes the entry of one
validator, step by step, and it may split one amount on the way. How an amount is split depends on
the statuses and on nothing else that the later steps change, so the split can be told from the
ledger that comes out: each of the others got the share that is counted there.
-/
namespace RewardPool

namespace Ledger

variable {l l' m : Ledger} {i : ValidatorIndex} {v : Validator} {amount : Wei}

theorem status_congr {j : ValidatorIndex}
    (h : (l'.find? i).map (·.status) = (l.find? j).map (·.status)) : l'.status i = l.status j := by
  have hstatus : ∀ (m : Ledger) k, m.status k = ((m.find? k).map (·.status)).getD .untracked := by
    intro m k
    unfold status
    cases m.find? k <;> rfl
  rw [hstatus, hstatus, h]

/-- One validator becomes `v`, and nothing else changes. -/
structure Becomes (l l' : Ledger) (i : ValidatorIndex) (v : Validator) : Prop where
  entry : l'.find? i = some v
  others : ∀ j, j ≠ i → l'.find? j = l.find? j
  rest : l' = { l with validators := l'.validators }

theorem becomes_self (hv : l.find? i = some v) : l.Becomes l i v := ⟨hv, fun _ _ => rfl, rfl⟩

theorem becomes_track (l : Ledger) (i : ValidatorIndex) (address : Address) (pubkey : Pubkey) :
    l.Becomes (l.track i address pubkey) i ((l.find? i).getD (.fresh address pubkey)) where
  entry := by rw [find?_track, if_pos rfl]
  others j hj := by rw [find?_track, if_neg hj]
  rest := by
    unfold track
    split <;> rfl

namespace Becomes

theorem update (h : l.Becomes m i v) (f : Validator → Validator) :
    l.Becomes (m.update i f) i (f v) where
  entry := by rw [find?_update, if_pos rfl, h.entry, Option.map_some]
  others j hj := by rw [find?_update, if_neg hj, h.others j hj]
  rest := by
    obtain ⟨validators, rfl⟩ : ∃ validators, m = { l with validators } := ⟨_, h.rest⟩
    rfl

theorem advance (h : l.Becomes m i v) {e : Event} {s : Status}
    (hadvance : m.advance i e = .ok (s, l')) :
    v.status.next? e = some s ∧ l.Becomes l' i { v with status := s } := by
  obtain ⟨u, hu, hnext, rfl⟩ := advance_eq_ok.mp hadvance
  obtain rfl : v = u := Option.some.inj (h.entry.symm.trans hu)
  exact ⟨hnext, h.update fun v => { v with status := s }⟩

theorem addCollateral (h : l.Becomes m i v) (hadd : m.addCollateral i amount = .ok l') :
    l.Becomes l' i
      { v with collateral := v.collateral + amount, accumulated := v.accumulated + amount } := by
  obtain ⟨-, -, rfl⟩ := addCollateral_eq_ok.mp hadd
  exact h.update fun v =>
    { v with collateral := v.collateral + amount, accumulated := v.accumulated + amount }

theorem logBlock (h : l.Becomes m i v) (r : BlockRecord) :
    (l.logBlock r).Becomes (m.logBlock r) i v where
  entry := h.entry
  others := h.others
  rest := by
    obtain ⟨validators, rfl⟩ : ∃ validators, m = { l with validators } := ⟨_, h.rest⟩
    rfl

end Becomes

/-- Every amount is split in one ledger as it is in the other. -/
structure SplitsLike (l l' : Ledger) : Prop where
  eligibility : l'.eligibility = l.eligibility
  feePercent : l'.feePercent = l.feePercent
  count : l'.eligibleCount = l.eligibleCount

theorem eligibleCount_eq_total (l : Ledger) :
    l.eligibleCount = l.validators.total fun v => if l.isEligible v then 1 else 0 := by
  rw [SortedMap.total_ite, smul_eq_mul, mul_one]
  rfl

namespace SplitsLike

theorem trans (h : l.SplitsLike m) (h' : m.SplitsLike l') : l.SplitsLike l' :=
  ⟨h'.eligibility.trans h.eligibility, h'.feePercent.trans h.feePercent, h'.count.trans h.count⟩

theorem distribution_eq (h : l.SplitsLike l') (amount : Wei) :
    l'.distribution amount = l.distribution amount := by
  unfold distribution fee
  rw [h.count, h.feePercent]

end SplitsLike

theorem splitsLike_update {f : Validator → Validator} (hf : ∀ v, (f v).status = v.status) :
    l.SplitsLike (l.update i f) := by
  refine ⟨rfl, rfl, ?_⟩
  rw [eligibleCount_eq_total, eligibleCount_eq_total]
  apply SortedMap.total_modify_of_eq
  intro v
  show (if l.eligibility.admits (f v).status then 1 else 0) = _
  rw [hf]
  rfl

theorem splitsLike_distribute (l : Ledger) (amount : Wei) : l.SplitsLike (l.distribute amount) := by
  refine ⟨rfl, rfl, ?_⟩
  rw [eligibleCount_eq_total, eligibleCount_eq_total]
  refine (l.validators.total_map _ _).trans (SortedMap.total_congr fun v _ => ?_)
  show (if l.eligibility.admits (l.shared _ v).status then 1 else 0) = _
  rw [status_shared]
  rfl

theorem splitsLike_logBlock (l : Ledger) (r : BlockRecord) : l.SplitsLike (l.logBlock r) :=
  ⟨rfl, rfl, rfl⟩

/-- What a validator of some status gets when an amount is split. -/
def gain (l : Ledger) (s : Status) (amount : Wei) : Wei :=
  if l.eligibility.admits s then (l.distribution amount).share else 0

theorem shared_eq (l : Ledger) (amount : Wei) (v : Validator) :
    l.shared (l.distribution amount).share v =
      { v with pending := v.pending + l.gain v.status amount } := by
  unfold shared gain isEligible
  split
  · rfl
  · rw [add_zero]

theorem SplitsLike.gain_eq (h : l.SplitsLike l') (s : Status) (amount : Wei) :
    l'.gain s amount = l.gain s amount := by
  unfold gain
  rw [h.eligibility, h.distribution_eq]

theorem gain_of_not_subscribed {s : Status} (hs : s.isSubscribed = false) (l : Ledger) (amount : Wei) :
    l.gain s amount = 0 := by
  unfold gain
  apply if_neg
  intro hadmits
  exact absurd (hs.symm.trans (Eligibility.isSubscribed_of_admits hadmits)) (by decide)

/-- An amount is split: each validator other than `i` gets its share of it, and the pool the rest. What
becomes of `i` is told by itself, and nothing else changes. -/
structure Shares (l l' : Ledger) (i : ValidatorIndex) (entry : Option Validator) (amount : Wei) :
    Prop where
  entry : l'.find? i = entry
  others : ∀ j, j ≠ i → l'.find? j =
    (l.find? j).map fun v => { v with pending := v.pending + l'.gain v.status amount }
  rest : l' = { l with
    validators := l'.validators
    poolFees := l.poolFees + (l'.distribution amount).poolIncrease }

theorem Becomes.distribute (h : l.Becomes m i v) (amount : Wei) :
    l.Shares (m.distribute amount) i
      (some { v with pending := v.pending + (m.distribute amount).gain v.status amount }) amount := by
  have halike := m.splitsLike_distribute amount
  have hshared : m.shared (m.distribution amount).share =
      fun v => { v with pending := v.pending + (m.distribute amount).gain v.status amount } :=
    funext fun v => by rw [shared_eq, halike.gain_eq]
  refine ⟨?_, fun j hj => ?_, ?_⟩
  · rw [find?_distribute, h.entry, hshared, Option.map_some]
  · rw [find?_distribute, h.others j hj, hshared]
  · rw [halike.distribution_eq]
    obtain ⟨validators, rfl⟩ : ∃ validators, m = { l with validators } := ⟨_, h.rest⟩
    rfl

namespace Shares

variable {entry : Option Validator}

theorem update (h : l.Shares m i (some v) amount) {f : Validator → Validator}
    (hf : ∀ v, (f v).status = v.status) : l.Shares (m.update i f) i (some (f v)) amount := by
  have halike := splitsLike_update (l := m) (i := i) hf
  refine ⟨?_, fun j hj => ?_, ?_⟩
  · rw [find?_update, if_pos rfl, h.entry, Option.map_some]
  · rw [find?_update, if_neg hj, h.others j hj]
    simp only [halike.gain_eq]
  · rw [halike.distribution_eq]
    have hrest := h.rest
    generalize (m.distribution amount).poolIncrease = increase at hrest
    obtain ⟨validators, rfl⟩ : ∃ validators, m = { l with
      validators, poolFees := l.poolFees + increase } := ⟨_, hrest⟩
    rfl

theorem logBlock (h : l.Shares m i entry amount) (r : BlockRecord) :
    (l.logBlock r).Shares (m.logBlock r) i entry amount := by
  have halike := m.splitsLike_logBlock r
  refine ⟨h.entry, fun j hj => (h.others j hj).trans ?_, ?_⟩
  · simp only [halike.gain_eq]
    rfl
  · rw [halike.distribution_eq]
    have hrest := h.rest
    generalize (m.distribution amount).poolIncrease = increase at hrest
    obtain ⟨validators, rfl⟩ : ∃ validators, m = { l with
      validators, poolFees := l.poolFees + increase } := ⟨_, hrest⟩
    rfl

end Shares

/-- A validator that is not subscribed is passed by. -/
theorem shares_distribute (hi : (l.status i).isSubscribed = false) (amount : Wei) :
    l.Shares (l.distribute amount) i (l.find? i) amount := by
  have halike := l.splitsLike_distribute amount
  refine ⟨?_, fun j _ => ?_, ?_⟩
  · rw [find?_distribute]
    cases hv : l.find? i with
    | none => rfl
    | some v =>
      have hv' : v.status.isSubscribed = false := by rwa [status_of_find? hv] at hi
      rw [Option.map_some, shared_of_not_subscribed _ _ hv']
  · rw [find?_distribute]
    congr 1
    exact funext fun v => by rw [shared_eq, halike.gain_eq]
  · rw [halike.distribution_eq]
    rfl

end Ledger

end RewardPool
