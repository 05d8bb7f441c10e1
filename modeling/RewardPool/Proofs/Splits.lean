import RewardPool.Proofs.Moves

/-!
The split of an amount in plain numbers. While the amount times the percentage fits into a word, the
fee, the shares and what is left over are those of natural numbers: nothing is lost at the top of a
word, and what the pool takes is the amount less the shares, which is the fee and less than one more
for each who shares. The balances that receive the shares must have room for them too if nothing is to
wrap around; that is the other half of an exact split.
-/
namespace RewardPool

namespace Ledger

/-- A ledger counts its validators in words, so there are not more than words. -/
theorem eligibleCount_lt (l : Ledger) : l.eligibleCount < 2 ^ 256 := by
  have hsize : l.validators.size ≤ 2 ^ 64 :=
    l.validators.size_le_of_rank_lt fun i => i.toNat_lt
  have hcount : l.eligibleCount ≤ l.validators.values.length := List.countP_le_length
  have hvalues : l.validators.values.length = l.validators.size := by
    simp [SortedMap.values, SortedMap.size]
  omega

theorem toNat_eligibleCount (l : Ledger) :
    (BitVec.ofNat 256 l.eligibleCount).toNat = l.eligibleCount := by
  rw [BitVec.toNat_ofNat]
  exact Nat.mod_eq_of_lt l.eligibleCount_lt

variable {l : Ledger} {amount : Wei}

/-- A hundredth of a word has room for any percentage. -/
theorem mul_percent_lt (hpercent : l.feePercent.toNat ≤ 100)
    (hsmall : 100 * amount.toNat < 2 ^ 256) : amount.toNat * l.feePercent.toNat < 2 ^ 256 :=
  calc amount.toNat * l.feePercent.toNat ≤ amount.toNat * 100 := Nat.mul_le_mul_left _ hpercent
    _ < 2 ^ 256 := by omega

theorem toNat_fee (hfits : amount.toNat * l.feePercent.toNat < 2 ^ 256) :
    (l.fee amount).toNat = amount.toNat * l.feePercent.toNat / 100 := by
  have hword : (BitVec.ofNat 256 l.feePercent.toNat).toNat = l.feePercent.toNat := by
    have hlt := l.feePercent.toNat_lt
    rw [BitVec.toNat_ofNat]
    exact Nat.mod_eq_of_lt (by omega)
  have hproduct : amount.toNat * (BitVec.ofNat 256 l.feePercent.toNat).toNat < 2 ^ 256 := by
    rwa [hword]
  have hhundred : (100 : Wei).toNat = 100 := rfl
  unfold fee
  rw [BitVec.toNat_udiv, BitVec.toNat_mul_of_lt hproduct, hword, hhundred]

theorem toNat_fee_le (hpercent : l.feePercent.toNat ≤ 100)
    (hfits : amount.toNat * l.feePercent.toNat < 2 ^ 256) :
    (l.fee amount).toNat ≤ amount.toNat := by
  rw [toNat_fee hfits]
  calc amount.toNat * l.feePercent.toNat / 100 ≤ amount.toNat * 100 / 100 :=
        Nat.div_le_div_right (Nat.mul_le_mul_left _ hpercent)
    _ = amount.toNat := Nat.mul_div_cancel _ (by omega)

theorem toNat_share (hpercent : l.feePercent.toNat ≤ 100)
    (hfits : amount.toNat * l.feePercent.toNat < 2 ^ 256) :
    (l.distribution amount).share.toNat =
      (amount.toNat - (l.fee amount).toNat) / l.eligibleCount := by
  have hfee := toNat_fee_le hpercent hfits
  unfold distribution
  by_cases hnone : l.eligibleCount = 0
  · simp [hnone]
  · simp only [hnone, if_false]
    rw [BitVec.toNat_udiv, toNat_eligibleCount, BitVec.toNat_sub_of_le (BitVec.le_def.mpr hfee)]

/-- The pool takes the amount less the shares. -/
theorem toNat_poolIncrease (hpercent : l.feePercent.toNat ≤ 100)
    (hfits : amount.toNat * l.feePercent.toNat < 2 ^ 256) :
    (l.distribution amount).poolIncrease.toNat +
      l.eligibleCount * (l.distribution amount).share.toNat = amount.toNat := by
  by_cases hnone : l.eligibleCount = 0
  · simp [distribution, hnone]
  · have hfee := toNat_fee_le hpercent hfits
    have hshare := toNat_share hpercent hfits
    have hcount := l.toNat_eligibleCount
    have hremaining : (amount - l.fee amount).toNat = amount.toNat - (l.fee amount).toNat :=
      BitVec.toNat_sub_of_le (BitVec.le_def.mpr hfee)
    have hshared : (l.distribution amount).share.toNat * l.eligibleCount ≤
        amount.toNat - (l.fee amount).toNat := by
      rw [hshare]
      exact Nat.div_mul_le_self _ _
    have hproduct : ((l.distribution amount).share * BitVec.ofNat 256 l.eligibleCount).toNat =
        (l.distribution amount).share.toNat * l.eligibleCount := by
      rw [BitVec.toNat_mul_of_lt (by rw [hcount]; omega), hcount]
    have hrest : (amount - l.fee amount -
        (l.distribution amount).share * BitVec.ofNat 256 l.eligibleCount).toNat =
        amount.toNat - (l.fee amount).toNat -
          (l.distribution amount).share.toNat * l.eligibleCount := by
      rw [BitVec.toNat_sub_of_le (BitVec.le_def.mpr (by rw [hproduct, hremaining]; exact hshared)),
        hproduct, hremaining]
    have hpool : (l.distribution amount).poolIncrease = l.fee amount + (amount - l.fee amount -
        (l.distribution amount).share * BitVec.ofNat 256 l.eligibleCount) := by
      simp [distribution, hnone]
    rw [hpool, BitVec.toNat_add_of_lt (by rw [hrest]; omega), hrest, Nat.mul_comm l.eligibleCount]
    omega

/-- No operation of a split wraps around: neither the product of the percentage, nor the shares, nor
any balance that grows by one. -/
structure SplitsExactly (l : Ledger) (amount : Wei) : Prop where
  fee : (l.fee amount).toNat = amount.toNat * l.feePercent.toNat / 100
  share : (l.distribution amount).share.toNat =
    (amount.toNat - (l.fee amount).toNat) / l.eligibleCount
  pool : (l.distribution amount).poolIncrease.toNat +
    l.eligibleCount * (l.distribution amount).share.toNat = amount.toNat
  pending : ∀ v ∈ l.validators.values, l.isEligible v = true →
    v.pending.toNat + (l.distribution amount).share.toNat < 2 ^ 256
  poolFees : l.poolFees.toNat + (l.distribution amount).poolIncrease.toNat < 2 ^ 256

/-- No operation of a move wraps around. -/
def Exact (l : Ledger) : Move → Prop
  | .split amount => l.SplitsExactly amount
  | .forfeit i => (l.withoutPending i).SplitsExactly (l.pendingOf i)
  | .payOut i => ∀ v, l.find? i = some v → v.accumulated.toNat + v.pending.toNat < 2 ^ 256
  | .deposit i amount => ∀ v, l.find? i = some v →
    v.collateral.toNat + amount.toNat < 2 ^ 256 ∧ v.accumulated.toNat + amount.toNat < 2 ^ 256
  | .track .. | .mark .. | .note .. | .log _ | .close .. => True

/-- Beyond the fee the pool takes what cannot be shared evenly. -/
theorem poolIncrease_bounds (hpercent : l.feePercent.toNat ≤ 100)
    (hfits : amount.toNat * l.feePercent.toNat < 2 ^ 256) (hsome : 0 < l.eligibleCount) :
    (l.fee amount).toNat ≤ (l.distribution amount).poolIncrease.toNat ∧
      (l.distribution amount).poolIncrease.toNat < (l.fee amount).toNat + l.eligibleCount := by
  have hfee := toNat_fee_le hpercent hfits
  have hpool := toNat_poolIncrease hpercent hfits
  have hdivided := Nat.div_add_mod (amount.toNat - (l.fee amount).toNat) l.eligibleCount
  have hleft := Nat.mod_lt (amount.toNat - (l.fee amount).toNat) hsome
  rw [← toNat_share hpercent hfits] at hdivided
  omega

/-- With no one to share it the pool takes the whole amount, and nothing else changes. -/
theorem distribute_of_none (hnone : l.eligibleCount = 0) (amount : Wei) :
    l.distribution amount = ⟨0, 0, amount⟩ ∧
      l.distribute amount = { l with poolFees := l.poolFees + amount } := by
  have hsplit : l.distribution amount = ⟨0, 0, amount⟩ := by simp [distribution, hnone]
  have hkept : (l.distribute amount).validators = l.validators := by
    refine SortedMap.ext_find? fun i => ?_
    change (l.distribute amount).find? i = l.find? i
    rw [find?_distribute, hsplit]
    cases hi : l.find? i with
    | none => rfl
    | some v =>
      have hv : ¬ l.isEligible v = true :=
        List.countP_eq_zero.mp hnone v (SortedMap.mem_values_iff.mpr ⟨i, hi⟩)
      rw [Option.map_some, shared, if_neg hv]
  refine ⟨hsplit, ?_⟩
  have hfees : (l.distribute amount).poolFees = l.poolFees + amount := by
    change l.poolFees + (l.distribution amount).poolIncrease = _
    rw [hsplit]
  rw [← hkept, ← hfees]
  rfl

theorem keys_distribute (l : Ledger) (amount : Wei) :
    (l.distribute amount).validators.keys = l.validators.keys := by
  simp [distribute, SortedMap.keys, SortedMap.map, Function.comp_def]

/-- While an amount times the percentage fits into a word, a distribution splits it as plain numbers
are split. Each eligible validator is credited with an equal share of what the fee leaves, rounded
down, and the pool with the rest, which is the fee and less than one more for each who shares. With no
one to share it all goes to the pool. Nothing else changes, and what is reported is what was done. -/
theorem split_is_exact (hpercent : l.feePercent.toNat ≤ 100)
    (hfits : amount.toNat * l.feePercent.toNat < 2 ^ 256) :
    let n := l.validators.values.countP fun v => l.eligibility.admits v.status
    let fee := amount.toNat * l.feePercent.toNat / 100
    let d := l.distribution amount
    let l' := l.distribute amount
    d.eligible = n ∧
    n * d.share.toNat + d.poolIncrease.toNat = amount.toNat ∧
    (n = 0 → d.share = 0 ∧ d.poolIncrease = amount ∧
      l' = { l with poolFees := l.poolFees + amount }) ∧
    (0 < n → d.share.toNat = (amount.toNat - fee) / n ∧
      d.poolIncrease.toNat = amount.toNat - d.share.toNat * n ∧
      fee ≤ d.poolIncrease.toNat ∧ d.poolIncrease.toNat ≤ fee + n - 1) ∧
    (∀ i, l'.find? i = (l.find? i).map fun v =>
      if l.eligibility.admits v.status then { v with pending := v.pending + d.share } else v) ∧
    l'.validators.keys = l.validators.keys ∧
    l' = { l with validators := l'.validators, poolFees := l.poolFees + d.poolIncrease } := by
  intro n fee d l'
  have hwhole : n * d.share.toNat + d.poolIncrease.toNat = amount.toNat :=
    (Nat.add_comm _ _).trans (toNat_poolIncrease hpercent hfits)
  have hfee : (l.fee amount).toNat = fee := toNat_fee hfits
  refine ⟨?_, hwhole, ?_, ?_, l.find?_distribute amount, l.keys_distribute amount, rfl⟩
  · show (l.distribution amount).eligible = l.eligibleCount
    unfold distribution
    by_cases hnone : l.eligibleCount = 0
    · simp [hnone]
    · simp [hnone]
  · intro hnone
    obtain ⟨hsplit, hledger⟩ := l.distribute_of_none hnone amount
    have hd : d = ⟨0, 0, amount⟩ := hsplit
    rw [hd]
    exact ⟨rfl, rfl, hledger⟩
  · intro hsome
    obtain ⟨hle, hlt⟩ := poolIncrease_bounds hpercent hfits hsome
    have hshare := toNat_share hpercent hfits
    rw [hfee] at hle hlt hshare
    refine ⟨hshare, ?_, hle, Nat.le_sub_one_of_lt hlt⟩
    rw [Nat.mul_comm, ← hwhole, Nat.add_sub_cancel_left]

end Ledger

/-! Three validators share eleven wei after a tenth of it went to the pool; one is banned. -/
namespace ElevenAmongThree

def member (status : Status) (pending : Wei) : Validator :=
  { Validator.fresh .zero .zero with status, pending }

def ledger : Ledger where
  validators := .ofList [(0, member .active 0), (1, member .banned 0), (4, member .yellowCard 8),
    (9, member .active 1)]
  poolFees := 5
  feePercent := 10
  feeAddress := .zero
  eligibility := .activeAndYellowCard
  latestSlot := none
  latestBlock := none
  subscriptions := []
  unsubscriptions := []
  donations := []
  poolBlocks := []

theorem two_are_left_over :
    ledger.feePercent.toNat ≤ 100 ∧ (11 : Wei).toNat * ledger.feePercent.toNat < 2 ^ 256 ∧
      (ledger.distribution 11).eligible = 3 ∧ (ledger.distribution 11).share.toNat = 3 ∧
      (ledger.distribution 11).poolIncrease.toNat = 2 ∧
      (ledger.distribute 11).find? 4 = some (member .yellowCard 11) ∧
      (ledger.distribute 11).find? 1 = some (member .banned 0) := by
  have hpercent : ledger.feePercent.toNat ≤ 100 := by decide
  have hfits : (11 : Wei).toNat * ledger.feePercent.toNat < 2 ^ 256 := by decide
  have hcount : (ledger.validators.values.countP fun v => ledger.eligibility.admits v.status) = 3 := by
    decide
  obtain ⟨heligible, hwhole, -, hsome, hentries, -⟩ := Ledger.split_is_exact hpercent hfits
  rw [hcount] at heligible hwhole hsome
  obtain ⟨hshare, -⟩ := hsome (by decide)
  have hthree : (ledger.distribution 11).share.toNat = 3 := hshare
  have hall : 3 * 3 + (ledger.distribution 11).poolIncrease.toNat = 11 := hthree ▸ hwhole
  refine ⟨hpercent, hfits, heligible, hthree, by omega, ?_, ?_⟩
  · rw [hentries 4, BitVec.eq_of_toNat_eq (y := 3) hthree]
    rfl
  · rw [hentries 1]
    rfl

end ElevenAmongThree

end RewardPool
