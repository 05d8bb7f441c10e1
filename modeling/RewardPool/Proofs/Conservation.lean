import Mathlib.Data.BitVec
import Mathlib.Tactic.LinearCombination
import Mathlib.Tactic.Ring
import RewardPool.Proofs.Postings

/-!
Every amount that enters the ledger is logged once and credited once. A move changes what the ledger
holds by what it brings in and by nothing else, in arithmetic that wraps. An entry brings in the
reward of a block that paid the pool, a donation, or the collateral of a subscription, and logs as
much, so what is held and what is logged agree in every ledger that a run can reach.
-/
namespace RewardPool

theorem sum_eq_ofNat (amounts : List Wei) :
    amounts.sum = BitVec.ofNat 256 (amounts.map (·.toNat)).sum := by
  induction amounts with
  | nil => rfl
  | cons a rest ih =>
    rw [List.sum_cons, ih, List.map_cons, List.sum_cons, BitVec.ofNat_add, BitVec.ofNat_toNat,
      BitVec.setWidth_eq]

namespace Logs

/-- All amounts that logs record. -/
def amounts (logs : Logs) : Wei :=
  (logs.poolBlocks.map (·.reward)).sum + (logs.donations.map (·.amount)).sum +
    (logs.subscriptions.map (·.collateral)).sum

theorem amounts_append (a b : Logs) : (a.append b).amounts = a.amounts + b.amounts := by
  simp only [amounts, append, List.map_append, List.sum_append]
  ring

theorem amounts_eq_ofNat (logs : Logs) : logs.amounts = BitVec.ofNat 256 logs.plain := by
  unfold amounts plain
  rw [sum_eq_ofNat, sum_eq_ofNat, sum_eq_ofNat, BitVec.ofNat_add, BitVec.ofNat_add, List.map_map,
    List.map_map, List.map_map]
  rfl

end Logs

namespace Ledger

/-- All balances together: pending, claimable, and the fees of the pool. -/
def held (l : Ledger) : Wei := l.totalPending + l.totalAccumulated + l.poolFees

variable {l l' : Ledger} {i : ValidatorIndex} {config : Config}

/-- The shares and the part of the pool make up the whole amount, also where a product wraps. -/
theorem distribution_whole (l : Ledger) (amount : Wei) :
    l.eligibleCount • (l.distribution amount).share + (l.distribution amount).poolIncrease =
      amount := by
  unfold distribution
  by_cases hn : l.eligibleCount = 0
  · simp [hn]
  · simp only [hn, if_false, nsmul_eq_mul, BitVec.natCast_eq_ofNat]
    ring

theorem held_eq_total (l : Ledger) :
    l.held = (l.validators.total fun v => v.pending + v.accumulated) + l.poolFees := by
  rw [SortedMap.total_add]
  rfl

theorem held_distribute (l : Ledger) (amount : Wei) :
    (l.distribute amount).held = l.held + amount := by
  have hshared : ∀ v ∈ l.validators.values,
      (l.shared (l.distribution amount).share v).pending +
          (l.shared (l.distribution amount).share v).accumulated =
        v.pending + v.accumulated +
          if l.isEligible v then (l.distribution amount).share else 0 := by
    intro v _
    unfold shared
    split <;> ring
  have hpool : (l.distribute amount).poolFees =
    l.poolFees + (l.distribution amount).poolIncrease := rfl
  have hwhole := l.distribution_whole amount
  rw [held_eq_total, held_eq_total, total_distribute hshared, hpool]
  linear_combination hwhole

/-- A change of one validator moves what the ledger holds by the change of its two balances. -/
theorem held_update {f : Validator → Validator} {v : Validator} (hv : l.find? i = some v) :
    (l.update i f).held + (v.pending + v.accumulated) =
      l.held + ((f v).pending + (f v).accumulated) := by
  have hmoved := SortedMap.total_modify l.validators i f (fun v => v.pending + v.accumulated) hv
  rw [held_eq_total, held_eq_total]
  change ((l.validators.modify i f).total fun v => v.pending + v.accumulated) + l.poolFees + _ = _
  linear_combination hmoved

theorem held_update_of_eq (l : Ledger) (i : ValidatorIndex) {f : Validator → Validator}
    (hf : ∀ v, (f v).pending + (f v).accumulated = v.pending + v.accumulated) :
    (l.update i f).held = l.held := by
  have hkept := SortedMap.total_modify_of_eq l.validators i
    (g := fun v => v.pending + v.accumulated) hf
  rw [held_eq_total, held_eq_total, ← hkept]
  rfl

/-- A move changes what the ledger holds by what it brings in. -/
theorem held_move {m : Move} (hm : l.Allows m) :
    (l.move m).held = l.held + BitVec.ofNat 256 m.inflow := by
  cases m with
  | track i address pubkey =>
    have htotal := SortedMap.total_insert l.validators i (.fresh address pubkey)
      (fun v => v.pending + v.accumulated) hm
    rw [held_eq_total, held_eq_total]
    change SortedMap.total (l.validators.insert i _) _ + l.poolFees = _
    rw [htotal]
    simp [Validator.fresh, Move.inflow]
  | mark i s =>
    have hkept := held_update_of_eq l i (f := fun v => { v with status := s }) fun v => rfl
    exact hkept.trans (add_zero _).symm
  | note i r =>
    refine (held_update_of_eq l i fun v => ?_).trans (add_zero _).symm
    obtain ⟨hpending, haccumulated, -⟩ := v.noted_balances r
    rw [hpending, haccumulated]
  | payOut i => exact (held_update_of_eq l i fun v => by ring).trans (add_zero _).symm
  | deposit i amount =>
    obtain ⟨v, hv⟩ := hm
    have hadded := held_update (l := l)
      (f := fun v => { v with
        collateral := v.collateral + amount, accumulated := v.accumulated + amount }) hv
    dsimp only [move, Move.inflow]
    rw [BitVec.ofNat_toNat, BitVec.setWidth_eq]
    linear_combination hadded
  | forfeit i =>
    obtain ⟨v, hv⟩ := hm
    -- What is taken from the validator is what is distributed.
    have htaken : (l.withoutPending i).held + (v.pending + v.accumulated) =
        l.held + (0 + v.accumulated) := held_update hv
    have hback : ((l.withoutPending i).distribute (l.pendingOf i)).held = l.held := by
      rw [held_distribute, pendingOf_eq hv]
      linear_combination htaken
    exact hback.trans (add_zero _).symm
  | split amount =>
    dsimp only [move, Move.inflow]
    rw [held_distribute, BitVec.ofNat_toNat, BitVec.setWidth_eq]
  | log new => exact (add_zero _).symm
  | close slot block => exact (add_zero _).symm

theorem held_of_moved {n : Nat} {new : Logs} (h : Moved l l' n new) :
    l'.held = l.held + BitVec.ofNat 256 n := by
  obtain ⟨moves, hcourse, rfl, -⟩ := h
  induction hcourse with
  | nil l => exact (add_zero _).symm
  | cons hm _ ih => rw [ih, held_move hm, List.map_cons, List.sum_cons, BitVec.ofNat_add, add_assoc]

theorem held_post {e : Entry} (h : l.post config e = .ok l') : l'.held = l.held + e.inflow := by
  obtain ⟨new, hmoved, -, -⟩ := moved_post h
  rw [held_of_moved hmoved, BitVec.ofNat_toNat, BitVec.setWidth_eq]

theorem held_postAll {entries : List Entry} (h : l.postAll config entries = .ok l') :
    l'.held = l.held + (entries.map (·.inflow)).sum := by
  induction entries generalizing l with
  | nil =>
    obtain rfl := Except.ok.inj h
    exact (add_zero _).symm
  | cons e rest ih =>
    obtain ⟨m, hpost, hrest⟩ := postAll_cons.mp h
    rw [ih hrest, held_post hpost, List.map_cons, List.sum_cons, add_assoc]

theorem donations_postAll {entries : List Entry} (h : l.postAll config entries = .ok l') :
    l'.donations = l.donations ++ entries.flatMap (·.donations) := by
  induction entries generalizing l with
  | nil =>
    obtain rfl := Except.ok.inj h
    simp
  | cons e rest ih =>
    obtain ⟨m, hpost, hrest⟩ := postAll_cons.mp h
    obtain ⟨new, hmoved, -, hnew⟩ := moved_post hpost
    have hfirst : m.donations = l.donations ++ e.donations :=
      hnew ▸ congrArg Logs.donations (logs_of_moved hmoved)
    rw [ih hrest, hfirst, List.flatMap_cons, List.append_assoc]

/-- A ledger that holds what its logs record. -/
def Balanced (l : Ledger) : Prop := l.held = l.logs.amounts

theorem balanced_fresh (config : Config) : (fresh config).Balanced := rfl

theorem balanced_post {e : Entry} (hl : l.Balanced) (h : l.post config e = .ok l') :
    l'.Balanced := by
  obtain ⟨new, hmoved, hplain, -⟩ := moved_post h
  have hamounts : new.amounts = e.inflow := by
    rw [Logs.amounts_eq_ofNat, hplain, BitVec.ofNat_toNat, BitVec.setWidth_eq]
  unfold Balanced at hl ⊢
  rw [held_post h, logs_of_moved hmoved, Logs.amounts_append, hamounts, hl]

end Ledger

namespace Oracle

open Merkle (Digest)

/-- In every run from a fresh ledger, whatever the world answers and wherever it fails, the balances
make up what the logs record. -/
theorem reached_ledger_conserves {ε σ : Type} (h : Digest) (chain : Chain ε (StateM σ))
    (submitter : Option (Submitter ε (StateM σ))) (config : Config)
    (checkpoints : SortedMap Hash Checkpoint) (latest submittedRoot : Option Hash)
    (slots : List Slot) (w : σ) :
    let start : Oracle :=
      { config, ledger := .fresh config, checkpoints, latest, submittedRoot }
    let l := ((processAll h chain submitter slots start).run w).1.ledger
    l.totalPending + l.totalAccumulated + l.poolFees =
      (l.poolBlocks.map (·.reward)).sum + (l.donations.map (·.amount)).sum +
        (l.subscriptions.map (·.collateral)).sum := by
  intro start l
  have hstart : start.ledger.Balanced := Ledger.balanced_fresh config
  have hrun := returns_run (processAll h chain submitter slots start) w
  have hbalanced : l.Balanced :=
    processAll_induction (fun m m' e hm hpost => Ledger.balanced_post hm hpost) hstart hrun
  clear_value l
  exact hbalanced

end Oracle

end RewardPool
