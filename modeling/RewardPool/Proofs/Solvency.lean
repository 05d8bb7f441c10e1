import RewardPool.Keccak
import RewardPool.Proofs.BlockIncome
import RewardPool.Proofs.Commitments
import RewardPool.Proofs.Splits

/-!
Solvency in plain numbers. While all that came in stays below a hundredth of a word, no move of the
ledger wraps around: each balance is a part of what is held, and what is held is what came in. So
the balances add up to the inflow as natural numbers, and nobody has accumulated less than its own
collateral. The step is one move; a course of moves follows by induction, since what came in never
becomes less.
-/
namespace RewardPool

namespace Ledger

/-- All balances together, as a plain number. -/
def plainHeld (l : Ledger) : Nat :=
  l.validators.total (·.pending.toNat) + l.validators.total (·.accumulated.toNat) +
    l.poolFees.toNat

/-- The balances make up a plain number, and each collateral can be claimed. -/
structure Solvent (l : Ledger) (n : Nat) : Prop where
  held : l.plainHeld = n
  covered : ∀ i v, l.find? i = some v → v.collateral ≤ v.accumulated

variable {l l' : Ledger} {i : ValidatorIndex} {n : Nat}

theorem plainHeld_eq_total (l : Ledger) :
    l.plainHeld =
      (l.validators.total fun v => v.pending.toNat + v.accumulated.toNat) + l.poolFees.toNat := by
  rw [SortedMap.total_add]
  rfl

theorem Solvent.le (hl : l.Solvent n) {v : Validator} (hv : l.find? i = some v) :
    v.pending.toNat + v.accumulated.toNat + l.poolFees.toNat ≤ n := by
  have hmem : v ∈ l.validators.values := SortedMap.mem_values_iff.mpr ⟨i, hv⟩
  have hle := SortedMap.le_total (fun v => v.pending.toNat + v.accumulated.toNat) hmem
  rw [← hl.held, plainHeld_eq_total]
  omega

theorem plainHeld_update {f : Validator → Validator} {v : Validator} (hv : l.find? i = some v) :
    (l.update i f).plainHeld + (v.pending.toNat + v.accumulated.toNat) =
      l.plainHeld + ((f v).pending.toNat + (f v).accumulated.toNat) := by
  have hmoved := SortedMap.total_modify l.validators i f
    (fun v => v.pending.toNat + v.accumulated.toNat) hv
  rw [plainHeld_eq_total, plainHeld_eq_total]
  change ((l.validators.modify i f).total fun v => v.pending.toNat + v.accumulated.toNat) +
    l.poolFees.toNat + _ = _
  omega

theorem covered_update (hl : l.Solvent n) {f : Validator → Validator}
    (hf : ∀ v, l.find? i = some v → v.collateral ≤ v.accumulated →
      (f v).collateral ≤ (f v).accumulated) :
    ∀ j v, (l.update i f).find? j = some v → v.collateral ≤ v.accumulated := by
  intro j v hv
  rw [find?_update] at hv
  split at hv
  · rename_i hji
    obtain ⟨u, hu, rfl⟩ := Option.map_eq_some_iff.mp hv
    exact hf u (hji ▸ hu) (hl.covered j u hu)
  · exact hl.covered j v hv

theorem Solvent.update (hl : l.Solvent n) {f : Validator → Validator} {v : Validator} {k : Nat}
    (hv : l.find? i = some v)
    (hheld : (f v).pending.toNat + (f v).accumulated.toNat =
      v.pending.toNat + v.accumulated.toNat + k)
    (hcovered : ∀ v, l.find? i = some v → v.collateral ≤ v.accumulated →
      (f v).collateral ≤ (f v).accumulated) : (l.update i f).Solvent (n + k) := by
  refine ⟨?_, covered_update hl hcovered⟩
  have hupdate := plainHeld_update (f := f) hv
  have hn := hl.held
  omega

theorem Solvent.track (hl : l.Solvent n) (hi : l.find? i = none) (address : Address)
    (pubkey : Pubkey) : (l.move (.track i address pubkey)).Solvent n := by
  have htotal := SortedMap.total_insert l.validators i (.fresh address pubkey)
    (fun v => v.pending.toNat + v.accumulated.toNat) hi
  constructor
  · have hn := hl.held
    rw [plainHeld_eq_total] at hn ⊢
    change ((l.validators.insert i (.fresh address pubkey)).total
      fun v => v.pending.toNat + v.accumulated.toNat) + l.poolFees.toNat = n
    rw [htotal]
    simpa [Validator.fresh] using hn
  · intro j v hv
    change (l.validators.insert i (.fresh address pubkey)).find? j = some v at hv
    rw [SortedMap.find?_insert] at hv
    split at hv
    · obtain rfl := Option.some.inj hv
      exact BitVec.le_refl _
    · exact hl.covered j v hv

theorem Solvent.splitsExactly (hl : l.Solvent n) {amount : Wei}
    (hpercent : l.feePercent.toNat ≤ 100) (hfits : 100 * (n + amount.toNat) < 2 ^ 256) :
    l.SplitsExactly amount := by
  have hsmall : amount.toNat * l.feePercent.toNat < 2 ^ 256 := mul_percent_lt hpercent (by omega)
  have hpool := toNat_poolIncrease hpercent hsmall
  have hheld := hl.held
  have hfees : l.poolFees.toNat ≤ n := by
    unfold plainHeld at hheld
    omega
  have hroom : ∀ v ∈ l.validators.values, l.isEligible v = true →
      v.pending.toNat + (l.distribution amount).share.toNat < 2 ^ 256 := by
    intro v hv heligible
    obtain ⟨i, hi⟩ := SortedMap.mem_values_iff.mp hv
    have hle := hl.le hi
    -- There is at least this one to share, so one share is not more than the amount.
    have hcount : 0 < l.eligibleCount := List.countP_pos_iff.mpr ⟨v, hv, heligible⟩
    have hshare : (l.distribution amount).share.toNat ≤
        l.eligibleCount * (l.distribution amount).share.toNat := Nat.le_mul_of_pos_left _ hcount
    omega
  exact
    { fee := toNat_fee hsmall
      share := toNat_share hpercent hsmall
      pool := hpool
      pending := hroom
      poolFees := by omega }

theorem Solvent.distribute (hl : l.Solvent n) {amount : Wei} (hexact : l.SplitsExactly amount) :
    (l.distribute amount).Solvent (n + amount.toNat) := by
  have hshared : ∀ v ∈ l.validators.values,
      (l.shared (l.distribution amount).share v).pending.toNat +
          (l.shared (l.distribution amount).share v).accumulated.toNat =
        v.pending.toNat + v.accumulated.toNat +
          if l.isEligible v then (l.distribution amount).share.toNat else 0 := by
    intro v hv
    unfold shared
    split
    · rename_i heligible
      have hpending := BitVec.toNat_add_of_lt (hexact.pending v hv heligible)
      dsimp only
      omega
    · rfl
  have htotal := total_distribute (g := fun v => v.pending.toNat + v.accumulated.toNat) hshared
  have hpoolFees : (l.distribute amount).poolFees.toNat =
      l.poolFees.toNat + (l.distribution amount).poolIncrease.toNat :=
    BitVec.toNat_add_of_lt hexact.poolFees
  have hpool := hexact.pool
  have hheld := hl.held
  constructor
  · rw [plainHeld_eq_total] at hheld ⊢
    rw [htotal, hpoolFees, smul_eq_mul]
    omega
  · intro i v hv
    rw [find?_distribute] at hv
    obtain ⟨u, hu, rfl⟩ := Option.map_eq_some_iff.mp hv
    have hcovered := hl.covered i u hu
    unfold shared
    split <;> exact hcovered

/-- While the inflow is small a move is exact, and what is held grows by what it brings. -/
theorem Solvent.move (hl : l.Solvent n) {m : Move} (hm : l.Allows m)
    (hpercent : l.feePercent.toNat ≤ 100) (hfits : 100 * (n + m.inflow) < 2 ^ 256) :
    l.Exact m ∧ (l.move m).Solvent (n + m.inflow) := by
  cases m with
  | track i address pubkey => exact ⟨trivial, hl.track hm address pubkey⟩
  | mark i s =>
    obtain ⟨v, e, hv, -⟩ := hm
    exact ⟨trivial, hl.update hv rfl fun _ _ hcovered => hcovered⟩
  | note i r =>
    obtain ⟨v, hv⟩ := hm
    refine ⟨trivial, hl.update hv ?_ ?_⟩
    · obtain ⟨hpending, haccumulated, -⟩ := v.noted_balances r
      rw [hpending, haccumulated]
      rfl
    · intro u _ hcovered
      obtain ⟨-, haccumulated, hcollateral⟩ := u.noted_balances r
      rwa [haccumulated, hcollateral]
  | payOut i =>
    obtain ⟨v, hv⟩ := hm
    have hroom : ∀ u, l.find? i = some u →
        u.accumulated.toNat + u.pending.toNat < 2 ^ 256 := by
      intro u hu
      have hle := hl.le hu
      omega
    refine ⟨hroom, hl.update hv ?_ ?_⟩
    · have hsum := BitVec.toNat_add_of_lt (hroom v hv)
      have hinflow : (Move.payOut i).inflow = 0 := rfl
      have hzero : (0 : Wei).toNat = 0 := rfl
      rw [hinflow, hsum, hzero]
      omega
    · intro u hu hcovered
      have hsum := BitVec.toNat_add_of_lt (hroom u hu)
      have hcovered' := BitVec.le_def.mp hcovered
      rw [BitVec.le_def]
      dsimp only
      omega
  | deposit i amount =>
    obtain ⟨v, hv⟩ := hm
    have hroom : ∀ u, l.find? i = some u →
        u.collateral.toNat + amount.toNat < 2 ^ 256 ∧
          u.accumulated.toNat + amount.toNat < 2 ^ 256 := by
      intro u hu
      have hle := hl.le hu
      have hcovered := BitVec.le_def.mp (hl.covered i u hu)
      have hinflow : (Move.deposit i amount).inflow = amount.toNat := rfl
      constructor <;> omega
    refine ⟨hroom, hl.update hv ?_ ?_⟩
    · have hsum := BitVec.toNat_add_of_lt (hroom v hv).2
      dsimp only [Move.inflow]
      rw [hsum]
      omega
    · intro u hu hcovered
      have hcollateral := BitVec.toNat_add_of_lt (hroom u hu).1
      have haccumulated := BitVec.toNat_add_of_lt (hroom u hu).2
      have hcovered' := BitVec.le_def.mp hcovered
      rw [BitVec.le_def]
      dsimp only
      omega
  | forfeit i =>
    obtain ⟨v, hv⟩ := hm
    have hpending := pendingOf_eq hv
    have htaken := plainHeld_update (f := fun v => { v with pending := 0 }) hv
    have hle := hl.le hv
    have hheld := hl.held
    have hzero : (0 : Wei).toNat = 0 := rfl
    -- What is taken away is what is split again.
    have hwithout : (l.withoutPending i).Solvent (n - v.pending.toNat) := by
      refine ⟨?_, covered_update hl fun _ _ hcovered => hcovered⟩
      dsimp only at htaken
      unfold withoutPending
      omega
    have hback : n - v.pending.toNat + v.pending.toNat = n := by omega
    have hsmall : 100 * (n - v.pending.toNat + v.pending.toNat) < 2 ^ 256 := by
      rw [hback]
      exact hfits
    have hexact := hwithout.splitsExactly hpercent hsmall
    have hsplit := hwithout.distribute hexact
    rw [hback] at hsplit
    dsimp only [Exact, Ledger.move]
    rw [hpending]
    exact ⟨hexact, hsplit⟩
  | split amount =>
    have hexact := hl.splitsExactly hpercent hfits
    exact ⟨hexact, hl.distribute hexact⟩
  | log new => exact ⟨trivial, hl.held, hl.covered⟩
  | close slot block => exact ⟨trivial, hl.held, hl.covered⟩

/-- A course of moves that brings little is exact all the way. -/
theorem Solvent.course {moves : List Move} (hcourse : Course Allows l moves l')
    (hl : l.Solvent n) (hpercent : l.feePercent.toNat ≤ 100)
    (hfits : 100 * (n + (moves.map (·.inflow)).sum) < 2 ^ 256) :
    Course (fun l m => l.Allows m ∧ l.Exact m) l moves l' ∧
      l'.Solvent (n + (moves.map (·.inflow)).sum) := by
  induction hcourse generalizing n with
  | nil l => exact ⟨.nil l, hl⟩
  | @cons l l' m rest hm _ ih =>
    rw [List.map_cons, List.sum_cons, ← Nat.add_assoc] at hfits ⊢
    obtain ⟨hexact, hnext⟩ := hl.move hm hpercent (by omega)
    obtain ⟨hrest, hend⟩ := ih hnext (by rwa [feePercent_move]) hfits
    exact ⟨.cons ⟨hm, hexact⟩ hrest, hend⟩

theorem solvent_fresh (config : Config) : (fresh config).Solvent 0 := by
  refine ⟨rfl, fun i v hv => ?_⟩
  exact absurd hv (by simp [fresh, find?])

/-- The leaves are all that is held but the pending balances. -/
theorem Solvent.sum_leaves (hl : l.Solvent n) (hfits : n < 2 ^ 256) :
    (l.leaves.map (·.balance.toNat)).sum = n - l.validators.total (·.pending.toNat) := by
  have hheld := hl.held
  unfold plainHeld at hheld
  have htotal := l.total_balances (by omega)
  rw [l.sum_leaves, htotal]
  omega

end Ledger

namespace Oracle

open Merkle (Digest)

/-- In every run from a fresh ledger, as long as a hundred times all that the logs record fits into
a word, the balances make it up as plain numbers. The run is a course of moves that bring so much,
and in no such course does an operation wrap around. Every collateral can be claimed, and what all
claims come to is the inflow less the pending balances. -/
theorem reached_ledger_is_solvent {ε σ : Type} (h : Digest) (chain : Chain ε (StateM σ))
    (submitter : Option (Submitter ε (StateM σ))) {config : Config}
    (hpercent : config.feePercent.toNat ≤ 100) (checkpoints : SortedMap Hash Checkpoint)
    (latest submittedRoot : Option Hash) (slots : List Slot) (w : σ) :
    let start : Oracle :=
      { config, ledger := .fresh config, checkpoints, latest, submittedRoot }
    let l := ((processAll h chain submitter slots start).run w).1.ledger
    let inflow := (l.poolBlocks.map (·.reward.toNat)).sum + (l.donations.map (·.amount.toNat)).sum +
      (l.subscriptions.map (·.collateral.toNat)).sum
    let pending := (l.validators.values.map (·.pending.toNat)).sum
    let accumulated := (l.validators.values.map (·.accumulated.toNat)).sum
    100 * inflow < 2 ^ 256 →
      pending + accumulated + l.poolFees.toNat = inflow ∧
      (∃ moves, Course Ledger.Allows (.fresh config) moves l ∧
        (moves.map (·.inflow)).sum = inflow) ∧
      (∀ moves, Course Ledger.Allows (.fresh config) moves l → (moves.map (·.inflow)).sum = inflow →
        Course (fun m a => m.Allows a ∧ m.Exact a) (.fresh config) moves l) ∧
      (∀ i v, l.find? i = some v → v.collateral ≤ v.accumulated) ∧
      (l.leaves.map (·.balance.toNat)).sum = inflow - pending ∧
      (l.leaves.map (·.balance.toNat)).sum ≤ inflow ∧
      ∀ tree, l.claimTree h = .built tree → tree.leaves.values = l.leaves := by
  intro start l inflow pending accumulated hfits
  have hrun := returns_run (processAll h chain submitter slots start) w
  obtain ⟨new, hmoved⟩ := moved_processAll hrun
  have hlogged : inflow = new.plain := by
    have hlogs := Ledger.plain_of_moved hmoved
    have hfresh : (Ledger.fresh config).logs.plain = 0 := rfl
    change inflow = (Ledger.fresh config).logs.plain + new.plain at hlogs
    omega
  rw [← hlogged] at hmoved
  have hexact : ∀ moves, Course Ledger.Allows (.fresh config) moves l →
      (moves.map (·.inflow)).sum = inflow →
      Course (fun m a => m.Allows a ∧ m.Exact a) (.fresh config) moves l ∧ l.Solvent inflow := by
    intro moves hcourse hinflow
    have hstart := Ledger.solvent_fresh config
    have hend := hstart.course hcourse hpercent (by rw [hinflow, Nat.zero_add]; exact hfits)
    rwa [hinflow, Nat.zero_add] at hend
  obtain ⟨moves, hcourse, hinflow, -⟩ := hmoved
  have hsolvent : l.Solvent inflow := (hexact moves hcourse hinflow).2
  have hleaves : (l.leaves.map (·.balance.toNat)).sum = inflow - pending :=
    hsolvent.sum_leaves (by omega)
  refine ⟨hsolvent.held, ⟨moves, hcourse, hinflow⟩, ?_, hsolvent.covered, hleaves, by omega, ?_⟩
  · intro moves hcourse hinflow
    exact (hexact moves hcourse hinflow).1
  · intro tree hbuilt
    obtain ⟨-, rfl⟩ := Ledger.claimTree_eq_built_iff.mp hbuilt
    exact l.values_leaves_commitment h

end Oracle

namespace SubscribeCall

/-- The collateral came in as a donation too, so twice as much is held. -/
theorem solvent_after_call :
    let l := ((Oracle.processAll Keccak.digest (history.chain : Chain Empty (StateM Unit)) none
      [100] (.start config (.fresh config))).run ()).1.ledger
    let inflow := (l.poolBlocks.map (·.reward.toNat)).sum + (l.donations.map (·.amount.toNat)).sum +
      (l.subscriptions.map (·.collateral.toNat)).sum
    config.feePercent.toNat ≤ 100 ∧ 100 * inflow < 2 ^ 256 ∧ inflow = 2000 ∧
      (l.validators.values.map (·.pending.toNat)).sum +
        (l.validators.values.map (·.accumulated.toNat)).sum + l.poolFees.toNat = inflow ∧
      (l.leaves.map (·.balance.toNat)).sum ≤ inflow := by
  intro l inflow
  have hpercent : config.feePercent.toNat ≤ 100 := by decide
  have hinflow : inflow = 2000 := by decide
  have hfits : 100 * inflow < 2 ^ 256 := by omega
  have hsolvent := Oracle.reached_ledger_is_solvent Keccak.digest
    (history.chain : Chain Empty (StateM Unit)) none hpercent .empty none none [100] () hfits
  obtain ⟨hheld, -, -, -, -, hleaves, -⟩ := hsolvent
  exact ⟨hpercent, hfits, hinflow, hheld, hleaves⟩

end SubscribeCall

end RewardPool
