import RewardPool.Proofs.Solvency

/-!
What a ledger never takes back. A validator keeps its address and its key, what it has accumulated
and its collateral only become more, and records are only added. So do the fees of the pool and the
logs. As long as no move wraps around, each move respects this order, and so does a run. What an
address is owed is a sum of such amounts, so a later tree has a leaf for each earlier one, with no
smaller balance, and what was paid out on the earlier leaf leaves the difference to claim.
-/
namespace RewardPool

/-- What happens to a validator once it is tracked. -/
structure Validator.Grows (v v' : Validator) : Prop where
  address : v'.withdrawalAddress = v.withdrawalAddress
  pubkey : v'.pubkey = v.pubkey
  accumulated : v.accumulated ≤ v'.accumulated
  collateral : v.collateral ≤ v'.collateral
  proposed : v.proposed <+: v'.proposed
  missed : v.missed <+: v'.missed
  wrongFee : v.wrongFee <+: v'.wrongFee

namespace Validator

variable {v v' v'' : Validator}

/-- A change of the status and of the pending balance alone. -/
theorem grows_status_pending (v : Validator) (status : Status) (pending : Wei) :
    v.Grows { v with status, pending } :=
  ⟨rfl, rfl, BitVec.le_refl _, BitVec.le_refl _, List.prefix_refl _, List.prefix_refl _,
    List.prefix_refl _⟩

theorem Grows.refl (v : Validator) : v.Grows v := v.grows_status_pending v.status v.pending

theorem Grows.trans (h : v.Grows v') (h' : v'.Grows v'') : v.Grows v'' where
  address := h'.address.trans h.address
  pubkey := h'.pubkey.trans h.pubkey
  accumulated := BitVec.le_trans h.accumulated h'.accumulated
  collateral := BitVec.le_trans h.collateral h'.collateral
  proposed := h.proposed.trans h'.proposed
  missed := h.missed.trans h'.missed
  wrongFee := h.wrongFee.trans h'.wrongFee

theorem grows_noted (v : Validator) (r : BlockRecord) : v.Grows (v.noted r) := by
  have hrefl := Grows.refl v
  unfold noted
  split
  · exact { hrefl with proposed := List.prefix_append _ _ }
  · exact { hrefl with missed := List.prefix_append _ _ }
  · exact { hrefl with wrongFee := List.prefix_append _ _ }
  · exact hrefl

end Validator

namespace Ledger

/-- What a ledger keeps in all that comes after it. -/
structure Grows (l l' : Ledger) : Prop where
  validators : ∀ i v, l.find? i = some v → ∃ v', l'.find? i = some v' ∧ v.Grows v'
  poolFees : l.poolFees ≤ l'.poolFees
  feePercent : l'.feePercent = l.feePercent
  feeAddress : l'.feeAddress = l.feeAddress
  eligibility : l'.eligibility = l.eligibility
  subscriptions : l.subscriptions <+: l'.subscriptions
  unsubscriptions : l.unsubscriptions <+: l'.unsubscriptions
  donations : l.donations <+: l'.donations
  poolBlocks : l.poolBlocks <+: l'.poolBlocks

variable {l l' l'' : Ledger} {i : ValidatorIndex} {amount : Wei} {a : Address}

theorem Grows.refl (l : Ledger) : l.Grows l where
  validators := fun _ v hv => ⟨v, hv, .refl v⟩
  poolFees := BitVec.le_refl _
  feePercent := rfl
  feeAddress := rfl
  eligibility := rfl
  subscriptions := List.prefix_refl _
  unsubscriptions := List.prefix_refl _
  donations := List.prefix_refl _
  poolBlocks := List.prefix_refl _

theorem Grows.trans (h : l.Grows l') (h' : l'.Grows l'') : l.Grows l'' where
  validators := by
    intro i v hv
    obtain ⟨v', hv', hgrows⟩ := h.validators i v hv
    obtain ⟨v'', hv'', hgrows'⟩ := h'.validators i v' hv'
    exact ⟨v'', hv'', hgrows.trans hgrows'⟩
  poolFees := BitVec.le_trans h.poolFees h'.poolFees
  feePercent := h'.feePercent.trans h.feePercent
  feeAddress := h'.feeAddress.trans h.feeAddress
  eligibility := h'.eligibility.trans h.eligibility
  subscriptions := h.subscriptions.trans h'.subscriptions
  unsubscriptions := h.unsubscriptions.trans h'.unsubscriptions
  donations := h.donations.trans h'.donations
  poolBlocks := h.poolBlocks.trans h'.poolBlocks

theorem grows_update {f : Validator → Validator}
    (hf : ∀ v, l.find? i = some v → v.Grows (f v)) : l.Grows (l.update i f) := by
  refine { Grows.refl l with validators := ?_ }
  intro j v hv
  rw [find?_update, hv]
  by_cases hji : j = i
  · rw [if_pos hji]
    exact ⟨f v, rfl, hf v (hji ▸ hv)⟩
  · rw [if_neg hji]
    exact ⟨v, rfl, .refl v⟩

theorem grows_distribute (hexact : l.SplitsExactly amount) : l.Grows (l.distribute amount) := by
  have hfees : (l.distribute amount).poolFees.toNat =
      l.poolFees.toNat + (l.distribution amount).poolIncrease.toNat :=
    BitVec.toNat_add_of_lt hexact.poolFees
  refine { Grows.refl l with validators := ?_, poolFees := ?_ }
  · intro i v hv
    refine ⟨l.shared (l.distribution amount).share v, by rw [find?_distribute, hv]; rfl, ?_⟩
    unfold shared
    split
    · exact v.grows_status_pending _ _
    · exact .refl v
  · rw [BitVec.le_def, hfees]
    omega

/-- A move that does not wrap around takes nothing back. -/
theorem grows_move {m : Move} (hm : l.Allows m) (hexact : l.Exact m) : l.Grows (l.move m) := by
  cases m with
  | track i address pubkey =>
    refine { Grows.refl l with validators := ?_ }
    intro j v hv
    -- an index that is tracked already is not tracked anew
    have hij : i ≠ j := by
      rintro rfl
      exact absurd (hv.symm.trans hm) (by simp)
    refine ⟨v, ?_, .refl v⟩
    change (l.validators.insert i (.fresh address pubkey)).find? j = some v
    rw [SortedMap.find?_insert, if_neg hij]
    exact hv
  | mark i s => exact grows_update fun v _ => v.grows_status_pending s v.pending
  | note i r => exact grows_update fun v _ => v.grows_noted r
  | payOut i =>
    refine grows_update fun v hv => { Validator.Grows.refl v with accumulated := ?_ }
    have hsum := BitVec.toNat_add_of_lt (hexact v hv)
    rw [BitVec.le_def]
    dsimp only
    omega
  | deposit i amount =>
    refine grows_update fun v hv =>
      { Validator.Grows.refl v with accumulated := ?_, collateral := ?_ }
    · have hsum := BitVec.toNat_add_of_lt (hexact v hv).2
      rw [BitVec.le_def]
      dsimp only
      omega
    · have hsum := BitVec.toNat_add_of_lt (hexact v hv).1
      rw [BitVec.le_def]
      dsimp only
      omega
  | forfeit i =>
    -- only pending balances are taken away, and they are no part of the order
    have hwithout : l.Grows (l.withoutPending i) :=
      grows_update fun v _ => v.grows_status_pending v.status 0
    exact hwithout.trans (grows_distribute hexact)
  | split amount => exact grows_distribute hexact
  | log new =>
    exact
      { Grows.refl l with
        subscriptions := List.prefix_append _ _
        unsubscriptions := List.prefix_append _ _
        donations := List.prefix_append _ _
        poolBlocks := List.prefix_append _ _ }
  | close slot block => exact { Grows.refl l with }

theorem grows_course {moves : List Move}
    (hcourse : Course (fun l m => l.Allows m ∧ l.Exact m) l moves l') : l.Grows l' :=
  hcourse.relates Grows.refl Grows.trans fun _ _ hm => grows_move hm.1 hm.2

/-- Who is paid once is paid ever after. -/
theorem Grows.payees (h : l.Grows l') (ha : a ∈ l.payments.map (·.1)) :
    a ∈ l'.payments.map (·.1) := by
  rw [mem_payees_iff] at ha ⊢
  rcases ha with ⟨i, v, hv, hva⟩ | hfee
  · obtain ⟨v', hv', hgrows⟩ := h.validators i v hv
    exact .inl ⟨i, v', hv', hgrows.address.trans hva⟩
  · exact .inr (h.feeAddress.trans hfee)

theorem Grows.accumulated (h : l.Grows l') :
    l.validators.total (·.accumulated.toNat) ≤ l'.validators.total (·.accumulated.toNat) := by
  refine SortedMap.total_le_total fun i v hv => ?_
  obtain ⟨v', hv', hgrows⟩ := h.validators i v hv
  exact ⟨v', hv', BitVec.le_def.mp hgrows.accumulated⟩

/-- An address is owed no less later on. -/
theorem Grows.owed (h : l.Grows l') (a : Address)
    (hfits : l'.validators.total (·.accumulated.toNat) + l'.poolFees.toNat < 2 ^ 256) :
    l.owed a ≤ l'.owed a := by
  have hfees := BitVec.le_def.mp h.poolFees
  have haccumulated := h.accumulated
  have hvalidators :
      (l.validators.total fun v => if v.withdrawalAddress = a then v.accumulated.toNat else 0) ≤
        l'.validators.total fun v => if v.withdrawalAddress = a then v.accumulated.toNat else 0 := by
    refine SortedMap.total_le_total fun i v hv => ?_
    obtain ⟨v', hv', hgrows⟩ := h.validators i v hv
    have hle := BitVec.le_def.mp hgrows.accumulated
    refine ⟨v', hv', ?_⟩
    rw [hgrows.address]
    split
    · exact hle
    · exact Nat.le_refl 0
  have hpool : (if l.feeAddress = a then l.poolFees.toNat else 0) ≤
      if l'.feeAddress = a then l'.poolFees.toNat else 0 := by
    rw [h.feeAddress]
    split
    · exact hfees
    · exact Nat.le_refl 0
  rw [BitVec.le_def, toNat_owed (by omega), toNat_owed hfits]
  omega

theorem Grows.length_leaves (h : l.Grows l') : l.leaves.length ≤ l'.leaves.length := by
  have hsub : l.leaves.map (·.address) ⊆ l'.leaves.map (·.address) := by
    intro a ha
    rw [mem_leaf_addresses_iff] at ha ⊢
    exact h.payees ha
  simpa using (List.subperm_of_subset l.nodup_leaf_addresses hsub).length_le

open Merkle (Digest)

/-- A leaf of the earlier tree is found in the later one, with no smaller balance. -/
theorem Grows.leaf (h : l.Grows l') (d : Digest)
    (hfits : l'.validators.total (·.accumulated.toNat) + l'.poolFees.toNat < 2 ^ 256) {leaf : Leaf}
    (hleaf : (l.commitment d).leaves.find? a = some leaf) :
    ∃ later, (l'.commitment d).leaves.find? a = some later ∧ leaf.balance ≤ later.balance := by
  rw [find?_leaves_commitment] at hleaf
  split at hleaf
  · rename_i ha
    obtain rfl := Option.some.inj hleaf
    refine ⟨⟨a, l'.owed a⟩, ?_, h.owed a hfits⟩
    rw [find?_leaves_commitment, if_pos (h.payees ha)]
  · exact absurd hleaf (by simp)

/-- Where there was a tree there is one later on, and a claim of a leaf in it, with the balance of the
earlier leaf paid out, is for what came in between. -/
theorem Grows.claims {ε τ : Type} (h : l.Grows l') {d : Digest}
    (hfits : l'.validators.total (·.accumulated.toNat) + l'.poolFees.toNat < 2 ^ 256)
    {tree : ClaimTree} (hbuilt : l.claimTree d = .built tree) :
    ∃ tree', l'.claimTree d = .built tree' ∧
      ∀ a leaf, tree.leaves.find? a = some leaf →
        ∃ later, tree'.leaves.find? a = some later ∧ leaf.balance ≤ later.balance ∧
          ∀ (c : Checkpoint) (read : Address → StateM τ (Except ε Wei)) (v v' : τ),
            c.leaves = tree'.leaves → (read a).run v = (.ok leaf.balance, v') →
              ∃ claim, (c.claim a read).run v = (.ok (some claim), v') ∧
                claim.claimable.toNat = later.balance.toNat - leaf.balance.toNat := by
  obtain ⟨htwo, rfl⟩ := claimTree_eq_built_iff.mp hbuilt
  have hlonger := h.length_leaves
  refine ⟨l'.commitment d, claimTree_eq_built_iff.mpr ⟨by omega, rfl⟩, ?_⟩
  intro a leaf hleaf
  obtain ⟨later, hlater, hle⟩ := h.leaf d hfits hleaf
  refine ⟨later, hlater, hle, ?_⟩
  intro c read v v' hc hread
  rw [← hc] at hlater
  refine ⟨_, Checkpoint.claim_of_leaf hlater hread, ?_⟩
  unfold Checkpoint.claimOf Wei.monus
  rw [if_pos hle, BitVec.toNat_sub_of_le hle]

end Ledger

namespace Oracle

open Merkle (Digest)

/-- Of two ledgers of a run from a fresh one the later keeps all that the earlier has, as long as a
hundred times what came in fits into a word. So each leaf of the earlier tree is one of the later
tree, and its claim there, with the earlier balance paid out, is for the difference. -/
theorem later_ledger_grows {ε σ τ : Type} (h : Digest) (chain : Chain ε (StateM σ))
    (submitter : Option (Submitter ε (StateM σ))) {config : Config}
    (hpercent : config.feePercent.toNat ≤ 100) (checkpoints : SortedMap Hash Checkpoint)
    (latest submittedRoot : Option Hash) (first rest : List Slot) (w : σ) :
    let start : Oracle :=
      { config, ledger := .fresh config, checkpoints, latest, submittedRoot }
    let earlier := (processAll h chain submitter first start).run w
    let s := earlier.1.ledger
    let t := ((processAll h chain submitter rest earlier.1).run earlier.2).1.ledger
    100 * ((t.poolBlocks.map (·.reward.toNat)).sum + (t.donations.map (·.amount.toNat)).sum +
        (t.subscriptions.map (·.collateral.toNat)).sum) < 2 ^ 256 →
      s.Grows t ∧
      ∀ tree, s.claimTree h = .built tree → ∃ tree', t.claimTree h = .built tree' ∧
        ∀ a leaf, tree.leaves.find? a = some leaf →
          ∃ later, tree'.leaves.find? a = some later ∧ leaf.balance ≤ later.balance ∧
            ∀ (c : Checkpoint) (read : Address → StateM τ (Except ε Wei)) (v v' : τ),
              c.leaves = tree'.leaves → (read a).run v = (.ok leaf.balance, v') →
                ∃ claim, (c.claim a read).run v = (.ok (some claim), v') ∧
                  claim.claimable.toNat = later.balance.toNat - leaf.balance.toNat := by
  intro start earlier s t hfits
  obtain ⟨new, hmoved⟩ := moved_processAll (returns_run (processAll h chain submitter first start) w)
  obtain ⟨new', hmoved'⟩ :=
    moved_processAll (returns_run (processAll h chain submitter rest earlier.1) earlier.2)
  have hlogs : s.logs.plain = (Ledger.fresh config).logs.plain + new.plain :=
    Ledger.plain_of_moved hmoved
  have hlogs' : t.logs.plain = s.logs.plain + new'.plain := Ledger.plain_of_moved hmoved'
  have hfresh : (Ledger.fresh config).logs.plain = 0 := rfl
  have hinflow : 100 * (new.plain + new'.plain) < 2 ^ 256 := by
    change 100 * t.logs.plain < 2 ^ 256 at hfits
    omega
  obtain ⟨moves, hcourse, hbrought, -⟩ := hmoved
  obtain ⟨moves', hcourse', hbrought', -⟩ := hmoved'
  have hs := Ledger.Solvent.course hcourse (Ledger.solvent_fresh config) hpercent (by omega)
  have hpercent' : s.feePercent.toNat ≤ 100 := by
    have hkept := (Ledger.grows_course hs.1).feePercent
    rw [hkept]
    exact hpercent
  have ht := Ledger.Solvent.course hcourse' hs.2 hpercent' (by omega)
  have hgrows : s.Grows t := Ledger.grows_course ht.1
  have hheld : t.plainHeld = _ := ht.2.held
  have howed : t.validators.total (·.accumulated.toNat) + t.poolFees.toNat < 2 ^ 256 := by
    unfold Ledger.plainHeld at hheld
    omega
  exact ⟨hgrows, fun tree hbuilt => hgrows.claims howed hbuilt⟩

end Oracle

/-! In the slot after the subscription the same validator proposes, and the builder pays the pool. -/
namespace SubscribeCall

def payment : Transaction := { call with hash := .fill 0x0e, sender := .fill 0x66, value := 500 }

def rewarded : History :=
  { history with
    proposer := fun slot => if slot = 101 then 0 else 9
    block := fun slot =>
      if slot = 101 then
        some { block with slot := 101, proposer := 0, number := 1001, transactions := [payment] }
      else history.block slot }

theorem grows_by_reward :
    let chain : Chain Empty (StateM Unit) := rewarded.chain
    let start : Oracle :=
      { config, ledger := .fresh config, checkpoints := .empty, latest := none, submittedRoot := none }
    let earlier := (Oracle.processAll Keccak.digest chain none [100] start).run ()
    let s := earlier.1.ledger
    let t := ((Oracle.processAll Keccak.digest chain none [101] earlier.1).run earlier.2).1.ledger
    config.feePercent.toNat ≤ 100 ∧
      100 * ((t.poolBlocks.map (·.reward.toNat)).sum + (t.donations.map (·.amount.toNat)).sum +
        (t.subscriptions.map (·.collateral.toNat)).sum) < 2 ^ 256 ∧
      s.Grows t ∧ s.owed (.fill 0x10) = 1000 ∧ t.owed (.fill 0x10) = 1500 := by
  have hpercent : config.feePercent.toNat ≤ 100 := by decide
  have hgrows := Oracle.later_ledger_grows (τ := Unit) Keccak.digest
    (rewarded.chain : Chain Empty (StateM Unit)) none hpercent .empty none none [100] [101] ()
    (by decide)
  exact ⟨hpercent, by decide, hgrows.1, by decide, by decide⟩

end SubscribeCall

end RewardPool
