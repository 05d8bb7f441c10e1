import RewardPool.Proofs.Checkpoints
import RewardPool.Proofs.Observations
import RewardPool.Proofs.Pairings

/-!
Two oracles for one pool. They hear the same about the chain, but what each of them submits, whether
it is listed, and what it knew of earlier roots is its own affair. Nothing of that reaches a ledger,
so the two keep the same books and build the same checkpoints, even where one of them fails to submit
a root and the other does not. The worlds of the two are compared by what the chain's answers depend
on; a submission may change anything else.
-/
namespace RewardPool

open Merkle (Digest)

variable {σ τ ω ε α β : Type} {g : σ → ω} {g' : τ → ω}

/-- Where the two worlds look the same before, the two computations come to the same, and the worlds
look the same after. -/
def Alike (g : σ → ω) (g' : τ → ω) (x : StateM σ α) (y : StateM τ α) : Prop :=
  ∀ w v, g w = g' v → (x.run w).1 = (y.run v).1 ∧ g (x.run w).2 = g' (y.run v).2

theorem alike_pure (a : α) : Alike g g' (pure a : StateM σ α) (pure a) :=
  fun _ _ hsame => ⟨rfl, hsame⟩

theorem alike_bind {x : StateM σ α} {y : StateM τ α} {f : α → StateM σ β} {f' : α → StateM τ β}
    (hx : Alike g g' x y) (hf : ∀ a, Alike g g' (f a) (f' a)) :
    Alike g g' (x >>= f) (y >>= f') := by
  intro w v hsame
  obtain ⟨⟨a, w₁⟩, hxrun⟩ : ∃ p, x.run w = p := ⟨_, rfl⟩
  obtain ⟨⟨b, v₁⟩, hyrun⟩ : ∃ p, y.run v = p := ⟨_, rfl⟩
  have hfirst := hx w v hsame
  rw [hxrun, hyrun] at hfirst
  obtain ⟨rfl, hafter⟩ := hfirst
  rw [run_bind_eq hxrun, run_bind_eq hyrun]
  exact hf a w₁ v₁ hafter

def Pairing.alike (g : σ → ω) (g' : τ → ω) : Pairing (StateM σ) (StateM τ) where
  Paired := Alike g g'
  pure := alike_pure
  bind := alike_bind

/-- Two chains that give the same answers. Who is listed is left out. -/
structure Chain.Alike (g : σ → ω) (g' : τ → ω) (chain : Chain ε (StateM σ))
    (chain' : Chain ε (StateM τ)) : Prop where
  proposer : ∀ slot, RewardPool.Alike g g' (chain.proposer slot) (chain'.proposer slot)
  block : ∀ slot, RewardPool.Alike g g' (chain.block slot) (chain'.block slot)
  receipts : ∀ number hashes,
    RewardPool.Alike g g' (chain.receipts number hashes) (chain'.receipts number hashes)
  subscriptions : ∀ first last,
    RewardPool.Alike g g' (chain.subscriptions first last) (chain'.subscriptions first last)
  unsubscriptions : ∀ first last,
    RewardPool.Alike g g' (chain.unsubscriptions first last) (chain'.unsubscriptions first last)
  validator : ∀ i slot, RewardPool.Alike g g' (chain.validator i slot) (chain'.validator i slot)

/-- Looking up a listing and submitting a root change nothing that the answers depend on. -/
structure Chain.Discreet (g : σ → ω) (chain : Chain ε (StateM σ))
    (submitter : Option (Submitter ε (StateM σ))) : Prop where
  whitelisted : ∀ block address, Keeps g (chain.whitelisted block address)
  submit : ∀ s ∈ submitter, ∀ root, Keeps g (s.submit root)

theorem Reconcile.slot_alike {chain : Chain ε (StateM σ)} {chain' : Chain ε (StateM τ)}
    (hchains : chain.Alike g g' chain') (config : Config) (l : Ledger) (slot : Slot) :
    Alike g g' (Reconcile.slot config chain l slot).run (Reconcile.slot config chain' l slot).run := by
  have hasks : (Pairing.alike g g').Asks chain chain' :=
    { block := hchains.block
      proposer := hchains.proposer
      receipts := hchains.receipts
      subscriptions := hchains.subscriptions
      unsubscriptions := hchains.unsubscriptions
      validator := hchains.validator }
  exact Pairing.slot hasks config l slot

/-- What a checkpoint says, apart from the transaction that its oracle sent. -/
def Checkpoint.unsent (c : Checkpoint) : Checkpoint := { c with transaction := none }

namespace Oracle

variable {h : Digest} {chain : Chain ε (StateM σ)} {chain' : Chain ε (StateM τ)}
variable {submitter : Option (Submitter ε (StateM σ))}
variable {submitter' : Option (Submitter ε (StateM τ))} {o o' : Oracle} {slot : Slot} {w : σ} {v : τ}

structure SameBooks (o o' : Oracle) : Prop where
  config : o.config = o'.config
  ledger : o.ledger = o'.ledger

/-- The reconciliation settles what becomes of the ledger, and whether a checkpoint is built. -/
def outlook (o : Oracle) (slot : Slot) : Except (Failure ε) (Ledger × SlotReport) → Ledger × Bool
  | .ok (l, _) =>
    if slot = o.nextSlot then
      (l, o.config.isCheckpointSlot? slot = some true ∧ 2 ≤ l.leaves.length)
    else (o.ledger, false)
  | .error _ => (o.ledger, false)

theorem SameBooks.nextSlot_eq (hbooks : o.SameBooks o') : o.nextSlot = o'.nextSlot := by
  unfold nextSlot
  rw [hbooks.config, hbooks.ledger]

theorem SameBooks.outlook_eq (hbooks : o.SameBooks o') (slot : Slot)
    (r : Except (Failure ε) (Ledger × SlotReport)) : o.outlook slot r = o'.outlook slot r := by
  unfold outlook
  rw [hbooks.nextSlot_eq, hbooks.config, hbooks.ledger]

theorem Called.outlook_eq {w' : σ} {r : Except (Failure ε) SlotReport}
    (hcalled : Called h chain submitter o slot w r o' w') :
    (o'.ledger, (⟨slot, r, o'⟩ : Call ε).builds o.config) =
      o.outlook slot ((Reconcile.slot o.config chain o.ledger slot).run.run w).1 := by
  cases hcalled with
  | outOfOrder hslot =>
    rcases ((Reconcile.slot o.config chain o.ledger slot).run.run w).1 with failure | ⟨l, report⟩
    · rfl
    · exact (if_neg hslot).symm
  | failed hslot hfailed =>
    rw [hfailed]
    rcases Reconcile.slot_fails (returns_of_run hfailed) with ⟨f, rfl⟩ | ⟨e, rfl⟩
    · rfl
    · rfl
  | aborted hslot hdone hdue =>
    rw [hdone]
    simp [outlook, Call.builds, ← hslot, hdue]
  | passed hslot hdone hdue =>
    rw [hdone]
    simp [outlook, Call.builds, ← hslot, hdue]
  | committed hslot hdone hdue hcommit =>
    rw [hdone]
    have hledger := hcommit.ledger_config.1
    rcases hcommit.result with ⟨c, rfl⟩ | ⟨f, rfl⟩
    · simp [outlook, Call.builds, ← hslot, hdue, hledger, Except.map]
    · simp [outlook, Call.builds, ← hslot, hdue, hledger, Except.map]

inductive Records (o o' : Oracle) : Option Checkpoint → Prop
  | nothing (hcheckpoints : o'.checkpoints = o.checkpoints) (hlatest : o'.latest = o.latest) :
      Records o o' none
  | checkpoint {c : Checkpoint} (hcheckpoints : o'.checkpoints = o.checkpoints.insert c.root c)
      (hlatest : o'.latest = some c.root) : Records o o' (some c)

theorem Called.records {w' : σ} {r : Except (Failure ε) SlotReport}
    (hcalled : Called h chain submitter o slot w r o' w') :
    let built := (⟨slot, r, o'⟩ : Call ε).builds o.config
    ∃ record, Records o o' record ∧ (record.isSome ↔ built) ∧ (∀ c ∈ record, c.slot = slot) ∧
      record.map (·.unsent) =
        if built then some (.ofTree slot o'.ledger.latestBlock (o'.ledger.commitment h)) else none := by
  intro built
  rcases builds_cases hcalled with
    ⟨hbuilds, hcheckpoints, hlatest⟩ | ⟨hbuilds, c, hbuilt, hcheckpoints, hlatest, -⟩
  · refine ⟨none, .nothing hcheckpoints hlatest, ?_, by simp, ?_⟩
    · simp [built, hbuilds]
    · simp [built, hbuilds]
  · obtain ⟨tree, htree, hc⟩ := hbuilt
    obtain ⟨-, rfl⟩ := Ledger.claimTree_eq_built_iff.mp htree
    refine ⟨some c, .checkpoint hcheckpoints hlatest, ?_, ?_, ?_⟩
    · simp [built, hbuilds]
    · rintro c' ⟨⟩
      rw [hc]
      rfl
    · rw [Option.map_some, if_pos hbuilds]
      exact congrArg (some ∘ Checkpoint.unsent) hc

/-- Once a slot is reconciled, what is left of the call goes unobserved. -/
theorem processSlot_observed (hdiscreet : chain.Discreet g submitter) :
    g ((o.processSlot h chain submitter slot).run w).2 =
      if slot = o.nextSlot then
        g ((Reconcile.slot o.config chain o.ledger slot).run.run w).2
      else g w := by
  unfold processSlot
  by_cases hslot : slot = o.nextSlot
  · rw [if_neg (not_not.mpr hslot), if_pos hslot]
    obtain ⟨⟨r, w₁⟩, hrun⟩ : ∃ p, (Reconcile.slot o.config chain o.ledger slot).run.run w = p :=
      ⟨_, rfl⟩
    rw [run_bind_eq hrun, hrun]
    rcases r with failure | ⟨l, report⟩
    · rfl
    · dsimp only
      split
      · rfl
      · rfl
      · refine keeps_bind ?_ (fun committed => ?_) w₁
        · exact sequential_keeps.commit hdiscreet.whitelisted hdiscreet.submit h _ slot
        · rcases committed with ⟨failure | checkpoint, o'⟩
          all_goals exact keeps_pure _
  · rw [if_pos hslot, if_neg hslot]
    rfl

/-- The step of two runs: a call for one slot on the same books, in worlds that look the same. -/
theorem SameBooks.step (hbooks : o.SameBooks o') (hchains : chain.Alike g g' chain')
    (hleft : chain.Discreet g submitter) (hright : chain'.Discreet g' submitter')
    (hsame : g w = g' v) (slot : Slot) :
    let call := (o.processSlot h chain submitter slot).run w
    let call' := (o'.processSlot h chain' submitter' slot).run v
    call.1.2.SameBooks call'.1.2 ∧ g call.2 = g' call'.2 ∧
      (⟨slot, call.1.1, call.1.2⟩ : Call ε).builds o.config =
        (⟨slot, call'.1.1, call'.1.2⟩ : Call ε).builds o'.config := by
  intro call call'
  have hcalled : Called h chain submitter o slot w call.1.1 call.1.2 call.2 :=
    processSlot_called rfl
  have hcalled' : Called h chain' submitter' o' slot v call'.1.1 call'.1.2 call'.2 :=
    processSlot_called rfl
  obtain ⟨hresult, hworlds⟩ := Reconcile.slot_alike hchains o.config o.ledger slot w v hsame
  have houtlook := hcalled.outlook_eq
  rw [hresult, hbooks.outlook_eq, hbooks.config, hbooks.ledger, ← hcalled'.outlook_eq] at houtlook
  obtain ⟨hledger, hbuilds⟩ := Prod.mk.inj houtlook
  have hafter : g call.2 = g' call'.2 := by
    rw [processSlot_observed hleft, processSlot_observed hright, hworlds, hsame, hbooks.nextSlot_eq,
      hbooks.config, hbooks.ledger]
  have hconfig : call.1.2.config = call'.1.2.config := by
    rw [hcalled.config_eq, hcalled'.config_eq, hbooks.config]
  exact ⟨⟨hconfig, hledger⟩, hafter, hbooks.config ▸ hbuilds⟩

/-- What one call preserves, the calls for all slots preserve. -/
theorem SameBooks.run (hchains : chain.Alike g g' chain') (hleft : chain.Discreet g submitter)
    (hright : chain'.Discreet g' submitter') (slots : List Slot) (hbooks : o.SameBooks o')
    (hsame : g w = g' v) :
    let end₁ := (processAll h chain submitter slots o).run w
    let end₂ := (processAll h chain' submitter' slots o').run v
    end₁.1.SameBooks end₂.1 ∧ g end₁.2 = g' end₂.2 := by
  induction slots generalizing o o' w v with
  | nil => exact ⟨hbooks, hsame⟩
  | cons slot rest ih =>
    obtain ⟨hafter, hworlds, -⟩ := hbooks.step (h := h) hchains hleft hright hsame slot
    exact ih hafter hworlds

/-- Two oracles of one pool that start with the same books have the same books after every call, and
at every slot both record the same checkpoint, up to the transaction, or neither records one. -/
theorem instances_agree (h : Digest) (hchains : chain.Alike g g' chain')
    (hleft : chain.Discreet g submitter) (hright : chain'.Discreet g' submitter')
    (hbooks : o.SameBooks o') (hsame : g w = g' v) (slots : List Slot) (slot : Slot) :
    let before := (processAll h chain submitter slots o).run w
    let before' := (processAll h chain' submitter' slots o').run v
    let call := (before.1.processSlot h chain submitter slot).run before.2
    let call' := (before'.1.processSlot h chain' submitter' slot).run before'.2
    call.1.2.ledger = call'.1.2.ledger ∧
      ∃ record record', Records before.1 call.1.2 record ∧ Records before'.1 call'.1.2 record' ∧
        record.map (·.unsent) = record'.map (·.unsent) ∧
        (record.isSome ↔ (⟨slot, call.1.1, call.1.2⟩ : Call ε).builds o.config) ∧
        ∀ c ∈ record, c.slot = slot := by
  intro before before' call call'
  obtain ⟨hbefore, hworlds⟩ := hbooks.run (h := h) hchains hleft hright slots hsame
  obtain ⟨hafter, -, hbuilds⟩ := hbefore.step (h := h) hchains hleft hright hworlds slot
  have hcalled : Called h chain submitter before.1 slot before.2 call.1.1 call.1.2 call.2 :=
    processSlot_called rfl
  have hcalled' : Called h chain' submitter' before'.1 slot before'.2 call'.1.1 call'.1.2 call'.2 :=
    processSlot_called rfl
  obtain ⟨record, hrecord, hbuilt, hslot, hunsent⟩ := hcalled.records
  obtain ⟨record', hrecord', -, -, hunsent'⟩ := hcalled'.records
  have hagree : record.map (·.unsent) = record'.map (·.unsent) := by
    rw [hunsent, hunsent', hbuilds, hafter.ledger]
  have hconfig : before.1.config = o.config := config_processAll h chain submitter slots o w
  rw [hconfig] at hbuilt
  exact ⟨hafter.ledger, record, record', hrecord, hrecord', hagree, hbuilt, hslot⟩

end Oracle

/-! One oracle has its root refused, the other one has nobody to submit it. -/
namespace RefusedRoot

def unlisted : Chain Unit (StateM Unit) := QuietChain.history.chain

theorem refused_and_unsubmitted_agree :
    let call := (oracle.processSlot Keccak.digest chain (some submitter) 110).run ()
    let call' := (oracle.processSlot Keccak.digest unlisted none 110).run ()
    call.1.1 = .error (.submission (.refused ())) ∧ call'.1.1.isOk = true ∧
      call.1.2.ledger = call'.1.2.ledger ∧
      ∃ record record', oracle.Records call.1.2 record ∧ oracle.Records call'.1.2 record' ∧
        record.map (·.unsent) = record'.map (·.unsent) ∧
        (record.isSome ↔ (⟨110, call.1.1, call.1.2⟩ : Oracle.Call Unit).builds oracle.config) ∧
        ∀ c ∈ record, c.slot = 110 := by
  have hchains : chain.Alike (fun w : Unit => w) (fun w : Unit => w) unlisted :=
    { proposer := fun _ => alike_pure _
      block := fun _ => alike_pure _
      receipts := fun _ _ => alike_pure _
      subscriptions := fun _ _ => alike_pure _
      unsubscriptions := fun _ _ => alike_pure _
      validator := fun _ _ => alike_pure _ }
  have hleft : chain.Discreet (fun w : Unit => w) (some submitter) :=
    ⟨fun _ _ _ => rfl, fun _ _ _ _ => rfl⟩
  have hright : unlisted.Discreet (fun w : Unit => w) none :=
    ⟨fun _ _ _ => rfl, fun _ _ _ _ => rfl⟩
  exact ⟨rfl, rfl, Oracle.instances_agree Keccak.digest hchains hleft hright ⟨rfl, rfl⟩ rfl [] 110⟩

end RefusedRoot

end RewardPool
