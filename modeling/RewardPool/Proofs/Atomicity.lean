import RewardPool.Proofs.Chronicles
import RewardPool.Proofs.ClaimBinding
import RewardPool.Proofs.Replay

/-!
A call for a slot is all or nothing. It leaves the oracle as it was and hands over no root, or it
replaces the ledger by the fully reconciled one. A submission that fails comes after that: the
checkpoint is kept then, without a transaction, and only the root the contract is known to hold
stays where it was. The roots that are handed to the submitter are recorded beside the world.
-/
namespace RewardPool

open Merkle (Digest)

/-- A submitter of which each root that is handed over is recorded, whatever comes of it. -/
def Submitter.recorded {σ ε : Type} (s : Submitter ε (StateM σ)) :
    Submitter ε (StateM (Chronicled σ Hash)) :=
  Chronicled.submitter (fun root _ => [root]) s

namespace Oracle

variable {σ ε : Type} {chain : Chain ε (StateM σ)} {o o' : Oracle} {slot : Slot} {w w₁ : σ}

/-- The slot was due, its reconciliation in this world went through, and the ledger is the one that
came out of it: every entry of an account that the chain gave of the slot is posted. -/
structure Settled (chain : Chain ε (StateM σ)) (o : Oracle) (slot : Slot) (w : σ) (o' : Oracle) :
    Prop where
  due : slot = o.nextSlot
  reconciled : ∃ report w', (Reconcile.slot o.config chain o.ledger slot).run.run w =
    (.ok (o'.ledger, report), w')
  posted : ∃ a : SlotAccount, a.Answered o.config chain slot ∧
    o.ledger.postAll o.config (a.entries slot) = .ok o'.ledger
  next : o'.nextSlot.toNat = slot.toNat + 1

theorem settled_of_run (hnext : o.nextSlot.toNat < 2 ^ 64 - 1) (hslot : slot = o.nextSlot)
    {report : SlotReport}
    (hdone : (Reconcile.slot o.config chain o.ledger slot).run.run w =
      (.ok (o'.ledger, report), w₁)) : o.Settled chain slot w o' where
  due := hslot
  reconciled := ⟨report, w₁, hdone⟩
  posted := Reconcile.slot_succeeds (returns_of_run hdone)
  next := by
    have hlatest := Reconcile.latestSlot_of_succeeds (returns_of_run hdone)
    have hsucc : o'.nextSlot = slot + 1 := by
      unfold nextSlot
      rw [hlatest]
    have hone : (1 : UInt64).toNat = 1 := rfl
    rw [hsucc, UInt64.toNat_add, hslot, hone]
    omega

/-- A call either changes nothing and hands over no root, or settles its slot as a whole; a failed
submission keeps the checkpoint of the settled ledger and forgets no root. -/
theorem processSlot_atomic (h : Digest) (chain : Chain ε (StateM σ))
    (submitter : Option (Submitter ε (StateM σ))) {o : Oracle}
    (hnext : o.nextSlot.toNat < 2 ^ 64 - 1) (hsize : o.config.checkpointSize ≠ 0) (slot : Slot)
    (w : Chronicled σ Hash) :
    let asked := (Chronicled.aside σ Hash).chain chain
    let call := (o.processSlot h asked (submitter.map Submitter.recorded) slot).run w
    let o' := call.1.2
    match call.1.1 with
    | .error (.submission _) =>
      o.Settled asked slot w o' ∧
        ∃ tree c, o'.ledger.claimTree h = .built tree ∧
          c = Checkpoint.ofTree slot o'.ledger.latestBlock tree ∧ c.transaction = none ∧
          o' = { o with
            ledger := o'.ledger
            checkpoints := o.checkpoints.insert tree.root c
            latest := some tree.root } ∧
          o'.latestCheckpoint? = some c
    | .error _ => o' = o ∧ call.2.record = w.record
    | .ok report =>
      o.Settled asked slot w o' ∧
        (report.checkpoint.isSome = true ↔
          o.config.isCheckpointSlot? slot = some true ∧ 2 ≤ o'.ledger.leaves.length) := by
  intro asked call o'
  have hcalled : Called h asked (submitter.map Submitter.recorded) o slot w call.1.1 o' call.2 :=
    processSlot_called rfl
  have hquiet : asked.Quiet Chronicled.record := Chronicled.quiet_aside chain
  clear_value o'
  generalize call.1.1 = r at hcalled ⊢
  generalize call.2 = w' at hcalled ⊢
  cases hcalled with
  | outOfOrder hslot => exact ⟨rfl, rfl⟩
  | failed hslot hfailed =>
    have hrecord := (Reconcile.slot_keeps hquiet _ _ _).eq hfailed
    rcases Reconcile.slot_fails (returns_of_run hfailed) with ⟨f, rfl⟩ | ⟨e, rfl⟩
    · exact ⟨rfl, hrecord⟩
    · exact ⟨rfl, hrecord⟩
  | aborted hslot hdone hdue => exact absurd hdue (Config.isCheckpointSlot?_ne_none hsize slot)
  | passed hslot hdone hdue =>
    have hnone := Reconcile.checkpoint_of_succeeds (returns_of_run hdone)
    exact ⟨settled_of_run hnext hslot hdone, by simp [hnone, hdue]⟩
  | committed hslot hdone hdue hcommit =>
    cases hcommit with
    | tooFew hfew =>
      refine ⟨settled_of_run hnext hslot hdone, ?_⟩
      constructor
      · intro hsome
        exact absurd hsome (by simp)
      · intro htwo
        have hleaves := htwo.2
        omega
    | kept hbuilt hc | submitted hbuilt hc =>
      have htwo := (Ledger.claimTree_eq_built_iff.mp hbuilt).1
      exact ⟨settled_of_run hnext hslot hdone, fun _ => ⟨hdue, htwo⟩, fun _ => rfl⟩
    | refused hbuilt hc failure =>
      subst hc
      refine ⟨settled_of_run hnext hslot hdone, _, _, hbuilt, rfl, rfl, rfl, ?_⟩
      simp [latestCheckpoint?, checkpoint?, keep, SortedMap.find?_insert]

end Oracle

/-! The tree of a checkpoint slot that nobody proposed a block for is built, and its root refused. -/
namespace RefusedRoot

def oracle : Oracle :=
  { QuietChain.oracle with ledger := { TwoLeaves.ledger with latestSlot := some 109 } }

def chain : Chain Unit (StateM Unit) :=
  { QuietChain.history.chain with whitelisted := fun _ _ => return .ok true }

def submitter : Submitter Unit (StateM Unit) := ⟨.zero, fun _ => return .error ()⟩

theorem refused_root_is_kept :
    let asked := (Chronicled.aside Unit Hash).chain chain
    let call := (oracle.processSlot Keccak.digest asked (some submitter.recorded) 110).run ⟨(), []⟩
    let o' := call.1.2
    oracle.nextSlot.toNat < 2 ^ 64 - 1 ∧ oracle.config.checkpointSize ≠ 0 ∧
      call.1.1 = .error (.submission (.refused ())) ∧
      oracle.Settled asked 110 ⟨(), []⟩ o' ∧
      ∃ tree c, o'.ledger.claimTree Keccak.digest = .built tree ∧
        c = Checkpoint.ofTree 110 o'.ledger.latestBlock tree ∧ c.transaction = none ∧
        o' = { oracle with
          ledger := o'.ledger
          checkpoints := oracle.checkpoints.insert tree.root c
          latest := some tree.root } ∧
        o'.latestCheckpoint? = some c := by
  have hnext : oracle.nextSlot.toNat < 2 ^ 64 - 1 := by decide
  have hsize : oracle.config.checkpointSize ≠ 0 := by decide
  exact ⟨hnext, hsize, rfl, Oracle.processSlot_atomic Keccak.digest chain (some submitter) hnext
    hsize 110 ⟨(), []⟩⟩

end RefusedRoot

end RewardPool
