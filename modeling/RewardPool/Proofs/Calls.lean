import RewardPool.Oracle
import RewardPool.Proofs.Answers
import RewardPool.Proofs.Commitments
import RewardPool.Proofs.Composition

/-!
One call for a slot, taken apart in the world in which it is made. The call is refused, or the
reconciliation fails and nothing has changed, or the ledger is the reconciled one. After that only a
checkpoint can follow, and its submission is the only thing that can still fail. What is said here
of a call is all that can happen in it, the oracle afterwards included.
-/
namespace RewardPool

open Merkle (Digest)

variable {σ ε α β : Type}

/-- The failures that the reconciliation of a slot can end with. -/
def Failure.OfSlot (failure : Failure ε) : Prop :=
  (∃ f, failure = .fault f) ∨ ∃ e, failure = .provider e

namespace Reconcile

variable {config : Config} {chain : Chain ε (StateM σ)} {l l' : Ledger} {slot : Slot}

/-- A step that fails only as a slot may fail. -/
def FailsAsSlot (x : Step ε (StateM σ) α) : Prop :=
  ∀ failure, Returns x.run (.error failure) → failure.OfSlot

theorem failsAsSlot_pure (a : α) : FailsAsSlot (pure a : Step ε (StateM σ) α) := by
  intro failure h
  exact absurd (returns_pure h) (by simp)

theorem failsAsSlot_fault (f : Fault) :
    FailsAsSlot (throw (.fault f) : Step ε (StateM σ) α) := by
  intro failure h
  exact .inl ⟨f, Except.error.inj (returns_pure h)⟩

theorem failsAsSlot_bind {x : Step ε (StateM σ) α} {f : α → Step ε (StateM σ) β}
    (hx : FailsAsSlot x) (hf : ∀ a, FailsAsSlot (f a)) : FailsAsSlot (x >>= f) := by
  intro failure h
  rw [ExceptT.run_bind] at h
  obtain ⟨r, hr, h⟩ := returns_bind h
  cases r with
  | ok a => exact hf a failure h
  | error e =>
    obtain rfl : failure = e := Except.error.inj (returns_pure h)
    exact hx failure hr

theorem failsAsSlot_ask (question : StateM σ (Except ε α)) : FailsAsSlot (ask question) := by
  intro failure h
  obtain ⟨r, -, h⟩ := returns_bind h
  cases r with
  | ok a => exact absurd (returns_pure h) (by simp)
  | error e => exact .inr ⟨e, Except.error.inj (returns_pure h)⟩

theorem slot_fails {failure : Failure ε}
    (h : Returns (Reconcile.slot config chain l slot).run (.error failure)) : failure.OfSlot := by
  have hfails : Compositional chain chain fun _ x _ => FailsAsSlot x :=
    { pure := failsAsSlot_pure
      fault := failsAsSlot_fault
      bind := failsAsSlot_bind
      proposer := fun _ => failsAsSlot_ask _
      block := fun _ => failsAsSlot_ask _
      receipts := fun _ _ => failsAsSlot_ask _
      subscriptions := fun _ _ => failsAsSlot_ask _
      unsubscriptions := fun _ _ => failsAsSlot_ask _
      validator := fun _ _ => failsAsSlot_ask _ }
  exact hfails.slot config l slot failure h

/-- The report of a reconciliation leaves the checkpoint to be built. -/
theorem checkpoint_of_succeeds {report : SlotReport}
    (h : Succeeds (Reconcile.slot config chain l slot) (l', report)) :
    report.checkpoint = none := by
  unfold Reconcile.slot at h
  obtain ⟨proposer, -, h⟩ := succeeds_bind h
  obtain ⟨block, -, h⟩ := succeeds_bind h
  cases block with
  | none =>
    obtain ⟨settled, -, h⟩ := succeeds_bind h
    obtain ⟨-, rfl⟩ := Prod.mk.inj (succeeds_pure h)
    rfl
  | some b =>
    have hblock : Succeeds (settleBlock config chain l slot b) (l', report) := by
      dsimp only at h
      split at h
      · obtain ⟨_, hthrow, -⟩ := succeeds_bind h
        exact absurd hthrow not_succeeds_throw
      · exact h
    unfold settleBlock at hblock
    obtain ⟨reward, -, hblock⟩ := succeeds_bind hblock
    obtain ⟨settled, -, hblock⟩ := succeeds_bind hblock
    obtain ⟨events, -, hblock⟩ := succeeds_bind hblock
    obtain ⟨joined, -, hblock⟩ := succeeds_bind hblock
    obtain ⟨requests, -, hblock⟩ := succeeds_bind hblock
    obtain ⟨left, -, hblock⟩ := succeeds_bind hblock
    obtain ⟨-, rfl⟩ := Prod.mk.inj (succeeds_pure hblock)
    rfl

end Reconcile

namespace Oracle

variable {h : Digest} {chain : Chain ε (StateM σ)} {submitter : Option (Submitter ε (StateM σ))}
variable {o o' : Oracle} {slot : Slot} {w w' : σ}

/-- The ways in which a checkpoint can end. Wherever there is a tree its checkpoint is kept. -/
inductive Committed (h : Digest) (o : Oracle) (slot : Slot) :
    Except (Failure ε) (Option Checkpoint) → Oracle → Prop
  | tooFew (hfew : o.ledger.leaves.length < 2) : Committed h o slot (.ok none) o
  | kept {tree : ClaimTree} (hbuilt : o.ledger.claimTree h = .built tree) {c : Checkpoint}
      (hc : c = .ofTree slot o.ledger.latestBlock tree) :
      Committed h o slot (.ok (some c)) (o.keep c)
  | submitted {tree : ClaimTree} (hbuilt : o.ledger.claimTree h = .built tree) {c : Checkpoint}
      {transaction : Hash}
      (hc : c = { Checkpoint.ofTree slot o.ledger.latestBlock tree with
        transaction := some transaction }) :
      Committed h o slot (.ok (some c)) { o.keep c with submittedRoot := some c.root }
  | refused {tree : ClaimTree} (hbuilt : o.ledger.claimTree h = .built tree) {c : Checkpoint}
      (hc : c = .ofTree slot o.ledger.latestBlock tree) (failure : SubmissionFailure ε) :
      Committed h o slot (.error (.submission failure)) (o.keep c)

theorem commit_committed {r : Except (Failure ε) (Option Checkpoint)}
    (hr : Returns (o.commit h chain submitter slot) (r, o')) : Committed h o slot r o' := by
  unfold commit at hr
  split at hr
  · rename_i hfew
    obtain ⟨rfl, rfl⟩ := Prod.mk.inj (returns_pure hr)
    exact .tooFew (Ledger.claimTree_eq_notEnoughData_iff.mp hfew).1
  · rename_i tree hbuilt
    obtain ⟨submitted, -, hr⟩ := returns_bind hr
    rcases submitted with _ | failure | transaction
    all_goals
      obtain ⟨rfl, rfl⟩ := Prod.mk.inj (returns_pure hr)
    · exact .kept hbuilt rfl
    · exact .refused hbuilt rfl failure
    · exact .submitted hbuilt rfl

/-- A checkpoint touches neither the ledger nor the configuration. -/
theorem Committed.ledger_config {r : Except (Failure ε) (Option Checkpoint)}
    (hc : Committed h o slot r o') : o'.ledger = o.ledger ∧ o'.config = o.config := by
  cases hc with
  | tooFew hfew => exact ⟨rfl, rfl⟩
  | kept hbuilt hc => exact ⟨rfl, rfl⟩
  | submitted hbuilt hc => exact ⟨rfl, rfl⟩
  | refused hbuilt hc failure => exact ⟨rfl, rfl⟩

/-- Only the submission of a checkpoint can fail. -/
theorem Committed.result {r : Except (Failure ε) (Option Checkpoint)}
    (hc : Committed h o slot r o') : (∃ c, r = .ok c) ∨ ∃ f, r = .error (.submission f) := by
  cases hc with
  | tooFew hfew => exact .inl ⟨_, rfl⟩
  | kept hbuilt hc => exact .inl ⟨_, rfl⟩
  | submitted hbuilt hc => exact .inl ⟨_, rfl⟩
  | refused hbuilt hc failure => exact .inr ⟨failure, rfl⟩

/-- The ways in which a call for a slot can go, in the world in which it is made. -/
inductive Called (h : Digest) (chain : Chain ε (StateM σ))
    (submitter : Option (Submitter ε (StateM σ))) (o : Oracle) (slot : Slot) (w : σ) :
    Except (Failure ε) SlotReport → Oracle → σ → Prop
  | outOfOrder (hslot : slot ≠ o.nextSlot) :
      Called h chain submitter o slot w (.error (.fault (.slotOutOfOrder o.nextSlot slot))) o w
  | failed (hslot : slot = o.nextSlot) {failure : Failure ε} {w' : σ}
      (hfailed : (Reconcile.slot o.config chain o.ledger slot).run.run w = (.error failure, w')) :
      Called h chain submitter o slot w (.error failure) o w'
  | aborted (hslot : slot = o.nextSlot) {l : Ledger} {report : SlotReport} {w' : σ}
      (hdone : (Reconcile.slot o.config chain o.ledger slot).run.run w = (.ok (l, report), w'))
      (hdue : o.config.isCheckpointSlot? slot = none) :
      Called h chain submitter o slot w (.error .aborted) { o with ledger := l } w'
  | passed (hslot : slot = o.nextSlot) {l : Ledger} {report : SlotReport} {w' : σ}
      (hdone : (Reconcile.slot o.config chain o.ledger slot).run.run w = (.ok (l, report), w'))
      (hdue : o.config.isCheckpointSlot? slot = some false) :
      Called h chain submitter o slot w (.ok report) { o with ledger := l } w'
  | committed (hslot : slot = o.nextSlot) {l : Ledger} {report : SlotReport} {w₁ w' : σ}
      (hdone : (Reconcile.slot o.config chain o.ledger slot).run.run w = (.ok (l, report), w₁))
      (hdue : o.config.isCheckpointSlot? slot = some true)
      {r : Except (Failure ε) (Option Checkpoint)} {o' : Oracle}
      (hcommit : Committed h { o with ledger := l } slot r o') :
      Called h chain submitter o slot w (r.map fun checkpoint => { report with checkpoint }) o' w'

theorem processSlot_called {r : Except (Failure ε) SlotReport}
    (hrun : (o.processSlot h chain submitter slot).run w = ((r, o'), w')) :
    Called h chain submitter o slot w r o' w' := by
  unfold processSlot at hrun
  split at hrun
  · rename_i hslot
    obtain ⟨rfl, rfl, rfl⟩ := run_pure_cases hrun
    exact .outOfOrder hslot
  · rename_i hslot
    have hnext : slot = o.nextSlot := not_not.mp hslot
    obtain ⟨reconciled, w₁, hreconciled, hrest⟩ := run_bind_cases hrun
    rcases reconciled with failure | ⟨l, report⟩
    · obtain ⟨rfl, rfl, rfl⟩ := run_pure_cases hrest
      exact .failed hnext hreconciled
    · dsimp only at hrest
      split at hrest
      · rename_i hdue
        obtain ⟨rfl, rfl, rfl⟩ := run_pure_cases hrest
        exact .aborted hnext hreconciled hdue
      · rename_i hdue
        obtain ⟨rfl, rfl, rfl⟩ := run_pure_cases hrest
        exact .passed hnext hreconciled hdue
      · rename_i hdue
        obtain ⟨⟨committed, o₁⟩, w₂, hcommit, hend⟩ := run_bind_cases hrest
        have hcommitted := commit_committed (returns_of_run hcommit)
        cases committed with
        | error failure =>
          obtain ⟨rfl, rfl, rfl⟩ := run_pure_cases hend
          exact .committed hnext hreconciled hdue hcommitted
        | ok checkpoint =>
          obtain ⟨rfl, rfl, rfl⟩ := run_pure_cases hend
          exact .committed hnext hreconciled hdue hcommitted

theorem Called.config_eq {r : Except (Failure ε) SlotReport}
    (hcalled : Called h chain submitter o slot w r o' w') : o'.config = o.config := by
  cases hcalled with
  | outOfOrder hslot => rfl
  | failed hslot hfailed => rfl
  | aborted hslot hdone hdue => rfl
  | passed hslot hdone hdue => rfl
  | committed hslot hdone hdue hcommit => exact hcommit.ledger_config.2

end Oracle

end RewardPool
