import RewardPool.Proofs.Checkpoints

/-!
What becomes of the transaction that brought a root on the chain. A root that the contract is known
to hold is not handed over again, but its checkpoint is built anew at every checkpoint slot that finds
the same balances, and what is built takes the place of what was kept. So a checkpoint has the
transaction of the last call that built its root, and that call need not have sent one.
-/
namespace RewardPool

open Merkle (Digest)

namespace Oracle

variable {σ ε : Type} {h : Digest} {chain : Chain ε (StateM σ)}
variable {submitter : Option (Submitter ε (StateM σ))} {start o o' : Oracle} {root : Hash}
variable {before : List (Call ε)} {call : Call ε} {c : Checkpoint}

/-- Whether a call kept a checkpoint under a root. -/
def Call.keeps (config : Config) (root : Hash) (call : Call ε) : Bool :=
  call.builds config && call.after.latest = some root

/-- The checkpoint under a root is the one of the last call that kept one, with the transaction of
that call. Without such a call it is the one of the start. -/
def LastKept (h : Digest) (start : Oracle) (root : Hash) (calls : List (Call ε)) (o : Oracle) :
    Prop :=
  match (calls.filter (·.keeps start.config root)).getLast? with
  | none => o.checkpoint? root = start.checkpoint? root
  | some call =>
    ∃ c, o.checkpoint? root = some c ∧ call.Built h c ∧ c.transaction = call.transaction?

theorem LastKept.skip (hlast : LastKept h start root before o)
    (hkeeps : call.keeps start.config root = false)
    (hsame : o'.checkpoint? root = o.checkpoint? root) :
    LastKept h start root (before ++ [call]) o' := by
  have hcalls : (before ++ [call]).filter (·.keeps start.config root) =
      before.filter (·.keeps start.config root) := by
    simp [hkeeps]
  unfold LastKept at hlast ⊢
  rw [hcalls, hsame]
  exact hlast

theorem lastKept_keep (hkeeps : call.keeps start.config root = true)
    (hfound : o'.checkpoint? root = some c) (hbuilt : call.Built h c)
    (htransaction : c.transaction = call.transaction?) :
    LastKept h start root (before ++ [call]) o' := by
  have hcalls : ((before ++ [call]).filter (·.keeps start.config root)).getLast? = some call := by
    simp [hkeeps]
  unfold LastKept
  rw [hcalls]
  exact ⟨c, hfound, hbuilt, htransaction⟩

/-- The step of a run: a call that keeps a checkpoint under the root is the last one to do so. -/
theorem lastKept_of_called {slot : Slot} {w w' : σ} {r : Except (Failure ε) SlotReport}
    (hconfig : o.config = start.config) (hlast : LastKept h start root before o)
    (hcalled : Called h chain submitter o slot w r o' w') :
    LastKept h start root (before ++ [⟨slot, r, o'⟩]) o' := by
  rcases builds_cases hcalled with
    ⟨hbuilds, hcheckpoints, -⟩ | ⟨hbuilds, c, hbuilt, hcheckpoints, hlatest, htransaction⟩
  · refine hlast.skip ?_ ?_
    · rw [Call.keeps, ← hconfig, hbuilds, Bool.false_and]
    · rw [checkpoint?, hcheckpoints, checkpoint?]
  · have hfind : o'.checkpoint? root = if c.root = root then some c else o.checkpoint? root := by
      rw [checkpoint?, hcheckpoints, SortedMap.find?_insert, checkpoint?]
    have hkeeps : (⟨slot, r, o'⟩ : Call ε).keeps start.config root = decide (c.root = root) := by
      rw [Call.keeps, ← hconfig, hbuilds, hlatest, Bool.true_and]
      simp
    by_cases hroot : c.root = root
    · rw [if_pos hroot] at hfind
      exact lastKept_keep (by rw [hkeeps, decide_eq_true hroot]) hfind hbuilt htransaction
    · rw [if_neg hroot] at hfind
      exact hlast.skip (by rw [hkeeps, decide_eq_false hroot]) hfind

/-- In every run the checkpoint under a root is the one of the last call that built the root, and it
has the transaction that this very call sent, if it sent one. What an earlier call sent is kept by no
call that builds the root again. -/
theorem transaction_of_last_build (h : Digest) (chain : Chain ε (StateM σ))
    (submitter : Option (Submitter ε (StateM σ))) (start : Oracle) (slots : List Slot) (w : σ)
    (root : Hash) :
    let o := ((processAll h chain submitter slots start).run w).1
    let built := (calls h chain submitter slots start w).filter (·.keeps start.config root)
    match built.getLast? with
    | none => o.checkpoint? root = start.checkpoint? root
    | some call =>
      ∃ c, o.checkpoint? root = some c ∧ call.Built h c ∧ c.transaction = call.transaction? := by
  have hstep : ∀ before o slot w r o' w', o.config = start.config ∧ LastKept h start root before o →
      Called h chain submitter o slot w r o' w' →
      o'.config = start.config ∧
        LastKept h start root (before ++ [(⟨slot, r, o'⟩ : Call ε)]) o' := by
    rintro before o slot w r o' w' ⟨hconfig, hlast⟩ hcalled
    exact ⟨hcalled.config_eq.trans hconfig, lastKept_of_called hconfig hlast hcalled⟩
  have hstart : start.config = start.config ∧ LastKept h start root ([] : List (Call ε)) start :=
    ⟨rfl, rfl⟩
  have hrun := calls_induction
    (P := fun calls o => o.config = start.config ∧ LastKept h start root calls o)
    hstep hstart slots w
  exact hrun.2

/-- Where a checkpoint is due, a call comes to what the checkpoint comes to. -/
theorem processSlot_run_of_due {slot : Slot} {w w₁ w' : σ} {l : Ledger} {report : SlotReport}
    {r : Except (Failure ε) (Option Checkpoint)} (hslot : slot = o.nextSlot)
    (hdone : (Reconcile.slot o.config chain o.ledger slot).run.run w = (.ok (l, report), w₁))
    (hdue : o.config.isCheckpointSlot? slot = some true)
    (hcommit : (Oracle.commit h chain submitter { o with ledger := l } slot).run w₁ =
      ((r, o'), w')) :
    (o.processSlot h chain submitter slot).run w =
      ((r.map fun checkpoint => { report with checkpoint }, o'), w') := by
  unfold processSlot
  rw [if_neg (not_not.mpr hslot), run_bind_eq hdone]
  dsimp only
  rw [hdue, run_bind_eq hcommit]
  cases r with
  | error failure => rfl
  | ok checkpoint => rfl

end Oracle

/-! A chain that misses every slot leaves the balances as they are, so the root that was submitted at
one checkpoint slot is built again at the next. -/
namespace SameRoot

def oracle : Oracle :=
  { QuietChain.oracle with
    config := { QuietChain.oracle.config with checkpointSize := 1 }
    ledger := { TwoLeaves.ledger with latestSlot := some 100 } }

def submitter : Submitter Unit (StateM Unit) := ⟨.zero, fun _ => return .ok (.fill 0x42)⟩

def after (h : Digest) (slots : List Slot) : Oracle :=
  ((Oracle.processAll h RefusedRoot.chain (some submitter) slots oracle).run ()).1

variable {h : Digest} {tree : ClaimTree}

theorem find?_keep (o : Oracle) (c : Checkpoint) : (o.keep c).checkpoint? c.root = some c := by
  rw [Oracle.checkpoint?, Oracle.keep, SortedMap.find?_insert, if_pos rfl]

/-- The ledger after a slot that was missed. -/
def missed (slot : Slot) : Ledger := { oracle.ledger with latestSlot := some slot }

def checkpoint (slot : Slot) (tree : ClaimTree) : Checkpoint :=
  .ofTree slot oracle.ledger.latestBlock tree

def sent (slot : Slot) (tree : ClaimTree) : Checkpoint :=
  { checkpoint slot tree with transaction := some (.fill 0x42) }

def first (tree : ClaimTree) : Oracle :=
  { ({ oracle with ledger := missed 101 } : Oracle).keep (sent 101 tree) with
    submittedRoot := some tree.root }

def second (tree : ClaimTree) : Oracle := { first tree with ledger := missed 102 }

theorem after_first (hbuilt : (missed 101).claimTree h = .built tree) :
    after h [101] = first tree := by
  have hcommit : after h [101] =
      (Oracle.commit h RefusedRoot.chain (some submitter)
        { oracle with ledger := missed 101 } 101 ()).1.2 := rfl
  rw [hcommit, Oracle.commit, hbuilt]
  rfl

/-- The second slot finds the root submitted, and builds its checkpoint without a transaction. -/
theorem commit_second (hbuilt : (missed 101).claimTree h = .built tree) :
    Oracle.commit h RefusedRoot.chain (some submitter) (second tree) 102 =
      return (.ok (some (checkpoint 102 tree)), (second tree).keep (checkpoint 102 tree)) := by
  have hsame : (second tree).ledger.claimTree h = .built tree := hbuilt
  have hheld : (second tree).submittedRoot =
      some (Checkpoint.ofTree 102 (second tree).ledger.latestBlock tree).root := rfl
  unfold Oracle.commit
  rw [hsame]
  simp only [Oracle.submission, if_pos hheld]
  rfl

theorem after_second (hbuilt : (missed 101).claimTree h = .built tree) :
    after h [101, 102] = (second tree).keep (checkpoint 102 tree) := by
  have hsecond : after h [101, 102] =
      ((after h [101]).processSlot h RefusedRoot.chain (some submitter) 102 ()).1.2 := rfl
  have hdue : (first tree).config.isCheckpointSlot? 102 = some true :=
    show oracle.config.isCheckpointSlot? 102 = some true by decide
  have hrun := Oracle.processSlot_run_of_due rfl rfl hdue (congrFun (commit_second hbuilt) ())
  rw [hsecond, after_first hbuilt]
  exact congrArg (·.1.2) hrun

/-- The checkpoint of the root that was submitted is there after the next slot, but without the
transaction. -/
theorem submitted_transaction_is_forgotten :
    ∃ root, (after Keccak.digest [101]).latest = some root ∧
      ((after Keccak.digest [101]).checkpoint? root).map (·.transaction) =
        some (some (.fill 0x42)) ∧
      ((after Keccak.digest [101, 102]).checkpoint? root).map (·.transaction) = some none := by
  obtain ⟨proofs, hbuilt⟩ :=
    Ledger.claimTree_of_two Keccak.digest (l := missed 101) (by decide)
  refine ⟨_, congrArg Oracle.latest (after_first hbuilt), ?_, ?_⟩
  · rw [after_first hbuilt]
    exact congrArg (Option.map Checkpoint.transaction) (find?_keep _ _)
  · rw [after_second hbuilt]
    exact congrArg (Option.map Checkpoint.transaction) (find?_keep _ _)

end SameRoot

end RewardPool
