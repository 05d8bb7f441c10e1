import RewardPool.Proofs.Erasures
import RewardPool.Proofs.Submissions

/-!
How roots are handed over, in a world where that is overheard. A call asks for the whitelist and hands
over a root only after its slot was processed, and only if the slot owes a root: a tree was built at a
checkpoint slot, and its root is not the one that the contract is known to hold. So the roots that
were handed over with success never repeat the one before, and the last of them is the root that the
contract is known to hold. To overhear changes nothing.
-/
namespace RewardPool

open Merkle (Digest)

/-- What can be overheard of the handing over of a root, with the answer. -/
inductive Handover (ε : Type) where
  | lookup (block : BlockNumber) (address : Address) (answer : Except ε Bool)
  | submission (root : Hash) (answer : Except ε Hash)

namespace Handover

variable {ε : Type}

def isSubmission : Handover ε → Bool
  | lookup .. => false
  | submission .. => true

/-- The root that was submitted, if that went well. -/
def submitted? : Handover ε → Option Hash
  | submission root (.ok _) => some root
  | submission _ (.error _) | lookup .. => none

end Handover

/-- A chain whose answers about the whitelist are overheard. -/
def Chain.overheard {σ ε : Type} (c : Chain ε (StateM σ)) :
    Chain ε (StateM (Chronicled σ (Handover ε))) :=
  { (Chronicled.aside σ (Handover ε)).chain c with
    whitelisted := fun block address =>
      Chronicled.recording (c.whitelisted block address) fun answer =>
        [.lookup block address answer] }

def Submitter.overheard {σ ε : Type} (s : Submitter ε (StateM σ)) :
    Submitter ε (StateM (Chronicled σ (Handover ε))) :=
  Chronicled.submitter (fun root answer => [.submission root answer]) s

theorem Chain.erasing_overheard {σ ε : Type} (c : Chain ε (StateM σ)) :
    (Chronicled.erasing σ (Handover ε)).Chains c.overheard c :=
  { Chronicled.erasing_chain c with
    whitelisted := fun _ _ => Chronicled.erasing_recording _ _ }

theorem Submitter.erasing_overheard {σ ε : Type} (s : Submitter ε (StateM σ)) :
    (Chronicled.erasing σ (Handover ε)).Submits s.overheard s :=
  Chronicled.erasing_submitter _ s

/-- Nothing of what is asked about a slot is overheard. -/
theorem Reconcile.overhears_nothing {σ ε : Type} {c : Chain ε (StateM σ)} {config : Config}
    {l : Ledger} {slot : Slot} {r : Except (Failure ε) (Ledger × SlotReport)}
    {w w' : Chronicled σ (Handover ε)}
    (h : (Reconcile.slot config c.overheard l slot).run.run w = (r, w')) :
    w'.record = w.record := by
  have hquiet : c.overheard.Quiet Chronicled.record := { Chronicled.quiet_aside c with }
  exact (Reconcile.slot_keeps hquiet config l slot).eq h

/-- Whether a slot is one at which roots are built. -/
def Config.Due (config : Config) (slot : Slot) : Prop :=
  config.deployedSlot.toNat < slot.toNat ∧
    config.checkpointSize.toNat ∣ slot.toNat - config.deployedSlot.toNat

theorem Config.due_iff {config : Config} {slot : Slot} :
    config.Due slot ↔ config.isCheckpointSlot? slot = some true := by
  unfold Due isCheckpointSlot?
  by_cases hle : slot ≤ config.deployedSlot
  · have hnot : ¬ config.deployedSlot.toNat < slot.toNat :=
      Nat.not_lt.mpr (UInt64.le_iff_toNat_le.mp hle)
    simp [hle, hnot]
  · have hlt : config.deployedSlot.toNat < slot.toNat :=
      Nat.not_le.mp (mt UInt64.le_iff_toNat_le.mpr hle)
    have hsub : (slot - config.deployedSlot).toNat = slot.toNat - config.deployedSlot.toNat :=
      UInt64.toNat_sub_of_le _ _ (UInt64.le_iff_toNat_le.mpr (Nat.le_of_lt hlt))
    rw [if_neg hle]
    by_cases hzero : config.checkpointSize = 0
    · have hnat : config.checkpointSize.toNat = 0 := by
        rw [hzero]
        rfl
      rw [if_pos hzero, hnat, zero_dvd_iff]
      constructor
      · rintro ⟨-, hsame⟩
        omega
      · intro hnone
        exact absurd hnone (by simp)
    · rw [if_neg hzero, Option.some.injEq, decide_eq_true_iff, ← UInt64.toNat_inj,
        UInt64.toNat_mod, hsub]
      exact ⟨fun h => Nat.mod_eq_zero_of_dvd h.2, fun h => ⟨hlt, Nat.dvd_of_mod_eq_zero h⟩⟩

namespace Oracle

variable {σ ε : Type} {h : Digest} {chain : Chain ε (StateM σ)} {s : Submitter ε (StateM σ)}
variable {o o' : Oracle} {slot : Slot}

/-- Whether a call processed its slot; a submission that fails comes after that. -/
def Call.processed (call : Call ε) : Bool :=
  match call.result with
  | .ok _ | .error (.submission _) => true
  | .error _ => false

/-- One call of a run, with the oracle before it and what was overheard in it. -/
structure Turn (ε : Type) extends Call ε where
  before : Oracle
  handovers : List (Handover ε)

def turns (h : Digest) (chain : Chain ε (StateM σ)) (s : Submitter ε (StateM σ)) :
    List Slot → Oracle → σ → List (Turn ε)
  | [], _, _ => []
  | slot :: rest, o, w =>
    let ((result, after), w') :=
      (o.processSlot h chain.overheard (some s.overheard) slot).run ⟨w, []⟩
    { slot, result, after, before := o, handovers := w'.record } ::
      turns h chain s rest after w'.world

namespace Turn

/-- Whether a turn ought to hand over a root: it built a tree of that root at a checkpoint slot, and
the contract was not known to hold the root. -/
structure Owes (h : Digest) (config : Config) (root : Hash) (t : Turn ε) : Prop where
  processed : t.processed = true
  due : config.Due t.slot
  built : ∃ tree, t.after.ledger.claimTree h = .built tree ∧ tree.root = root
  new : t.before.submittedRoot ≠ some root

/-- The look-up of a turn: the submitter as of the latest block of its ledger. -/
def lookup (config : Config) (address : Address) (answer : Except ε Bool) (t : Turn ε) :
    Handover ε :=
  .lookup (t.after.ledger.latestBlock.getD config.deployedBlock) address answer

/-- All that can be overheard in a turn, and what it makes of the root that the contract is known to
hold. -/
inductive Overhears (h : Digest) (config : Config) (address : Address) (t : Turn ε) : Prop
  | nothing (howes : ∀ root, ¬ t.Owes h config root) (hheard : t.handovers = [])
      (hroot : t.after.submittedRoot = t.before.submittedRoot)
  | unlisted {root : Hash} (howes : t.Owes h config root) (answer : Except ε Bool)
      (hanswer : answer ≠ .ok true) (hheard : t.handovers = [t.lookup config address answer])
      (hroot : t.after.submittedRoot = t.before.submittedRoot)
  | refused {root : Hash} (howes : t.Owes h config root) (e : ε)
      (hheard : t.handovers =
        [t.lookup config address (.ok true), .submission root (.error e)])
      (hroot : t.after.submittedRoot = t.before.submittedRoot)
  | accepted {root : Hash} (howes : t.Owes h config root) (transaction : Hash)
      (hheard : t.handovers =
        [t.lookup config address (.ok true), .submission root (.ok transaction)])
      (hroot : t.after.submittedRoot = some root)

end Turn

/-- What becomes of a root that the contract is not known to hold, and what can be overheard of it. -/
inductive Offered (o : Oracle) (c : Checkpoint) (address : Address) :
    Option (Except (SubmissionFailure ε) Hash) → List (Handover ε) → Prop
  | unlisted (answer : Except ε Bool) (hanswer : answer ≠ .ok true)
      {r : Option (Except (SubmissionFailure ε) Hash)} (hr : ∀ transaction, r ≠ some (.ok transaction)) :
      Offered o c address r [.lookup (c.block.getD o.config.deployedBlock) address answer]
  | refused (e : ε) :
      Offered o c address (some (.error (.refused e)))
        [.lookup (c.block.getD o.config.deployedBlock) address (.ok true),
          .submission c.root (.error e)]
  | accepted (transaction : Hash) :
      Offered o c address (some (.ok transaction))
        [.lookup (c.block.getD o.config.deployedBlock) address (.ok true),
          .submission c.root (.ok transaction)]

theorem submission_of_held {m : Type → Type} [Monad m] (chain : Chain ε m) (s : Submitter ε m)
    {c : Checkpoint} (hheld : o.submittedRoot = some c.root) :
    o.submission chain (some s) c = pure none := by
  unfold submission
  dsimp only
  rw [if_pos hheld]

theorem offered_of_new {c : Checkpoint} {r : Option (Except (SubmissionFailure ε) Hash)}
    {w w' : Chronicled σ (Handover ε)} (hnew : o.submittedRoot ≠ some c.root) (hnothing : w.record = [])
    (hrun : (o.submission chain.overheard (some s.overheard) c).run w = (r, w')) :
    Offered o c s.address r w'.record := by
  unfold submission at hrun
  dsimp only at hrun
  rw [if_neg hnew] at hrun
  obtain ⟨answer, w₁, hlookup, hrest⟩ := run_bind_cases hrun
  have hlookup' : w₁.record =
      [.lookup (c.block.getD o.config.deployedBlock) s.address answer] := by
    rw [← (Prod.mk.inj hlookup).2, ← (Prod.mk.inj hlookup).1]
    exact congrArg (· ++ _) hnothing
  rcases answer with e | _ | _
  · obtain ⟨rfl, rfl⟩ := Prod.mk.inj hrest
    rw [hlookup']
    exact .unlisted _ (by simp) (by simp)
  · obtain ⟨rfl, rfl⟩ := Prod.mk.inj hrest
    rw [hlookup']
    exact .unlisted _ (by simp) (by simp)
  · obtain ⟨submitted, w₂, hsubmit, hend⟩ := run_bind_cases hrest
    have hsubmit' : w₂.record = w₁.record ++ [.submission c.root submitted] := by
      rw [← (Prod.mk.inj hsubmit).2, ← (Prod.mk.inj hsubmit).1]
    rw [hlookup'] at hsubmit'
    cases submitted with
    | error e =>
      obtain ⟨rfl, rfl⟩ := Prod.mk.inj hend
      rw [hsubmit']
      exact .refused e
    | ok transaction =>
      obtain ⟨rfl, rfl⟩ := Prod.mk.inj hend
      rw [hsubmit']
      exact .accepted transaction

theorem overhears_of_commit {l : Ledger} {report : SlotReport} {w w' : Chronicled σ (Handover ε)}
    {r : Except (Failure ε) (Option Checkpoint)} (hdue : o.config.Due slot)
    (hnothing : w.record = [])
    (hcommit : (Oracle.commit h chain.overheard (some s.overheard)
      { o with ledger := l } slot).run w = ((r, o'), w')) :
    Turn.Overhears h o.config s.address
      { slot, result := r.map fun checkpoint => { report with checkpoint }, after := o', before := o,
        handovers := w'.record } := by
  unfold Oracle.commit at hcommit
  cases htree : l.claimTree h with
  | notEnoughData n =>
    simp only [htree] at hcommit
    obtain ⟨hpair, rfl⟩ := Prod.mk.inj hcommit
    obtain ⟨rfl, rfl⟩ := Prod.mk.inj hpair
    refine .nothing ?_ hnothing rfl
    intro root howes
    obtain ⟨tree, hbuilt, -⟩ := howes.built
    exact absurd (htree.symm.trans hbuilt) (by simp)
  | built tree =>
    simp only [htree] at hcommit
    by_cases hheld : o.submittedRoot = some tree.root
    · rw [submission_of_held _ _ hheld] at hcommit
      obtain ⟨hpair, rfl⟩ := Prod.mk.inj hcommit
      obtain ⟨rfl, rfl⟩ := Prod.mk.inj hpair
      refine .nothing ?_ hnothing rfl
      intro root howes
      obtain ⟨tree', hbuilt, rfl⟩ := howes.built
      obtain rfl : tree = tree' := by simpa using htree.symm.trans hbuilt
      exact howes.new hheld
    · obtain ⟨submitted, w₁, hsubmission, hend⟩ := run_bind_cases hcommit
      have hoffered := offered_of_new (o := { o with ledger := l }) hheld hnothing hsubmission
      have howes : ∀ (result : Except (Failure ε) SlotReport) (after : Oracle) heard,
          after.ledger = l → (⟨slot, result, after⟩ : Call ε).processed = true →
          Turn.Owes h o.config tree.root
            { slot, result, after, before := o, handovers := heard } := by
        rintro result after heard rfl hprocessed
        exact ⟨hprocessed, hdue, ⟨tree, htree, rfl⟩, hheld⟩
      generalize hheard : w₁.record = heard at hoffered
      cases hoffered with
      | unlisted answer hanswer hr =>
        rcases submitted with _ | failure | transaction
        · obtain ⟨hpair, rfl⟩ := Prod.mk.inj hend
          obtain ⟨rfl, rfl⟩ := Prod.mk.inj hpair
          exact .unlisted (howes _ _ _ rfl rfl) answer hanswer hheard rfl
        · obtain ⟨hpair, rfl⟩ := Prod.mk.inj hend
          obtain ⟨rfl, rfl⟩ := Prod.mk.inj hpair
          exact .unlisted (howes _ _ _ rfl rfl) answer hanswer hheard rfl
        · exact absurd rfl (hr transaction)
      | refused e =>
        obtain ⟨hpair, rfl⟩ := Prod.mk.inj hend
        obtain ⟨rfl, rfl⟩ := Prod.mk.inj hpair
        exact .refused (howes _ _ _ rfl rfl) e hheard rfl
      | accepted transaction =>
        obtain ⟨hpair, rfl⟩ := Prod.mk.inj hend
        obtain ⟨rfl, rfl⟩ := Prod.mk.inj hpair
        exact .accepted (howes _ _ _ rfl rfl) transaction hheard rfl

theorem overhears_of_call {w : σ} {w' : Chronicled σ (Handover ε)} {r : Except (Failure ε) SlotReport}
    (hrun : (o.processSlot h chain.overheard (some s.overheard) slot).run ⟨w, []⟩ =
      ((r, o'), w')) :
    Turn.Overhears h o.config s.address
      { slot, result := r, after := o', before := o, handovers := w'.record } := by
  cases processSlot_called hrun with
  | outOfOrder hslot =>
    exact .nothing (fun root howes => Bool.false_ne_true howes.processed) rfl rfl
  | failed hslot hfailed =>
    have hnothing := Reconcile.overhears_nothing hfailed
    refine .nothing ?_ hnothing rfl
    intro root howes
    have hprocessed := howes.processed
    rcases Reconcile.slot_fails (returns_of_run hfailed) with ⟨f, rfl⟩ | ⟨e, rfl⟩
    · exact Bool.false_ne_true hprocessed
    · exact Bool.false_ne_true hprocessed
  | aborted hslot hdone hdue =>
    have hnothing := Reconcile.overhears_nothing hdone
    exact .nothing (fun root howes => Bool.false_ne_true howes.processed) hnothing rfl
  | passed hslot hdone hdue =>
    have hnothing := Reconcile.overhears_nothing hdone
    refine .nothing ?_ hnothing rfl
    intro root howes
    exact absurd (hdue.symm.trans (Config.due_iff.mp howes.due)) (by simp)
  | @committed hslot l report w₁ _ hdone hdue _ _ _ =>
    have hnothing := Reconcile.overhears_nothing hdone
    obtain ⟨⟨⟨committed, o₁⟩, w₂⟩, hcommitted⟩ :
        ∃ done, (Oracle.commit h chain.overheard (some s.overheard)
          { o with ledger := l } slot).run w₁ = done := ⟨_, rfl⟩
    have hsame := hrun.symm.trans (processSlot_run_of_due hslot hdone hdue hcommitted)
    obtain ⟨hpair, rfl⟩ := Prod.mk.inj hsame
    obtain ⟨hresult, rfl⟩ := Prod.mk.inj hpair
    rw [hresult]
    exact overhears_of_commit (Config.due_iff.mpr hdue) hnothing hcommitted

namespace Turn

variable {config : Config} {address : Address} {t : Turn ε} {root : Hash}

/-- The rules of handing over. A turn hands over at most one root, only one that it owes, and only
after the submitter was found on the whitelist. Whenever it owes one, it asks for the whitelist, and if
the submitter is on it, the root is handed over. -/
structure Proper (h : Digest) (config : Config) (address : Address) (t : Turn ε) : Prop where
  once : t.handovers.countP (·.isSubmission) ≤ 1
  owed : ∀ root answer, .submission root answer ∈ t.handovers → t.Owes h config root
  listed : ∀ earlier root answer later,
    t.handovers = earlier ++ .submission root answer :: later →
      t.lookup config address (.ok true) ∈ earlier
  kept : ∀ root, t.Owes h config root →
    ∃ answer, t.lookup config address answer ∈ t.handovers ∧
      (answer = .ok true → ∃ submitted, .submission root submitted ∈ t.handovers)

/-- The roots that a turn handed over with success. -/
def submitted (t : Turn ε) : List Hash := t.handovers.filterMap (·.submitted?)

theorem Owes.root_eq {root' : Hash} (howes : t.Owes h config root) (howes' : t.Owes h config root') :
    root' = root := by
  obtain ⟨tree, hbuilt, rfl⟩ := howes.built
  obtain ⟨tree', hbuilt', rfl⟩ := howes'.built
  obtain rfl : tree = tree' := by simpa using hbuilt.symm.trans hbuilt'
  rfl

/-- A root that is handed over follows a look-up that went well. -/
theorem proper_of_submission (howes : t.Owes h config root) {submitted : Except ε Hash}
    (hheard : t.handovers = [t.lookup config address (.ok true), .submission root submitted]) :
    t.Proper h config address where
  once := by
    rw [hheard]
    rfl
  owed root' answer hmem := by
    rw [hheard] at hmem
    obtain ⟨rfl, -⟩ : root' = root ∧ answer = submitted := by simpa [lookup] using hmem
    exact howes
  listed earlier root' answer later hsplit := by
    rw [hheard] at hsplit
    -- the look-up is no submission, so it stands in front of the split
    cases earlier with
    | nil => exact absurd (List.cons.inj hsplit).1 (by simp [lookup])
    | cons first rest => exact (List.cons.inj hsplit).1 ▸ List.mem_cons_self
  kept root' howes' := by
    obtain rfl := howes.root_eq howes'
    refine ⟨.ok true, ?_, fun _ => ⟨submitted, ?_⟩⟩
    · rw [hheard]
      exact List.mem_cons_self
    · rw [hheard]
      exact List.mem_cons_of_mem _ List.mem_cons_self

theorem Overhears.proper (ht : t.Overhears h config address) : t.Proper h config address := by
  cases ht with
  | nothing howes hheard hroot =>
    constructor
    · rw [hheard]
      exact Nat.zero_le 1
    · intro root answer hmem
      rw [hheard] at hmem
      exact absurd hmem (by simp)
    · intro earlier root answer later hsplit
      rw [hheard] at hsplit
      exact absurd hsplit (by simp)
    · intro root hroot
      exact absurd hroot (howes root)
  | unlisted howes answer hanswer hheard hroot =>
    constructor
    · rw [hheard]
      exact Nat.zero_le 1
    · intro root answer hmem
      rw [hheard] at hmem
      exact absurd hmem (by simp [lookup])
    · intro earlier root answer later hsplit
      have hmem : Handover.submission root answer ∈ t.handovers := by
        rw [hsplit]
        simp
      rw [hheard] at hmem
      exact absurd hmem (by simp [lookup])
    · intro root howes'
      refine ⟨answer, ?_, fun htrue => absurd htrue hanswer⟩
      rw [hheard]
      exact List.mem_cons_self
  | refused howes e hheard hroot => exact proper_of_submission howes hheard
  | accepted howes transaction hheard hroot => exact proper_of_submission howes hheard

/-- A turn hands over no root with success and leaves the known one as it is, or hands over one that
is not the known one and makes it the known one. -/
theorem Overhears.submitted (ht : t.Overhears h config address) :
    (t.submitted = [] ∧ t.after.submittedRoot = t.before.submittedRoot) ∨
      ∃ root, t.submitted = [root] ∧ t.before.submittedRoot ≠ some root ∧
        t.after.submittedRoot = some root := by
  unfold Turn.submitted
  cases ht with
  | nothing howes hheard hroot => exact .inl ⟨by rw [hheard]; rfl, hroot⟩
  | unlisted howes answer hanswer hheard hroot => exact .inl ⟨by rw [hheard]; rfl, hroot⟩
  | refused howes e hheard hroot => exact .inl ⟨by rw [hheard]; rfl, hroot⟩
  | accepted howes transaction hheard hroot =>
    exact .inr ⟨_, by rw [hheard]; rfl, howes.new, hroot⟩

end Turn

theorem turns_cons (h : Digest) (chain : Chain ε (StateM σ)) (s : Submitter ε (StateM σ)) (slot : Slot)
    (rest : List Slot) (o : Oracle) (w : σ) :
    ∃ t : Turn ε, ∃ w' : σ, t.slot = slot ∧ t.before = o ∧ t.Overhears h o.config s.address ∧
      turns h chain s (slot :: rest) o w = t :: turns h chain s rest t.after w' ∧
      (o.processSlot h chain (some s) slot).run w = ((t.result, t.after), w') := by
  obtain ⟨⟨⟨r, o'⟩, w'⟩, hrun⟩ :
      ∃ call, (o.processSlot h chain.overheard (some s.overheard) slot).run
        ⟨w, []⟩ = call := ⟨_, rfl⟩
  have hplain := Pairing.processSlot (h := h) chain.erasing_overheard
    (.some s.erasing_overheard) o slot ⟨w, []⟩
  rw [hrun] at hplain
  refine ⟨_, w'.world, rfl, rfl, overhears_of_call hrun, ?_, hplain⟩
  rw [turns, hrun]

theorem isChain_toList_append {α : Type} {r : Option α} {a : α} {rest : List α} (hr : r ≠ some a)
    (hrest : (a :: rest).IsChain (· ≠ ·)) : (r.toList ++ a :: rest).IsChain (· ≠ ·) := by
  cases r with
  | none => exact hrest
  | some b => exact List.isChain_cons_cons.mpr ⟨fun heq => hr (congrArg some heq), hrest⟩

/-- In every run each turn keeps the rules of handing over a root. The root that the contract is known
to hold at the start, followed by those that were handed over with success, never repeats the one
before, and the last of them is the one that the contract is known to hold at the end. The turns are
the calls of the run. -/
theorem turns_hand_over_properly (h : Digest) (chain : Chain ε (StateM σ))
    (s : Submitter ε (StateM σ)) (start : Oracle) (slots : List Slot) (w : σ) :
    let turns := turns h chain s slots start w
    let roots := start.submittedRoot.toList ++ turns.flatMap (·.submitted)
    turns.map (·.toCall) = calls h chain (some s) slots start w ∧
      (∀ t ∈ turns, t.Proper h start.config s.address) ∧
      roots.IsChain (· ≠ ·) ∧
      ((processAll h chain (some s) slots start).run w).1.submittedRoot = roots.getLast? := by
  intro turns roots
  induction slots generalizing start w with
  | nil =>
    have hroots : roots = start.submittedRoot.toList := List.append_nil _
    refine ⟨rfl, by simp [turns, Oracle.turns], ?_, ?_⟩
    · rw [hroots]
      cases start.submittedRoot <;> simp
    · rw [hroots]
      show start.submittedRoot = _
      cases start.submittedRoot <;> rfl
  | cons slot rest ih =>
    obtain ⟨t, w', hslot, hbefore, heard, hturns, hrun⟩ := turns_cons h chain s slot rest start w
    obtain ⟨hcalls, hproper, hchain, hlast⟩ := ih t.after w'
    have hconfig : t.after.config = start.config := (processSlot_called hrun).config_eq
    rw [hconfig] at hproper
    have hfirst : calls h chain (some s) (slot :: rest) start w =
        t.toCall :: calls h chain (some s) rest t.after w' := by
      rw [calls, hrun, ← hslot]
    have hend : (processAll h chain (some s) (slot :: rest) start).run w =
        (processAll h chain (some s) rest t.after).run w' := by
      rw [processAll, run_bind_eq hrun]
    have hroots : roots = start.submittedRoot.toList ++ (t.submitted ++
        (Oracle.turns h chain s rest t.after w').flatMap (·.submitted)) := by
      simp only [roots, turns, hturns, List.flatMap_cons]
    refine ⟨?_, ?_, ?_⟩
    · simp only [turns, hturns, List.map_cons, hfirst, hcalls]
    · intro u hu
      rw [show turns = _ from hturns] at hu
      rcases List.mem_cons.mp hu with rfl | hu
      · exact heard.proper
      · exact hproper u hu
    · rw [hend, hlast, hroots]
      rcases heard.submitted with ⟨hnone, hkept⟩ | ⟨root, hone, hnew, hroot⟩
      · rw [hkept, hbefore] at hchain ⊢
        rw [hnone]
        exact ⟨hchain, rfl⟩
      · rw [hroot] at hchain ⊢
        rw [hbefore] at hnew
        rw [hone]
        exact ⟨isChain_toList_append hnew hchain, (List.getLast?_append_of_ne_nil _ (by simp)).symm⟩

end Oracle

/-! The root that is handed over at one checkpoint slot is not handed over at the next. -/
namespace SameRoot

theorem hands_over_once :
    let flat : Digest := fun _ => .fill 0x77
    let turns := Oracle.turns flat RefusedRoot.chain submitter [101, 102] oracle ()
    turns.map (fun t => t.handovers.map (·.isSubmission)) = [[false, true], []] ∧
      (∀ t ∈ turns, t.Proper flat oracle.config submitter.address) ∧
      (oracle.submittedRoot.toList ++ turns.flatMap (·.submitted)).IsChain (· ≠ ·) ∧
      (after flat [101, 102]).submittedRoot =
        (oracle.submittedRoot.toList ++ turns.flatMap (·.submitted)).getLast? := by
  have hproper := Oracle.turns_hand_over_properly (fun _ => .fill 0x77) RefusedRoot.chain submitter
    oracle [101, 102] ()
  exact ⟨by decide +kernel, hproper.2⟩

end SameRoot

end RewardPool
