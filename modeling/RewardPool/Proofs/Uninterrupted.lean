import RewardPool.Program
import RewardPool.Proofs.Instances
import RewardPool.Proofs.Postings
import RewardPool.Proofs.Replay

/-!
The run that is never interrupted: it begins with a fresh ledger and processes one slot of the history
after the other, and no call fails. Any other run whose chain is governed by the same history, in
whatever way it is interrupted, can only get to ledgers of this run, and a slot that it settles leaves
the ledger and the checkpoint that this run has there.
-/
namespace RewardPool

open Merkle (Digest)

namespace History

variable {H : History} {config : Config} {l l' : Ledger} {slot : Slot} {report : SlotReport}

/-- What the history makes of a slot is what a chain that never fails makes of it in a world. -/
theorem succeeds_of_settle (hsettle : H.settle config l slot = .ok (l', report)) :
    Reconcile.Succeeds (Reconcile.slot config (H.chain : Chain Empty (StateM Unit)) l slot)
      (l', report) := by
  have hruns :=
    returns_run (Reconcile.slot config (H.chain : Chain Empty (StateM Unit)) l slot).run ()
  rcases Reconcile.slot_agrees (H.governs_chain).grants config l slot _ hruns with
    ⟨e, -⟩ | ⟨a, ha, hy⟩ | ⟨f, -, hy⟩
  · exact e.elim
  · rw [hsettle] at hy
    rw [Except.ok.inj hy]
    exact ⟨(), ha⟩
  · rw [hsettle] at hy
    exact absurd hy (by simp)

theorem settle_of_reconcile (h : H.reconcile config l slot = .ok l') :
    ∃ report, H.settle config l slot = .ok (l', report) := by
  obtain ⟨⟨m, report⟩, hsettle, rfl⟩ := except_map_eq_ok.mp h
  exact ⟨report, hsettle⟩

theorem checkpoint_of_settle (hsettle : H.settle config l slot = .ok (l', report)) :
    report.checkpoint = none :=
  Reconcile.checkpoint_of_succeeds (succeeds_of_settle hsettle)

theorem latestSlot_of_reconcile (h : H.reconcile config l slot = .ok l') :
    l'.latestSlot = some slot := by
  obtain ⟨report, hsettle⟩ := settle_of_reconcile h
  exact Reconcile.latestSlot_of_succeeds (succeeds_of_settle hsettle)

end History

namespace Oracle

variable {ε : Type}

/-- Whether the slot of a call was settled. A root that could not be submitted is no matter. -/
def Call.settles (call : Call ε) : Bool :=
  match call.result with
  | .ok _ | .error (.submission _) => true
  | .error _ => false

/-- The checkpoint that a call built, if it built one. -/
def Call.record? (call : Call ε) : Option Checkpoint :=
  match call.result with
  | .ok report => report.checkpoint
  | .error (.submission _) => call.after.latestCheckpoint?
  | .error _ => none

end Oracle

/-- The checkpoint that is due at a slot that leaves a ledger, before anything is submitted. -/
def Ledger.record? (h : Digest) (config : Config) (slot : Slot) (l : Ledger) : Option Checkpoint :=
  if config.isCheckpointSlot? slot = some true ∧ 2 ≤ l.leaves.length then
    some (.ofTree slot l.latestBlock (l.commitment h))
  else none

namespace Oracle

variable {ε : Type} {h : Digest} {H : History} {o o' : Oracle} {slot : Slot}

theorem Committed.settles {r : Except (Failure ε) (Option Checkpoint)}
    (hc : Committed h o slot r o') (report : SlotReport) :
    (⟨slot, r.map fun checkpoint => { report with checkpoint }, o'⟩ : Call ε).settles = true := by
  cases hc <;> rfl

/-- The checkpoint of a call is that of its ledger. -/
theorem Committed.record {r : Except (Failure ε) (Option Checkpoint)}
    (hc : Committed h o slot r o') (hdue : o.config.isCheckpointSlot? slot = some true)
    (report : SlotReport) :
    ((⟨slot, r.map fun checkpoint => { report with checkpoint }, o'⟩ : Call ε).record?).map
      (·.unsent) = o'.ledger.record? h o.config slot := by
  rw [hc.ledger_config.1]
  unfold Ledger.record?
  cases hc with
  | tooFew hfew =>
    rw [if_neg fun hboth => absurd hboth.2 (Nat.not_le.mpr hfew)]
    rfl
  | kept hbuilt hc | submitted hbuilt hc =>
    obtain ⟨htwo, rfl⟩ := Ledger.claimTree_eq_built_iff.mp hbuilt
    rw [if_pos ⟨hdue, htwo⟩, hc]
    rfl
  | refused hbuilt hc failure =>
    obtain ⟨htwo, rfl⟩ := Ledger.claimTree_eq_built_iff.mp hbuilt
    rw [if_pos ⟨hdue, htwo⟩, hc]
    simp [Except.map, Call.record?, latestCheckpoint?, checkpoint?, keep, SortedMap.find?_insert]
    rfl

/-- What a call can come to where no answer contradicts a history. -/
inductive Came (H : History) (h : Digest) (o : Oracle) (slot : Slot) :
    Except (Failure ε) SlotReport → Oracle → Prop
  | kept {failure : Failure ε} (hfailure : ∀ f, failure ≠ .submission f) :
      Came H h o slot (.error failure) o
  | aborted {l : Ledger} (hslot : slot = o.nextSlot)
      (hledger : H.reconcile o.config o.ledger slot = .ok l) :
      Came H h o slot (.error .aborted) { o with ledger := l }
  | settled {r : Except (Failure ε) SlotReport} {o' : Oracle} (hslot : slot = o.nextSlot)
      (hledger : H.reconcile o.config o.ledger slot = .ok o'.ledger)
      (hconfig : o'.config = o.config) (hdue : o.config.isCheckpointSlot? slot ≠ none)
      (hrecord : ((⟨slot, r, o'⟩ : Call ε).record?).map (·.unsent) =
        o'.ledger.record? h o.config slot) : Came H h o slot r o'

theorem Came.record_of_settles {r : Except (Failure ε) SlotReport} (hcame : Came H h o slot r o')
    (hsettles : (⟨slot, r, o'⟩ : Call ε).settles = true) :
    ((⟨slot, r, o'⟩ : Call ε).record?).map (·.unsent) = o'.ledger.record? h o.config slot := by
  cases hcame with
  | @kept failure hfailure =>
    cases failure with
    | submission f => exact absurd rfl (hfailure f)
    | fault f => exact absurd hsettles nofun
    | provider e => exact absurd hsettles nofun
    | aborted => exact absurd hsettles nofun
  | aborted hslot hledger => exact absurd hsettles nofun
  | settled hslot hledger hconfig hdue hrecord => exact hrecord

end Oracle

namespace Judgement

variable {ε : Type} {m : Type → Type} [Monad m] {J : Judgement m} {chain : Chain ε m}
variable {submitter : Option (Submitter ε m)} {h : Digest} {o : Oracle} {slot : Slot} {H : History}

/-- Nothing is said of who is listed and of what becomes of a root. -/
structure Sends (J : Judgement m) (chain : Chain ε m) (submitter : Option (Submitter ε m)) :
    Prop where
  whitelisted : ∀ block address, J.Passes (chain.whitelisted block address)
  submit : ∀ s ∈ submitter, ∀ root, J.Passes (s.submit root)

theorem sequential_passes (J : Judgement m) : Sequential (m := m) fun _ x => J.Passes x where
  pure := J.passes_pure
  bind := passes_bind

theorem commit_holds (hJ : J.Sends chain submitter) (o : Oracle) (slot : Slot) :
    J.Holds (o.commit h chain submitter slot) fun r => Oracle.Committed h o slot r.1 r.2 := by
  unfold Oracle.commit
  split
  · rename_i hfew
    exact J.holds_pure (.tooFew (Ledger.claimTree_eq_notEnoughData_iff.mp hfew).1)
  · rename_i tree hbuilt
    have hsubmission := J.sequential_passes.submission hJ.whitelisted hJ.submit o
      (.ofTree slot o.ledger.latestBlock tree)
    refine J.holds_bind hsubmission fun submitted _ => ?_
    rcases submitted with _ | failure | transaction
    · exact J.holds_pure (.kept hbuilt rfl)
    · exact J.holds_pure (.refused hbuilt rfl failure)
    · exact J.holds_pure (.submitted hbuilt rfl)

/-- A call comes to what the history makes of it, or changes nothing. -/
theorem processSlot_holds [LawfulMonad m] (hJ : J.Grants H chain) (hS : J.Sends chain submitter)
    (o : Oracle) (slot : Slot) :
    J.Holds (o.processSlot h chain submitter slot) fun r => Oracle.Came H h o slot r.1 r.2 := by
  unfold Oracle.processSlot
  split
  · exact J.holds_pure (.kept nofun)
  · rename_i hslot
    have hnext : slot = o.nextSlot := not_not.mp hslot
    refine J.holds_bind (Reconcile.slot_agrees hJ o.config o.ledger slot) fun r hr => ?_
    rcases hr with ⟨e, rfl⟩ | ⟨⟨l, report⟩, rfl, hsettle⟩ | ⟨f, rfl, -⟩
    · exact J.holds_pure (.kept nofun)
    · have hledger : H.reconcile o.config o.ledger slot = .ok l := by
        rw [H.reconcile_eq, hsettle]
        rfl
      dsimp only
      split
      · exact J.holds_pure (.aborted hnext hledger)
      · rename_i hdue
        refine J.holds_pure (.settled hnext hledger rfl (by simp [hdue]) ?_)
        show report.checkpoint.map _ = _
        rw [History.checkpoint_of_settle hsettle]
        exact (if_neg (by simp [hdue])).symm
      · rename_i hdue
        refine J.holds_bind (commit_holds hS _ slot) fun r hr => ?_
        obtain ⟨r, o'⟩ := r
        have hrecord := hr.record hdue report
        have hcame : Oracle.Came H h o slot (r.map fun checkpoint => { report with checkpoint })
            o' := by
          obtain ⟨hkept, hconfig⟩ := hr.ledger_config
          refine .settled hnext (hkept ▸ hledger) hconfig ?_ hrecord
          exact fun hnone => absurd (hnone.symm.trans hdue) (by simp)
        cases r with
        | error failure => exact J.holds_pure hcame
        | ok checkpoint => exact J.holds_pure hcame
    · exact J.holds_pure (.kept nofun)

end Judgement

namespace Ledger

/-- What a ledger was begun with. -/
def terms (l : Ledger) : UInt64 × Address × Eligibility :=
  (l.feePercent, l.feeAddress, l.eligibility)

theorem terms_move (l : Ledger) (a : Move) : (l.move a).terms = l.terms := by
  cases a <;> rfl

theorem terms_post {config : Config} {l l' : Ledger} {e : Entry} (h : l.post config e = .ok l') :
    l'.terms = l.terms := by
  obtain ⟨new, ⟨moves, hcourse, -⟩, -⟩ := moved_post h
  exact hcourse.relates (R := fun a b => b.terms = a.terms) (fun _ => rfl)
    (fun hab hbc => hbc.trans hab) (fun l a _ => l.terms_move a)

end Ledger

namespace History

variable {H : History} {h : Digest} {config : Config} {l l' : Ledger} {n : Nat} {o : Oracle}
variable {slot : Slot}

theorem terms_of_reconcile (h : H.reconcile config l slot = .ok l') : l'.terms = l.terms := by
  obtain ⟨report, hsettle⟩ := settle_of_reconcile h
  obtain ⟨a, -, hposts⟩ := Reconcile.slot_succeeds (succeeds_of_settle hsettle)
  exact Ledger.postAll_induction (P := fun m => m.terms = l.terms)
    (fun _ _ _ hm hpost => (Ledger.terms_post hpost).trans hm) rfl hposts

/-- The ledgers of the run that is never interrupted, by the number of slots behind them. -/
inductive Replayed (H : History) (config : Config) : Nat → Ledger → Prop
  | fresh : Replayed H config 0 (.fresh config)
  | next {n : Nat} {l l' : Ledger} (hl : Replayed H config n l)
      (hslot : H.reconcile config l (config.deployedSlot + UInt64.ofNat n) = .ok l') :
      Replayed H config (n + 1) l'

theorem Replayed.terms (hl : H.Replayed config n l) : l.terms = (Ledger.fresh config).terms := by
  induction hl with
  | fresh => rfl
  | next hl hslot ih => exact (terms_of_reconcile hslot).trans ih

/-- A ledger of the run may be gone on with. -/
theorem Replayed.fits (hl : H.Replayed config n l) : Program.fits config l = true := by
  obtain ⟨hfee, haddress, heligibility⟩ : l.feePercent = config.feePercent ∧
      l.feeAddress = config.feeAddress ∧ l.eligibility = config.eligibility := by
    simpa [Ledger.terms, Ledger.fresh] using hl.terms
  simp [Program.fits, hfee, haddress, heligibility]

theorem Replayed.nextSlot (hl : H.Replayed config n l) (hconfig : o.config = config)
    (hledger : o.ledger = l) : o.nextSlot = config.deployedSlot + UInt64.ofNat n := by
  unfold Oracle.nextSlot
  rw [hconfig, hledger]
  cases hl with
  | fresh => simp [Ledger.fresh]
  | next hl hslot =>
    rw [latestSlot_of_reconcile hslot, UInt64.ofNat_add, ← UInt64.add_assoc]
    rfl

/-- The first slots of the pool. -/
def slots (config : Config) (n : Nat) : List Slot :=
  (List.range n).map fun i => config.deployedSlot + UInt64.ofNat i

theorem slots_succ (config : Config) (n : Nat) :
    slots config (n + 1) = slots config n ++ [config.deployedSlot + UInt64.ofNat n] := by
  simp [slots, List.range_succ]

/-- The oracle of the run that is never interrupted. -/
def oracleAfter (H : History) (h : Digest) (config : Config) (n : Nat) : Oracle :=
  ((Oracle.processAll h (H.chain : Chain Empty (StateM Unit)) none (slots config n)
    (.start config (.fresh config))).run ()).1

/-- The calls of the run that is never interrupted. -/
def callsUntil (H : History) (h : Digest) (config : Config) (n : Nat) : List (Oracle.Call Empty) :=
  Oracle.calls h (H.chain : Chain Empty (StateM Unit)) none (slots config n)
    (.start config (.fresh config)) ()

end History

namespace Oracle

variable {σ ε : Type} {h : Digest} {chain : Chain ε (StateM σ)}
variable {submitter : Option (Submitter ε (StateM σ))}

theorem processAll_append (first rest : List Slot) (o : Oracle) :
    processAll h chain submitter (first ++ rest) o =
      processAll h chain submitter first o >>= processAll h chain submitter rest := by
  induction first generalizing o with
  | nil => rfl
  | cons slot first ih =>
    rw [List.cons_append, processAll, processAll, bind_assoc]
    exact congrArg _ (funext fun r => ih r.2)

theorem calls_append (first rest : List Slot) (o : Oracle) (w : σ) :
    calls h chain submitter (first ++ rest) o w =
      let (o', w') := (processAll h chain submitter first o).run w
      calls h chain submitter first o w ++ calls h chain submitter rest o' w' := by
  induction first generalizing o w with
  | nil => rfl
  | cons slot first ih =>
    obtain ⟨⟨⟨r, o₁⟩, w₁⟩, hcall⟩ : ∃ call, (o.processSlot h chain submitter slot).run w = call :=
      ⟨_, rfl⟩
    have hcalls : ∀ slots, calls h chain submitter (slot :: slots) o w =
        ⟨slot, r, o₁⟩ :: calls h chain submitter slots o₁ w₁ := by
      intro slots
      rw [calls, hcall]
    have hend : (processAll h chain submitter (slot :: first) o).run w =
        (processAll h chain submitter first o₁).run w₁ := by
      rw [processAll, run_bind_eq hcall]
    rw [List.cons_append, hcalls, hcalls, ih, hend]
    rfl

end Oracle

namespace History

variable {H : History} {h : Digest} {config : Config} {l l' : Ledger} {n : Nat} {o : Oracle}
variable {slot : Slot}

/-- A call of the run that is never interrupted. -/
theorem called_of_reconcile (h : Digest) (hslot : slot = o.nextSlot)
    (hledger : H.reconcile o.config o.ledger slot = .ok l) :
    let call := ((o.processSlot h (H.chain : Chain Empty (StateM Unit)) none slot).run ()).1
    call.2.ledger = l ∧ call.2.config = o.config ∧
      (o.config.isCheckpointSlot? slot ≠ none →
        (⟨slot, call.1, call.2⟩ : Oracle.Call Empty).settles = true) := by
  obtain ⟨report, hsettle⟩ := settle_of_reconcile hledger
  obtain ⟨_, hfirst⟩ := succeeds_of_settle hsettle
  have hdone : (Reconcile.slot o.config (H.chain : Chain Empty (StateM Unit)) o.ledger slot).run.run
      () = (.ok (l, report), ()) := Prod.ext hfirst rfl
  obtain ⟨⟨⟨r, o'⟩, w⟩, hrun⟩ :
      ∃ p, (o.processSlot h (H.chain : Chain Empty (StateM Unit)) none slot).run () = p := ⟨_, rfl⟩
  rw [hrun]
  cases Oracle.processSlot_called hrun with
  | outOfOrder hother => exact absurd hslot hother
  | failed _ hfailed => exact absurd (Prod.mk.inj (hdone.symm.trans hfailed)).1 (by simp)
  | aborted _ hdone' hdue =>
    obtain ⟨rfl, -⟩ := Prod.mk.inj (Except.ok.inj (Prod.mk.inj (hdone.symm.trans hdone')).1)
    exact ⟨rfl, rfl, fun h => absurd hdue h⟩
  | passed _ hdone' hdue =>
    obtain ⟨rfl, -⟩ := Prod.mk.inj (Except.ok.inj (Prod.mk.inj (hdone.symm.trans hdone')).1)
    exact ⟨rfl, rfl, fun _ => rfl⟩
  | committed _ hdone' hdue hcommit =>
    obtain ⟨rfl, -⟩ := Prod.mk.inj (Except.ok.inj (Prod.mk.inj (hdone.symm.trans hdone')).1)
    exact ⟨hcommit.ledger_config.1, hcommit.ledger_config.2, fun _ => hcommit.settles _⟩

theorem oracleAfter_succ (H : History) (h : Digest) (config : Config) (n : Nat) :
    H.oracleAfter h config (n + 1) =
      (((H.oracleAfter h config n).processSlot h (H.chain : Chain Empty (StateM Unit)) none
        (config.deployedSlot + UInt64.ofNat n)).run ()).1.2 := by
  unfold oracleAfter
  rw [slots_succ, Oracle.processAll_append]
  rfl

theorem getLast?_callsUntil (H : History) (h : Digest) (config : Config) (n : Nat) :
    (H.callsUntil h config (n + 1)).getLast? =
      let call := (((H.oracleAfter h config n).processSlot h (H.chain : Chain Empty (StateM Unit))
        none (config.deployedSlot + UInt64.ofNat n)).run ()).1
      some ⟨config.deployedSlot + UInt64.ofNat n, call.1, call.2⟩ := by
  unfold callsUntil
  rw [slots_succ, Oracle.calls_append]
  exact List.getLast?_concat

/-- The run that is never interrupted gets to each of its ledgers. -/
theorem Replayed.oracleAfter (hl : H.Replayed config n l) (h : Digest) :
    (H.oracleAfter h config n).ledger = l ∧ (H.oracleAfter h config n).config = config := by
  induction hl with
  | fresh => exact ⟨rfl, rfl⟩
  | next hl hslot ih =>
    obtain ⟨hledger, hconfig⟩ := ih
    have hcall := called_of_reconcile h (hl.nextSlot hconfig hledger).symm
      (by rw [hledger, hconfig]; exact hslot)
    rw [oracleAfter_succ]
    exact ⟨hcall.1, hcall.2.1.trans hconfig⟩

/-- A call whose slot the run that is never interrupted settles in the same way: it leaves the same
ledger and builds the same checkpoint, or none, whatever becomes of the root. -/
def Accounts {ε : Type} (H : History) (h : Digest) (config : Config) (call : Oracle.Call ε) :
    Prop :=
  ∃ n call', (H.callsUntil h config (n + 1)).getLast? = some call' ∧ call'.settles = true ∧
    call.slot = call'.slot ∧ call.after.ledger = call'.after.ledger ∧
    call.record?.map (·.unsent) = call'.record?.map (·.unsent)

/-- A call that settles its slot on a ledger of the run is accounted for. -/
theorem Replayed.accounts {ε : Type} {r : Except (Failure ε) SlotReport} {o' : Oracle}
    (hl : H.Replayed o.config n o.ledger) (hslot : slot = o.nextSlot)
    (hledger : H.reconcile o.config o.ledger slot = .ok o'.ledger)
    (hdue : o.config.isCheckpointSlot? slot ≠ none)
    (hrecord : ((⟨slot, r, o'⟩ : Oracle.Call ε).record?).map (·.unsent) =
      o'.ledger.record? h o.config slot) :
    H.Accounts h o.config (⟨slot, r, o'⟩ : Oracle.Call ε) := by
  obtain ⟨hsame, hconfig⟩ := hl.oracleAfter h
  have hplace : slot = o.config.deployedSlot + UInt64.ofNat n := hslot.trans (hl.nextSlot rfl rfl)
  have hnext : slot = (H.oracleAfter h o.config n).nextSlot :=
    hplace.trans (hl.nextSlot hconfig hsame).symm
  obtain ⟨hafter, -, hsettles⟩ :=
    called_of_reconcile h hnext (by rw [hconfig, hsame]; exact hledger)
  rw [hconfig] at hsettles
  have hsends : Judgement.returning.Sends (H.chain : Chain Empty (StateM Unit)) none :=
    ⟨fun _ _ _ _ => trivial, nofun⟩
  have hcame := Judgement.processSlot_holds (h := h) (H.governs_chain).grants hsends
    (H.oracleAfter h o.config n) slot _ (returns_run _ ())
  have hrecord' := hcame.record_of_settles (hsettles hdue)
  rw [hafter, hconfig, ← hrecord] at hrecord'
  refine ⟨n, _, H.getLast?_callsUntil h o.config n, ?_, hplace, ?_, ?_⟩
  · rw [← hplace]
    exact hsettles hdue
  · rw [← hplace]
    exact hafter.symm
  · rw [← hplace]
    exact hrecord'.symm

/-- A call on a ledger of the run leaves such a ledger, and if it settles its slot the run accounts
for it. -/
theorem Replayed.came {ε : Type} {r : Except (Failure ε) SlotReport} {o' : Oracle}
    (hl : ∃ n, H.Replayed config n o.ledger) (hconfig : o.config = config)
    (hcame : Oracle.Came H h o slot r o') :
    (∃ n, H.Replayed config n o'.ledger) ∧ o'.config = config ∧
      ((⟨slot, r, o'⟩ : Oracle.Call ε).settles = true →
        H.Accounts h config (⟨slot, r, o'⟩ : Oracle.Call ε)) := by
  obtain ⟨n, hl⟩ := hl
  subst hconfig
  have hnext := hl.nextSlot rfl rfl
  cases hcame with
  | @kept failure hfailure =>
    refine ⟨⟨n, hl⟩, rfl, fun hsettles => ?_⟩
    cases failure with
    | submission f => exact absurd rfl (hfailure f)
    | _ => exact absurd hsettles nofun
  | aborted hslot hledger =>
    exact ⟨⟨n + 1, .next hl (by rw [← hnext, ← hslot]; exact hledger)⟩, rfl, nofun⟩
  | settled hslot hledger hkept hdue hrecord =>
    have hnew : H.Replayed o.config (n + 1) o'.ledger :=
      .next hl (by rw [← hnext, ← hslot]; exact hledger)
    exact ⟨⟨n + 1, hnew⟩, hkept, fun _ => hl.accounts hslot hledger hdue hrecord⟩

end History

end RewardPool
