import RewardPool.Proofs.Calls
import RewardPool.Proofs.SlotAccounts

/-!
Runs of the oracle over any sequence of slots, in an arbitrary world. A call either leaves the
oracle as it was or replaces its ledger by that of a slot that went through; a checkpoint built
after that touches the ledger no more. So an invariant of the entries of a slot is an invariant of
all runs. Where it matters what the calls came to, they are listed, and the invariant is one of the
list and the oracle together.
-/
namespace RewardPool

open Merkle (Digest)

namespace Oracle

variable {ε σ : Type}

/-- Calls for one slot after the other, whatever each of them comes to. -/
def processAll {m : Type → Type} [Monad m] (h : Digest) (chain : Chain ε m)
    (submitter : Option (Submitter ε m)) : List Slot → Oracle → m Oracle
  | [], o => return o
  | slot :: rest, o => do
    let (_, o) ← o.processSlot h chain submitter slot
    processAll h chain submitter rest o

variable {h : Digest} {chain : Chain ε (StateM σ)} {submitter : Option (Submitter ε (StateM σ))}
variable {o o' : Oracle} {slot : Slot}

/-- The ways in which a call for a slot can end. -/
inductive Processed (chain : Chain ε (StateM σ)) (o : Oracle) (slot : Slot) :
    Except (Failure ε) SlotReport → Oracle → Prop
  | outOfOrder (hslot : slot ≠ o.nextSlot) :
      Processed chain o slot (.error (.fault (.slotOutOfOrder o.nextSlot slot))) o
  | failed (hslot : slot = o.nextSlot) {failure : Failure ε}
      (hfailed : Returns (Reconcile.slot o.config chain o.ledger slot).run (.error failure)) :
      Processed chain o slot (.error failure) o
  | reconciled (hslot : slot = o.nextSlot) {l : Ledger} {report : SlotReport}
      {r : Except (Failure ε) SlotReport} {o' : Oracle}
      (hdone : Reconcile.Succeeds (Reconcile.slot o.config chain o.ledger slot) (l, report))
      (hledger : o'.ledger = l) (hconfig : o'.config = o.config)
      (hresult : (∃ report', r = .ok report') ∨ (∃ f, r = .error (.submission f)) ∨
        (r = .error .aborted ∧ o.config.isCheckpointSlot? slot = none)) :
      Processed chain o slot r o'

theorem processSlot_returns {r : Except (Failure ε) SlotReport}
    (hr : Returns (o.processSlot h chain submitter slot) (r, o')) :
    Processed chain o slot r o' := by
  obtain ⟨w, hw⟩ := hr
  obtain ⟨w', hrun⟩ : ∃ w', (o.processSlot h chain submitter slot).run w = ((r, o'), w') :=
    ⟨_, Prod.ext hw rfl⟩
  cases processSlot_called hrun with
  | outOfOrder hslot => exact .outOfOrder hslot
  | failed hslot hfailed => exact .failed hslot (returns_of_run hfailed)
  | aborted hslot hdone hdue =>
    exact .reconciled hslot (returns_of_run hdone) rfl rfl (.inr (.inr ⟨rfl, hdue⟩))
  | passed hslot hdone hdue =>
    exact .reconciled hslot (returns_of_run hdone) rfl rfl (.inl ⟨_, rfl⟩)
  | committed hslot hdone hdue hcommit =>
    obtain ⟨hledger, hconfig⟩ := hcommit.ledger_config
    refine .reconciled hslot (returns_of_run hdone) hledger hconfig ?_
    rcases hcommit.result with ⟨c, rfl⟩ | ⟨f, rfl⟩
    · exact .inl ⟨_, rfl⟩
    · exact .inr (.inl ⟨f, rfl⟩)

theorem Processed.config_eq {r : Except (Failure ε) SlotReport} (hp : Processed chain o slot r o') :
    o'.config = o.config := by
  cases hp with
  | outOfOrder hslot => rfl
  | failed hslot hfailed => rfl
  | reconciled hslot hdone hledger hconfig hresult => exact hconfig

theorem Processed.ledger_cases {r : Except (Failure ε) SlotReport}
    (hp : Processed chain o slot r o') :
    o'.ledger = o.ledger ∨
      ∃ a : SlotAccount, a.Answered o.config chain slot ∧
        o.ledger.postAll o.config (a.entries slot) = .ok o'.ledger := by
  cases hp with
  | outOfOrder hslot => exact .inl rfl
  | failed hslot hfailed => exact .inl rfl
  | reconciled hslot hdone hledger hconfig hresult =>
    obtain ⟨a, ha, hposts⟩ := Reconcile.slot_succeeds hdone
    exact .inr ⟨a, ha, hledger ▸ hposts⟩

/-- What every entry preserves, every run preserves. -/
theorem processAll_induction {P : Ledger → Prop} {slots : List Slot}
    (hstep : ∀ l l' e, P l → l.post o.config e = .ok l' → P l') (hP : P o.ledger)
    (hr : Returns (processAll h chain submitter slots o) o') : P o'.ledger := by
  induction slots generalizing o with
  | nil => exact returns_pure hr ▸ hP
  | cons slot rest ih =>
    obtain ⟨⟨r, o₁⟩, hfirst, hrest⟩ := returns_bind hr
    have hp := processSlot_returns hfirst
    refine ih (hp.config_eq ▸ hstep) ?_ hrest
    rcases hp.ledger_cases with hkept | ⟨a, -, hposts⟩
    · exact hkept ▸ hP
    · exact Ledger.postAll_induction hstep hP hposts

theorem config_processAll (h : Digest) (chain : Chain ε (StateM σ))
    (submitter : Option (Submitter ε (StateM σ))) (slots : List Slot) (o : Oracle) (w : σ) :
    ((processAll h chain submitter slots o).run w).1.config = o.config := by
  induction slots generalizing o w with
  | nil => rfl
  | cons slot rest ih =>
    have hcalled : Called h chain submitter o slot w _ _ _ := processSlot_called rfl
    exact (ih _ _).trans hcalled.config_eq

/-- One call of a run: its slot, what it came to, and the oracle after it. -/
structure Call (ε : Type) where
  slot : Slot
  result : Except (Failure ε) SlotReport
  after : Oracle

def calls (h : Digest) (chain : Chain ε (StateM σ)) (submitter : Option (Submitter ε (StateM σ))) :
    List Slot → Oracle → σ → List (Call ε)
  | [], _, _ => []
  | slot :: rest, o, w =>
    let ((result, after), w') := (o.processSlot h chain submitter slot).run w
    ⟨slot, result, after⟩ :: calls h chain submitter rest after w'

/-- What every call preserves of the oracle and the calls so far, every run preserves. -/
theorem calls_induction {P : List (Call ε) → Oracle → Prop} {before : List (Call ε)}
    (hstep : ∀ before o slot w r o' w', P before o →
      Called h chain submitter o slot w r o' w' → P (before ++ [⟨slot, r, o'⟩]) o')
    (hP : P before o) (slots : List Slot) (w : σ) :
    P (before ++ calls h chain submitter slots o w)
      ((processAll h chain submitter slots o).run w).1 := by
  induction slots generalizing o before w with
  | nil =>
    rw [calls, List.append_nil]
    exact hP
  | cons slot rest ih =>
    obtain ⟨⟨⟨r, o₁⟩, w₁⟩, hcall⟩ : ∃ call, (o.processSlot h chain submitter slot).run w = call :=
      ⟨_, rfl⟩
    have hrest := ih (hstep before o slot w r o₁ w₁ hP (processSlot_called hcall)) w₁
    have hcalls : calls h chain submitter (slot :: rest) o w =
        ⟨slot, r, o₁⟩ :: calls h chain submitter rest o₁ w₁ := by
      rw [calls, hcall]
    have hend : (processAll h chain submitter (slot :: rest) o).run w =
        (processAll h chain submitter rest o₁).run w₁ := by
      rw [processAll, StateT.run_bind, hcall]
      rfl
    rw [hcalls, hend, List.append_cons]
    exact hrest

end Oracle

end RewardPool
