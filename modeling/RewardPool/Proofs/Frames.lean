import RewardPool.Proofs.Hearings
import RewardPool.Proofs.Watching

/-!
A run of the supervisor that is looked at before each slot. What there is then, the oracle and the
files, is recorded together with the call for the slot, and to record it changes nothing. The files
belong to the store alone; beside them the world may answer as it likes. What the parts of a round
preserve of the oracle and of such a world, all rounds preserve, by induction on the budget.
-/
namespace RewardPool

open Merkle (Digest)

/-- What there was before a call for a slot, and the call. -/
structure Frame (ε : Type) where
  before : Oracle
  files : FileTree
  call : Oracle.Call ε

namespace Oracle

variable {σ ε : Type} {h : Digest} {chain : Chain ε (StateM σ)}
variable {submitter : Option (Submitter ε (StateM σ))} {o o' : Oracle} {slot : Slot} {w w' : σ}
variable {r : Except (Failure ε) SlotReport}

def Call.persists (call : Call ε) : Bool :=
  match call.result with
  | .ok report => report.checkpoint.isSome
  | .error (.submission _) => true
  | .error _ => false

/-- The latest checkpoint is stored exactly after the calls that build one. -/
theorem persists_eq_builds (hcalled : Called h chain submitter o slot w r o' w') :
    (⟨slot, r, o'⟩ : Call ε).persists = (⟨slot, r, o'⟩ : Call ε).builds o.config := by
  cases hcalled with
  | outOfOrder hslot => rfl
  | failed hslot hfailed =>
    rcases Reconcile.slot_fails (returns_of_run hfailed) with ⟨f, rfl⟩ | ⟨e, rfl⟩
    · rfl
    · rfl
  | aborted hslot hdone hdue => rfl
  | @passed hslot l report _ hdone hdue =>
    have hnone := Reconcile.checkpoint_of_succeeds (returns_of_run hdone)
    have hpersists : (⟨slot, .ok report, { o with ledger := l }⟩ : Call ε).persists = false :=
      congrArg Option.isSome hnone
    refine hpersists.trans (decide_eq_false fun hboth => ?_).symm
    exact absurd (hdue.symm.trans hboth.1) (by simp)
  | committed hslot hdone hdue hcommit =>
    cases hcommit with
    | tooFew hfew =>
      refine (decide_eq_false fun hboth => ?_).symm
      exact absurd hboth.2 (Nat.not_le.mpr hfew)
    | kept hbuilt hc | submitted hbuilt hc | refused hbuilt hc failure =>
      have htwo := (Ledger.claimTree_eq_built_iff.mp hbuilt).1
      exact (decide_eq_true ⟨hdue, htwo⟩).symm

theorem Called.ne_aborted (hsize : o.config.checkpointSize ≠ 0)
    (hcalled : Called h chain submitter o slot w r o' w') : r ≠ .error .aborted := by
  cases hcalled with
  | outOfOrder hslot => simp
  | failed hslot hfailed =>
    rcases Reconcile.slot_fails (returns_of_run hfailed) with ⟨f, rfl⟩ | ⟨e, rfl⟩
    · simp
    · simp
  | aborted hslot hdone hdue => exact absurd hdue (Config.isCheckpointSlot?_ne_none hsize slot)
  | passed hslot hdone hdue => simp
  | committed hslot hdone hdue hcommit =>
    rcases hcommit.result with ⟨c, rfl⟩ | ⟨f, rfl⟩
    · simp [Except.map]
    · simp [Except.map]

end Oracle

namespace Supervisor

section Definitions

variable {σ ε : Type}

/-- Processes a slot and records what there was before it and the call. -/
def advanceFramed (h : Digest) (s : Surroundings ε (StateM (Exposed σ))) :
    Step ε (StateM (Chronicled (Exposed σ) (Frame ε))) := fun o slot => do
  let before := (← get).world.files
  advanceNoting h ((Chronicled.aside _ _).surroundings s)
    (fun call => Chronicled.note ⟨o, before, call⟩) o slot

def runFramed (h : Digest) (s : Surroundings ε (StateM (Exposed σ))) (budget : Nat) (o : Oracle) :
    StateM (Chronicled (Exposed σ) (Frame ε)) (Option Ending × Oracle) :=
  runBy (advanceFramed h s) ((Chronicled.aside _ _).surroundings s) budget o

/-- To look at a run changes nothing. -/
theorem run_of_runFramed (h : Digest) (s : Surroundings ε (StateM (Exposed σ))) (budget : Nat)
    (o : Oracle) (w : Chronicled (Exposed σ) (Frame ε)) :
    (run h s budget o).run w.world =
      (((runFramed h s budget o).run w).1, ((runFramed h s budget o).run w).2.world) := by
  have hs : (Chronicled.erasing (Exposed σ) (Frame ε)).Surrounds
      ((Chronicled.aside _ _).surroundings s) s := Chronicled.erasing_surroundings s
  unfold run
  rw [← advanceNoting_nothing]
  refine hs.runBy (fun o slot w => ?_) budget o w
  have hnoting : (Chronicled.erasing (Exposed σ) (Frame ε)).Paired
      (advanceNoting h ((Chronicled.aside _ _).surroundings s)
        (fun call => Chronicled.note ⟨o, w.world.files, call⟩) o slot)
      (advanceNoting h s (fun _ => pure ()) o slot) :=
    hs.advanceNoting (fun _ _ => rfl) o slot
  exact hnoting w

end Definitions

section Rounds

variable {ω ε : Type} {h : Digest} {s : Surroundings ε (StateM ω)} {o o' : Oracle} {w w' : ω}
variable {note : Oracle.Call ε → StateM ω Unit} {slot : Slot} {r : Except (Failure ε) Unit}

/-- The latest checkpoint is stored after a call that asks for it, and no other one. -/
theorem afterSlot_cases (slot : Slot) {result : Except (Failure ε) SlotReport}
    (hrun : (afterSlot s result o).run w = ((r, o'), w')) :
    o' = o ∧ (r = .error .aborted → result = .error .aborted) ∧
      if (⟨slot, result, o⟩ : Oracle.Call ε).persists then (keepCheckpoint s o).run w = ((), w')
      else w' = w := by
  unfold afterSlot at hrun
  split at hrun
  · rename_i report
    split at hrun
    · rename_i hsome
      obtain ⟨⟨⟩, w₁, hkept, hrun⟩ := run_bind_cases hrun
      obtain ⟨rfl, rfl, rfl⟩ := run_pure_cases hrun
      refine ⟨rfl, nofun, ?_⟩
      rw [if_pos (by exact hsome)]
      exact hkept
    · rename_i hnone
      obtain ⟨rfl, rfl, rfl⟩ := run_pure_cases hrun
      refine ⟨rfl, nofun, ?_⟩
      rw [if_neg (by exact hnone)]
  · obtain ⟨⟨⟩, w₁, hkept, hrun⟩ := run_bind_cases hrun
    obtain ⟨rfl, rfl, rfl⟩ := run_pure_cases hrun
    exact ⟨rfl, nofun, hkept⟩
  · rename_i failure hfailure
    obtain ⟨rfl, rfl, rfl⟩ := run_pure_cases hrun
    refine ⟨rfl, fun hr => by rw [Except.error.inj hr], ?_⟩
    cases failure with
    | submission f => exact absurd rfl (hfailure f)
    | fault f | provider e | aborted => rfl

/-- Whatever becomes of a slot, the oracle is the one after the call, which was noted. -/
theorem advanceNoting_cases (hrun : (advanceNoting h s note o slot).run w = ((r, o'), w')) :
    ∃ result w₁ w₂, (o.processSlot h s.chain s.submitter slot).run w = ((result, o'), w₁) ∧
      (note ⟨slot, result, o'⟩).run w₁ = ((), w₂) ∧
      (r = .error .aborted → result = .error .aborted) ∧
      if (⟨slot, result, o'⟩ : Oracle.Call ε).persists then
        (keepCheckpoint s o').run w₂ = ((), w')
      else w' = w₂ := by
  obtain ⟨⟨result, o₁⟩, w₁, hprocessed, hrun⟩ := run_bind_cases hrun
  obtain ⟨⟨⟩, w₂, hnoted, hrun⟩ := run_bind_cases hrun
  obtain ⟨rfl, haborted, hstored⟩ := afterSlot_cases slot hrun
  exact ⟨result, w₁, w₂, hprocessed, hnoted, haborted, hstored⟩

variable {K : Oracle → ω → Prop}
variable {step : Step ε (StateM ω)}

/-- No part of a round takes a property from the oracle and the world, and no slot is cut off. -/
structure Preserves (K : Oracle → ω → Prop) (s : Surroundings ε (StateM ω))
    (step : Step ε (StateM ω)) : Prop where
  finalizedSlot : ∀ o w, K o w → K o (s.chain.finalizedSlot.run w).2
  stopped : ∀ o w, K o w → K o (s.clock.stopped.run w).2
  pause : ∀ seconds o w, K o w → K o ((s.clock.pause seconds).run w).2
  keepLedger : ∀ o w, K o w → K o ((keepLedger s o).run w).2
  step : ∀ o slot w r o' w', K o w → (step o slot).run w = ((r, o'), w') →
    K o' w' ∧ r ≠ .error .aborted

namespace Preserves

theorem of_run {α : Type} {x : StateM ω α} {a : α} (hx : K o (x.run w).2)
    (hrun : x.run w = (a, w')) : K o w' := by
  rwa [hrun] at hx

theorem advanceMany (hK : Preserves K s step) {count : Nat} (hw : K o w)
    (hrun : (Supervisor.advanceMany step s count slot o).run w = ((r, o'), w')) :
    K o' w' ∧ r ≠ .error .aborted := by
  induction count generalizing slot o w with
  | zero =>
    obtain ⟨rfl, rfl, rfl⟩ := run_pure_cases hrun
    exact ⟨hw, nofun⟩
  | succ count ih =>
    obtain ⟨stopped, w₁, hstopped, hrun⟩ := run_bind_cases hrun
    have hw₁ := of_run (hK.stopped o w hw) hstopped
    split at hrun
    · obtain ⟨rfl, rfl, rfl⟩ := run_pure_cases hrun
      exact ⟨hw₁, nofun⟩
    · obtain ⟨⟨advanced, o₁⟩, w₂, hstep, hrun⟩ := run_bind_cases hrun
      obtain ⟨hw₂, hadvanced⟩ := hK.step o slot w₁ _ _ _ hw₁ hstep
      cases advanced with
      | ok _ => exact ih hw₂ hrun
      | error failure =>
        obtain ⟨rfl, rfl, rfl⟩ := run_pure_cases hrun
        exact ⟨hw₂, hadvanced⟩

theorem catchUp (hK : Preserves K s step) (hw : K o w)
    (hrun : (Supervisor.catchUp step s o).run w = ((r, o'), w')) :
    K o' w' ∧ r ≠ .error .aborted := by
  obtain ⟨answer, w₁, hanswer, hrun⟩ := run_bind_cases hrun
  obtain ⟨finalized, w₂, hfinalized, hanswer⟩ := run_bind_cases hanswer
  have hw₂ := of_run (hK.finalizedSlot o w hw) hfinalized
  cases finalized with
  | error e =>
    obtain ⟨rfl, rfl⟩ := Prod.mk.inj hanswer
    obtain ⟨rfl, rfl, rfl⟩ := run_pure_cases hrun
    exact ⟨hw₂, nofun⟩
  | ok finalized =>
    obtain ⟨rfl, rfl⟩ := Prod.mk.inj hanswer
    dsimp only at hrun
    split at hrun
    · obtain ⟨rfl, rfl, rfl⟩ := run_pure_cases hrun
      exact ⟨hw₂, nofun⟩
    · obtain ⟨⟨advanced, o₁⟩, w₃, hmany, hrun⟩ := run_bind_cases hrun
      obtain ⟨hw₃, hadvanced⟩ := hK.advanceMany hw₂ hmany
      cases advanced with
      | ok _ =>
        obtain ⟨_, w₄, hkept, hrun⟩ := run_bind_cases hrun
        obtain ⟨rfl, rfl, rfl⟩ := run_pure_cases hrun
        exact ⟨of_run (hK.keepLedger o₁ w₃ hw₃) hkept, nofun⟩
      | error failure =>
        obtain ⟨rfl, rfl, rfl⟩ := run_pure_cases hrun
        exact ⟨hw₃, hadvanced⟩

theorem afterRound (hK : Preserves K s step) {ending : Option Ending} (hw : K o w)
    (hr : r ≠ .error .aborted) (hrun : (Supervisor.afterRound s r).run w = (ending, w')) :
    K o w' ∧ ending ≠ some .aborted := by
  unfold Supervisor.afterRound at hrun
  split at hrun
  · obtain ⟨rfl, rfl⟩ := Prod.mk.inj hrun
    exact ⟨hw, nofun⟩
  · exact absurd rfl hr
  · obtain ⟨stopped, w₁, hstopped, hrun⟩ := run_bind_cases hrun
    have hw₁ := of_run (hK.stopped o w hw) hstopped
    split at hrun
    · obtain ⟨rfl, rfl⟩ := Prod.mk.inj hrun
      exact ⟨hw₁, nofun⟩
    · obtain ⟨paused, w₂, hpaused, hrun⟩ := run_bind_cases hrun
      have hw₂ := of_run (hK.pause _ o w₁ hw₁) hpaused
      split at hrun
      all_goals
        obtain ⟨rfl, rfl⟩ := Prod.mk.inj hrun
        exact ⟨hw₂, nofun⟩

theorem rounds (hK : Preserves K s step) {budget : Nat} {ending : Option Ending} (hw : K o w)
    (hrun : (Supervisor.rounds step s budget o).run w = ((ending, o'), w')) :
    K o' w' ∧ ending ≠ some .aborted := by
  induction budget generalizing o w with
  | zero =>
    obtain ⟨rfl, rfl, rfl⟩ := run_pure_cases hrun
    exact ⟨hw, nofun⟩
  | succ budget ih =>
    obtain ⟨stopped, w₁, hstopped, hrun⟩ := run_bind_cases hrun
    have hw₁ := of_run (hK.stopped o w hw) hstopped
    split at hrun
    · obtain ⟨rfl, rfl, rfl⟩ := run_pure_cases hrun
      exact ⟨hw₁, nofun⟩
    · obtain ⟨⟨result, o₁⟩, w₂, hround, hrun⟩ := run_bind_cases hrun
      obtain ⟨hw₂, hresult⟩ := hK.catchUp hw₁ hround
      obtain ⟨after, w₃, hafter, hrun⟩ := run_bind_cases hrun
      obtain ⟨hw₃, hending⟩ := hK.afterRound hw₂ hresult hafter
      cases after with
      | none => exact ih hw₃ hrun
      | some after =>
        obtain ⟨rfl, rfl, rfl⟩ := run_pure_cases hrun
        exact ⟨hw₃, hending⟩

end Preserves

end Rounds

end Supervisor

end RewardPool
