import RewardPool.Proofs.Lifts
import RewardPool.Proofs.Uninterrupted

/-!
A supervisor that notes each call for a slot before it stores anything. With notes that do nothing it is
the supervisor itself. If all that surrounds it passes a judgement as long as the ledger is one of the run
that is never interrupted, and only calls that this run accounts for are noted, then the whole run passes.
-/
namespace RewardPool

open Merkle (Digest)

/-- Processes a slot and notes the call. -/
def Supervisor.advanceNoting {ε : Type} {m : Type → Type} [Monad m] (h : Digest)
    (s : Surroundings ε m) (note : Oracle.Call ε → m Unit) : Step ε m := fun o slot => do
  let (result, o) ← o.processSlot h s.chain s.submitter slot
  note ⟨slot, result, o⟩
  afterSlot s result o

theorem Supervisor.advanceNoting_nothing {ε : Type} {m : Type → Type} [Monad m] [LawfulMonad m]
    (h : Digest) (s : Surroundings ε m) : advanceNoting h s (fun _ => pure ()) = advance h s := by
  funext o slot
  refine bind_congr fun r => ?_
  exact pure_bind _ _

namespace Program

variable {m : Type → Type} [Monad m]

/-- The way of a supervisor that notes its calls. -/
def noting (h : Digest) (note : Oracle.Call NetworkFailure → m Unit) : Stepping m := fun s =>
  Supervisor.advanceNoting h s fun call => Network.online (note call)

/-- A run with notes that do nothing is the run itself. -/
theorem runBy_noting_nothing [LawfulMonad m] (h : Digest) (host : Host m) (s : Settings)
    (budget : Nat) : runBy (noting h fun _ => pure ()) host s budget = run h host s budget := by
  have hnote : (fun _ : Oracle.Call NetworkFailure => Network.online (pure () : m Unit)) =
      fun _ => pure () :=
    funext fun _ => (Lifting.online m).map_pure ()
  have hstep : noting h (fun _ => (pure () : m Unit)) = Supervisor.advance h := by
    funext s
    unfold noting
    rw [hnote, Supervisor.advanceNoting_nothing]
  rw [hstep]
  rfl

end Program

namespace Supervisor

variable {ε : Type} {m : Type → Type} [Monad m] {J : Judgement m} {H : History} {h : Digest}
variable {config : Config} {s : Surroundings ε m} {note : Oracle.Call ε → m Unit} {o : Oracle}

/-- An oracle on a ledger of the run that is never interrupted. -/
def OnTrack (H : History) (config : Config) (o : Oracle) : Prop :=
  o.config = config ∧ ∃ n, H.Replayed config n o.ledger

/-- The surroundings of a run pass a judgement: what is saved is a ledger of the run that is never
interrupted, and what is noted are calls that it accounts for. -/
structure Supports (J : Judgement m) (H : History) (h : Digest) (config : Config)
    (s : Surroundings ε m) (note : Oracle.Call ε → m Unit) : Prop where
  grants : J.Grants H s.chain
  sends : J.Sends s.chain s.submitter
  finalizedSlot : J.Passes s.chain.finalizedSlot
  stopped : J.Passes s.clock.stopped
  pause : ∀ seconds, J.Passes (s.clock.pause seconds)
  saveCheckpoint : ∀ c, J.Passes (s.store.saveCheckpoint c).run
  saveLedger : ∀ n l, H.Replayed config n l → J.Passes (s.store.saveLedger l).run
  note : ∀ call, (call.settles = true → H.Accounts h config call) → J.Passes (note call)

theorem keepLedger_passes (hs : Supports J H h config s note) (ho : OnTrack H config o) :
    J.Passes (keepLedger s o) := by
  obtain ⟨-, n, hl⟩ := ho
  refine Judgement.passes_bind (hs.saveLedger n _ hl) fun r => ?_
  cases r <;> exact J.passes_pure _

theorem keepCheckpoint_passes (hs : Supports J H h config s note) (ho : OnTrack H config o) :
    J.Passes (keepCheckpoint s o) := by
  unfold keepCheckpoint
  split
  · exact J.passes_pure _
  · refine Judgement.passes_bind (hs.saveCheckpoint _) fun r => ?_
    cases r with
    | ok _ => exact Judgement.passes_bind (keepLedger_passes hs ho) fun _ => J.passes_pure _
    | error e => exact J.passes_pure _

theorem afterSlot_holds (hs : Supports J H h config s note) (ho : OnTrack H config o)
    (r : Except (Failure ε) SlotReport) :
    J.Holds (afterSlot s r o) fun r => OnTrack H config r.2 := by
  unfold afterSlot
  split
  · split
    · exact J.holds_bind (keepCheckpoint_passes hs ho) fun _ _ => J.holds_pure ho
    · exact J.holds_pure ho
  · exact J.holds_bind (keepCheckpoint_passes hs ho) fun _ _ => J.holds_pure ho
  · exact J.holds_pure ho

theorem advanceNoting_holds [LawfulMonad m] (hs : Supports J H h config s note)
    (ho : OnTrack H config o) (slot : Slot) :
    J.Holds (advanceNoting h s note o slot) fun r => OnTrack H config r.2 := by
  refine J.holds_bind (Judgement.processSlot_holds hs.grants hs.sends o slot) fun r hcame => ?_
  obtain ⟨result, o'⟩ := r
  obtain ⟨hledger, hconfig, haccounts⟩ := History.Replayed.came ho.2 ho.1 hcame
  refine J.holds_bind (hs.note _ haccounts) fun _ _ => ?_
  exact afterSlot_holds hs ⟨hconfig, hledger⟩ result

variable {step : Step ε m}

theorem advanceMany_holds (hs : Supports J H h config s note)
    (hstep : ∀ o slot, OnTrack H config o → J.Holds (step o slot) fun r => OnTrack H config r.2)
    (ho : OnTrack H config o) (count : Nat) (slot : Slot) :
    J.Holds (advanceMany step s count slot o) fun r => OnTrack H config r.2 := by
  induction count generalizing slot o with
  | zero => exact J.holds_pure ho
  | succ count ih =>
    refine J.holds_bind hs.stopped fun stopped _ => ?_
    split
    · exact J.holds_pure ho
    · refine J.holds_bind (hstep o slot ho) fun r ho' => ?_
      rcases r with ⟨failure | _, o'⟩
      · exact J.holds_pure ho'
      · exact ih ho' (slot + 1)

theorem catchUp_holds (hs : Supports J H h config s note)
    (hstep : ∀ o slot, OnTrack H config o → J.Holds (step o slot) fun r => OnTrack H config r.2)
    (ho : OnTrack H config o) :
    J.Holds (catchUp step s o) fun r => OnTrack H config r.2 := by
  have hfinalized : J.Passes (Oracle.finalizedSlot s.chain) := by
    refine Judgement.passes_bind hs.finalizedSlot fun r => ?_
    cases r <;> exact J.passes_pure _
  refine J.holds_bind hfinalized fun answer _ => ?_
  rcases answer with failure | finalized
  · exact J.holds_pure ho
  · dsimp only
    split
    · exact J.holds_pure ho
    · refine J.holds_bind (advanceMany_holds hs hstep ho _ _) fun r ho' => ?_
      rcases r with ⟨failure | _, o'⟩
      · exact J.holds_pure ho'
      · exact J.holds_bind (keepLedger_passes hs ho') fun _ _ => J.holds_pure ho'

theorem afterRound_passes (hs : Supports J H h config s note) (r : Except (Failure ε) Unit) :
    J.Passes (afterRound s r) := by
  unfold afterRound
  split
  · exact J.passes_pure _
  · exact J.passes_pure _
  · refine Judgement.passes_bind hs.stopped fun stopped => ?_
    split
    · exact J.passes_pure _
    · refine Judgement.passes_bind (hs.pause _) fun paused => ?_
      split <;> exact J.passes_pure _

theorem rounds_holds (hs : Supports J H h config s note)
    (hstep : ∀ o slot, OnTrack H config o → J.Holds (step o slot) fun r => OnTrack H config r.2)
    (ho : OnTrack H config o) (budget : Nat) :
    J.Holds (rounds step s budget o) fun r => OnTrack H config r.2 := by
  induction budget generalizing o with
  | zero => exact J.holds_pure ho
  | succ budget ih =>
    refine J.holds_bind hs.stopped fun stopped _ => ?_
    split
    · exact J.holds_pure ho
    · refine J.holds_bind (catchUp_holds hs hstep ho) fun r ho' => ?_
      refine J.holds_bind (afterRound_passes hs r.1) fun ending _ => ?_
      cases ending with
      | none => exact ih ho'
      | some ending => exact J.holds_pure ho'

/-- Whatever becomes of it, a run that begins on the right track passes. -/
theorem runBy_passes [LawfulMonad m] (hs : Supports J H h config s note)
    (ho : OnTrack H config o) (budget : Nat) :
    J.Passes (runBy (advanceNoting h s note) s budget o) := by
  have hstep := fun o slot ho => advanceNoting_holds (o := o) hs ho slot
  refine J.holds_bind (rounds_holds hs hstep ho budget) fun r ho' => ?_
  obtain ⟨ending, o'⟩ := r
  obtain ⟨-, n, hl⟩ := ho'
  cases ending with
  | none => exact J.passes_pure _
  | some ending =>
    have hconclude : J.Passes (conclude s o' ending) := by
      unfold conclude
      split
      · exact J.passes_pure _
      · refine Judgement.passes_bind (hs.saveLedger n _ hl) fun r => ?_
        cases r <;> exact J.passes_pure _
    exact Judgement.passes_bind hconclude fun _ => J.passes_pure _

end Supervisor

end RewardPool
