import RewardPool.Proofs.Erasures
import RewardPool.Proofs.Networks
import RewardPool.Proofs.Saves

/-!
Runs on a disk that is not safe, with a record of their calls. All that goes on there goes on beside the
record, so a run that notes its calls comes to what the run itself comes to. What is said of all that a
world may answer is said of a run there with an invariant, as long as the invariant is about the files
and the record alone.
-/
namespace RewardPool

open Merkle (Digest)
open Mortal (outcome Ends)

namespace Judgement

variable {σ α : Type} {I : σ → Prop} {R : α → Prop}

/-- Computations that keep an invariant, even where they are cut off. -/
def guarding (I : σ → Prop) : Judgement (Mortal σ) where
  Holds x R := Ends I x I fun a _ => R a
  holds_pure ha := by
    refine (Mortal.ends_pure _).mono (fun _ hw => hw) (fun _ hw => hw) ?_
    rintro _ _ - ⟨rfl, -⟩
    exact ha
  holds_bind hx hf := Ends.bind hx (fun a w hw => hf a hw.2 w hw.1) fun _ hw => hw

theorem guarding_of_outcome {x : Mortal σ α}
    (hx : ∀ w, I w → ∃ a, outcome x w = (some a, w) ∧ R a) : (guarding I).Holds x R := by
  intro w hw
  obtain ⟨a, houtcome, ha⟩ := hx w hw
  rw [houtcome]
  exact ⟨hw, fun b hb => Option.some.inj hb ▸ ha⟩

theorem guarding_aside {ν : Type} {I : Chronicled σ ν → Prop} {x : Mortal σ α}
    (hx : ∀ record, (guarding fun w => I ⟨w, record⟩).Holds x R) :
    (guarding I).Holds ((Chronicled.aside σ ν).option.map x) R :=
  fun w hw => hx w.record w.world hw

end Judgement

namespace Exposed

variable {σ κ α : Type}

def lifting (σ : Type) : Lifting (StateM σ) (Mortal (Exposed σ)) where
  map := onWorld
  map_pure _ := rfl
  map_bind _ _ := rfl

def host (host : Host (StateM κ)) (perils : Perils κ) (base : String → Path) :
    Host (Mortal (Exposed κ)) :=
  (lifting κ).host host fun dir => disk perils (base dir)

/-- A world with files where the calls of a run are recorded. -/
abbrev Noted (κ : Type) := Chronicled (Exposed κ) (Oracle.Call NetworkFailure)

/-- What goes on where the disk is not safe goes on beside the record of the calls. -/
def noting (κ : Type) : Lifting (Mortal (Exposed κ)) (Mortal (Noted κ)) :=
  (Chronicled.aside (Exposed κ) (Oracle.Call NetworkFailure)).option

def notedHost (host : Host (StateM κ)) (perils : Perils κ) (base : String → Path) :
    Host (Mortal (Noted κ)) :=
  ((noting κ).comp (lifting κ)).host host fun dir => (noting κ).disk (disk perils (base dir))

def note (call : Oracle.Call NetworkFailure) : Mortal (Noted κ) Unit :=
  OptionT.lift (Chronicled.note call)

/-- A run that notes its calls comes to what the run itself comes to, and leaves the same. -/
theorem run_of_runNoting (h : Digest) (host : Host (StateM κ)) (perils : Perils κ)
    (base : String → Path) (s : Settings) (budget : Nat) (w : Noted κ) :
    outcome (Program.run h (Exposed.host host perils base) s budget).run w.world =
      let r := outcome
        (Program.runBy (Program.noting h note) (notedHost host perils base) s budget).run w
      (r.1, r.2.world) := by
  let P := (Chronicled.erasing (Exposed κ) (Oracle.Call NetworkFailure)).option
  have hlifts : P.Lifts ((noting κ).comp (lifting κ)) (lifting κ) :=
    fun _ => Chronicled.erasing_aside _
  have hstores : P.Stores
      ⟨s.stateDir, (noting κ).disk (disk perils (base s.stateDir))⟩
      ⟨s.stateDir, disk perils (base s.stateDir)⟩ :=
    Chronicled.erasing_store ⟨s.stateDir, disk perils (base s.stateDir)⟩
  rw [← Program.runBy_noting_nothing]
  exact Pairing.runBy hlifts host (fun dir => (noting κ).disk (disk perils (base dir)))
    (fun dir => disk perils (base dir)) s hstores (fun _ _ => rfl) budget w

/-- What is said of all that a world may answer holds beside the files and the record. -/
theorem noting_holds {I : Noted κ → Prop}
    (hI : ∀ w world, I w → I { w with world := { w.world with world } }) {x : StateM κ α}
    {R : α → Prop} (hx : Judgement.returning.Holds x R) :
    (Judgement.guarding I).Holds (((noting κ).comp (lifting κ)).map x) R := by
  intro w hw
  refine ⟨hI w _ hw, fun a ha => hx a ⟨w.world.world, ?_⟩⟩
  exact Option.some.inj ha

end Exposed

end RewardPool
