import RewardPool.Proofs.Histories
import RewardPool.Proofs.Lifts
import RewardPool.Proofs.Observations
import RewardPool.Proofs.Pairings

/-!
A world with a record of what happened in it. What goes on in the world goes on beside the record, and
what a result tells may be added to the record. No result depends on it: so a run with a record comes to
what the run comes to without, whatever is recorded.
-/
namespace RewardPool

/-- A lifted chain answers from the same history, if a lifted question has no results of its own. -/
theorem Lifting.governs {σ τ ε : Type} (φ : Lifting (StateM σ) (StateM τ))
    (hφ : ∀ {α : Type} {x : StateM σ α} {a : α}, Returns (φ.map x) a → Returns x a) {H : History}
    {c : Chain ε (StateM σ)} (hH : H.Governs c) : H.Governs (φ.chain c) where
  block slot _ hr := hH.block slot _ (hφ hr)
  proposer slot _ hr := hH.proposer slot _ (hφ hr)
  receipts number hashes _ hr := hH.receipts number hashes _ (hφ hr)
  subscriptions first last _ hr := hH.subscriptions first last _ (hφ hr)
  unsubscriptions first last _ hr := hH.unsubscriptions first last _ (hφ hr)
  validator i slot _ hr := hH.validator i slot _ (hφ hr)

structure Chronicled (σ ν : Type) where
  world : σ
  record : List ν

namespace Chronicled

variable {σ ν ε α : Type}

/-- What goes on in a world goes on in it beside the record. -/
def aside (σ ν : Type) : Lifting (StateM σ) (StateM (Chronicled σ ν)) where
  map x := fun w =>
    let (a, world) := x w.world
    (a, { w with world })
  map_pure _ := rfl
  map_bind _ _ := rfl

/-- Adds to the record what a result tells. -/
def recording (x : StateM σ α) (tells : α → List ν) : StateM (Chronicled σ ν) α := fun w =>
  let (a, world) := x w.world
  (a, ⟨world, w.record ++ tells a⟩)

def note (event : ν) : StateM (Chronicled σ ν) Unit := recording (pure ()) fun _ => [event]

/-- A submitter of whose submissions something is recorded. -/
def submitter (tells : Hash → Except ε Hash → List ν) (s : Submitter ε (StateM σ)) :
    Submitter ε (StateM (Chronicled σ ν)) :=
  ⟨s.address, fun root => recording (s.submit root) (tells root)⟩

/-- Computations that are the same but for what they record. -/
def erasing (σ ν : Type) : Pairing (StateM (Chronicled σ ν)) (StateM σ) where
  Paired x y := ∀ w, y.run w.world = ((x.run w).1, (x.run w).2.world)
  pure _ _ := rfl
  bind {α β x y f g} hx hf w := by
    rw [run_bind_eq (hx w)]
    exact hf _ _

variable {x : StateM σ α} {a : α} {w w' : σ} {record : List ν}

theorem run_aside (hx : x.run w = (a, w')) :
    ((aside σ ν).map x).run ⟨w, record⟩ = (a, ⟨w', record⟩) := by
  have hplain : x w = (a, w') := hx
  show ((x w).1, Chronicled.mk (x w).2 record) = _
  rw [hplain]

theorem run_recording (hx : x.run w = (a, w')) (tells : α → List ν) :
    (recording x tells).run ⟨w, record⟩ = (a, ⟨w', record ++ tells a⟩) := by
  have hplain : x w = (a, w') := hx
  show ((x w).1, Chronicled.mk (x w).2 (record ++ tells (x w).1)) = _
  rw [hplain]

theorem recording_cases {tells : α → List ν} {v v' : Chronicled σ ν}
    (hrun : (recording x tells).run v = (a, v')) :
    x.run v.world = (a, v'.world) ∧ v'.record = v.record ++ tells a := by
  obtain ⟨⟨b, world⟩, hx⟩ : ∃ done, x.run v.world = done := ⟨_, rfl⟩
  obtain ⟨rfl, rfl⟩ := Prod.mk.inj ((run_recording hx tells).symm.trans hrun)
  exact ⟨hx, rfl⟩

theorem keeps_aside (x : StateM σ α) : Keeps Chronicled.record ((aside σ ν).map x) := fun _ => rfl

theorem governs_aside {H : History} {c : Chain ε (StateM σ)} (hH : H.Governs c) :
    H.Governs ((aside σ ν).chain c) := by
  refine (aside σ ν).governs ?_ hH
  rintro α x a ⟨v, rfl⟩
  exact ⟨v.world, rfl⟩

theorem quiet_aside (c : Chain ε (StateM σ)) :
    ((aside σ ν).chain c).Quiet Chronicled.record where
  block _ := keeps_aside _
  proposer _ := keeps_aside _
  receipts _ _ := keeps_aside _
  subscriptions _ _ := keeps_aside _
  unsubscriptions _ _ := keeps_aside _
  validator _ _ := keeps_aside _

/-- Nothing beside the record adds to it. -/
theorem spares_aside (c : Chain ε (StateM σ)) (t : Option (Submitter ε (StateM σ))) :
    ((aside σ ν).chain c).Spares Chronicled.record (t.map (aside σ ν).submitter) where
  toQuiet := quiet_aside c
  whitelisted _ _ := keeps_aside _
  submit s hs root := by
    obtain ⟨t', -, rfl⟩ := Option.map_eq_some_iff.mp hs
    exact keeps_aside _

end Chronicled

end RewardPool
