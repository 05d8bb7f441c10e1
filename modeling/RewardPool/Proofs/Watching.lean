import RewardPool.Proofs.Chronicles
import RewardPool.Proofs.TreeStores

/-!
A world that is watched while a supervisor runs in it. Nothing but the store touches the files, and
beside them the world is arbitrary. The finalized slots that the chain names are recorded, in order.
-/
namespace RewardPool

namespace Exposed

variable {σ ε : Type}

/-- What goes on in a world goes on beside the files. -/
def beside (σ : Type) : Lifting (StateM σ) (StateM (Exposed σ)) where
  map x := fun w =>
    let (a, world) := x w.world
    (a, { w with world })
  map_pure _ := rfl
  map_bind _ _ := rfl

def filing (σ : Type) : Lifting (StateM FileTree) (StateM (Exposed σ)) where
  map x := fun w =>
    let (a, files) := x w.files
    (a, { w with files })
  map_pure _ := rfl
  map_bind _ _ := rfl

/-- The surroundings of a run whose files nothing but its store touches. -/
def surroundings (chain : Chain ε (StateM σ)) (submitter : Option (Submitter ε (StateM σ)))
    (clock : Clock (StateM σ)) (store : Store (StateM FileTree)) :
    Surroundings ε (StateM (Exposed σ)) where
  chain := (beside σ).chain chain
  submitter := submitter.map (beside σ).submitter
  store := (filing σ).store store
  clock := (beside σ).clock clock

theorem governs_beside {H : History} {c : Chain ε (StateM σ)} (hH : H.Governs c) :
    H.Governs ((beside σ).chain c) := by
  refine (beside σ).governs ?_ hH
  rintro α x a ⟨w, rfl⟩
  exact ⟨w.world, rfl⟩

end Exposed

namespace Surroundings

variable {σ ε : Type}

/-- The same surroundings where each finalized slot that the chain names is recorded. -/
def watched (s : Surroundings ε (StateM σ)) : Surroundings ε (StateM (Chronicled σ Slot)) where
  chain :=
    { (Chronicled.aside σ Slot).chain s.chain with
      finalizedSlot := Chronicled.recording s.chain.finalizedSlot fun r => r.toOption.toList }
  submitter := s.submitter.map (Chronicled.aside σ Slot).submitter
  store := (Chronicled.aside σ Slot).store s.store
  clock := (Chronicled.aside σ Slot).clock s.clock

theorem governs_watched {s : Surroundings ε (StateM σ)} {H : History} (hH : H.Governs s.chain) :
    H.Governs s.watched.chain :=
  { Chronicled.governs_aside (ν := Slot) hH with }

theorem watched_spares (s : Surroundings ε (StateM σ)) : s.watched.Spares Chronicled.record where
  chain := { Chronicled.spares_aside (ν := Slot) s.chain s.submitter with }
  disk := ⟨fun _ _ => Chronicled.keeps_aside _, fun _ _ => Chronicled.keeps_aside _⟩
  stopped := Chronicled.keeps_aside _
  pause _ := Chronicled.keeps_aside _

variable {w w' : Chronicled σ Slot}

/-- The latest finalized slot is recorded if there was an answer. -/
theorem finalizedSlot_watched {s : Surroundings ε (StateM σ)} {r : Except (Failure ε) Slot}
    (h : (Oracle.finalizedSlot s.watched.chain).run w = (r, w')) :
    (∃ f, r = .ok f ∧ w'.record = w.record ++ [f]) ∨
      ∃ e, r = .error (.provider e) ∧ w'.record = w.record := by
  obtain ⟨answer, w₁, hanswer, hrest⟩ := run_bind_cases h
  have hrecorded : (Chronicled.recording s.chain.finalizedSlot
      fun r => r.toOption.toList).run w = (answer, w₁) := hanswer
  obtain ⟨-, hrecord⟩ := Chronicled.recording_cases hrecorded
  rcases answer with e | f
  · obtain ⟨rfl, rfl⟩ := Prod.mk.inj hrest
    exact .inr ⟨e, rfl, hrecord.trans (List.append_nil _)⟩
  · obtain ⟨rfl, rfl⟩ := Prod.mk.inj hrest
    exact .inl ⟨f, rfl, hrecord⟩

theorem saveLedger_watched {c : Chain ε (StateM σ)} {t : Option (Submitter ε (StateM σ))}
    {k : Clock (StateM σ)} {dir : String} {base : Path} {l : Ledger}
    {w w' : Chronicled (Exposed σ) Slot}
    (h : ((Exposed.surroundings c t k (.onTree dir base)).watched.store.saveLedger l).run.run w =
      (.ok (), w')) :
    w'.world.files.find (base ++ StoreFile.ledger.path) = .ok (some (.file l.toJson.pretty)) := by
  have hsaved : ((Store.onTree dir base).saveLedger l).run.run w.world.files =
      (.ok (), w'.world.files) := by
    change (((Chronicled.aside _ _).store ((Exposed.filing σ).store _)).saveLedger l).run.run w = _
      at h
    rw [Lifting.saveLedger, Lifting.saveLedger] at h
    exact congrArg (fun r => (r.1, r.2.world.files)) h
  exact (Store.find_of_replace hsaved).1

end Surroundings

end RewardPool
