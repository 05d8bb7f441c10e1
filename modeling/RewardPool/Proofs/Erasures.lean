import RewardPool.Proofs.Chronicles
import RewardPool.Proofs.ParallelRuns

/-!
To keep a record changes nothing. What goes on beside a record, and what adds to it, are the same as
without it once the record is erased, and so are the surroundings that are made of them. What a run with
a record comes to is then what the run itself comes to, by the pairing of runs.
-/
namespace RewardPool.Chronicled

variable {σ ν ε α : Type}

theorem erasing_aside (x : StateM σ α) : (erasing σ ν).Paired ((aside σ ν).map x) x :=
  fun _ => rfl

theorem erasing_recording (x : StateM σ α) (tells : α → List ν) :
    (erasing σ ν).Paired (recording x tells) x :=
  fun _ => rfl

theorem erasing_chain (c : Chain ε (StateM σ)) :
    (erasing σ ν).Chains ((aside σ ν).chain c) c where
  block _ _ := rfl
  proposer _ _ := rfl
  receipts _ _ _ := rfl
  subscriptions _ _ _ := rfl
  unsubscriptions _ _ _ := rfl
  validator _ _ _ := rfl
  finalizedSlot _ := rfl
  whitelisted _ _ _ := rfl

theorem erasing_submitter (tells : Hash → Except ε Hash → List ν) (s : Submitter ε (StateM σ)) :
    (erasing σ ν).Submits (submitter tells s) s where
  address := rfl
  submit _ := erasing_recording _ _

theorem erasing_submitters (t : Option (Submitter ε (StateM σ))) :
    Option.Rel (erasing σ ν).Submits (t.map (aside σ ν).submitter) t := by
  cases t with
  | none => exact .none
  | some s => exact .some ⟨rfl, fun _ _ => rfl⟩

theorem erasing_surroundings (s : Surroundings ε (StateM σ)) :
    (erasing σ ν).Surrounds ((aside σ ν).surroundings s) s where
  chain := erasing_chain s.chain
  submitter := erasing_submitters s.submitter
  saveLedger l := by
    show (erasing σ ν).Paired (((aside σ ν).store s.store).saveLedger l).run _
    rw [(aside σ ν).saveLedger]
    exact fun _ => rfl
  saveCheckpoint c := by
    show (erasing σ ν).Paired (((aside σ ν).store s.store).saveCheckpoint c).run _
    rw [(aside σ ν).saveCheckpoint]
    exact fun _ => rfl
  stopped _ := rfl
  pause _ _ := rfl

/-- The same where the store may be cut off. -/
theorem erasing_store (s : Store (OptionT (StateM σ))) :
    (erasing σ ν).option.Stores ((aside σ ν).option.store s) s where
  dir := rfl
  makeDirs _ := erasing_aside _
  isThere _ := erasing_aside _
  read _ := erasing_aside _
  write _ _ := erasing_aside _
  rename _ _ := erasing_aside _

end RewardPool.Chronicled
