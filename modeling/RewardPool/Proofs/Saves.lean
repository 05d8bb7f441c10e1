import RewardPool.Proofs.Perils

/-!
What a reader is told of a store that was saved to, whatever became of the saves. A shelf that the
files spell is told as it is, so a save is judged by what it does to the shelf: a checkpoint comes to
stand under its root before the pointer is moved to it, and a ledger takes the place of the one before.
-/
namespace RewardPool

open Mortal (outcome Ends Saves)

namespace FileTree

variable {t : FileTree} {base place : Path}

/-- A directory is created once all directories above it are there. -/
theorem makeDirs_of_locate {p : Path} {n : Option Node} (hlocate : t.locate p = .ok place)
    (hnode : t.node? place = n) (hfile : ∀ text, n ≠ some (.file text)) :
    t.makeDirs p = .ok (if n = some .directory then t else t.put place .directory) := by
  have hmake : t.makeDir p = .ok (if n = some .directory then t else t.put place .directory) := by
    unfold makeDir
    rw [hlocate]
    refine except_bind_eq_ok.mpr ⟨_, rfl, ?_⟩
    rw [hnode]
    rcases n with _ | text | _
    · rfl
    · exact absurd rfl (hfile text)
    · rfl
  unfold makeDirs
  rw [hmake]

end FileTree

namespace Exposed

variable {σ α : Type} {perils : Perils σ} {base place : Path} {dir text : String} {s s' : Shelf}
variable {f : StoreFile} {w w' : Exposed σ} {root : Hash} {c : Checkpoint} {l : Ledger}

theorem outcome_onFiles {x : StateM FileTree α} {a : α} {t : FileTree}
    (hx : x.run w.files = (a, t)) : outcome (onFiles x) w = (some a, { w with files := t }) := by
  show (some (x.run w.files).1, { w with files := (x.run w.files).2 }) = _
  rw [hx]

theorem outcome_orElse {op : Mortal (Exposed σ) (Except DiskFault α)}
    {error : DiskFault → StoreError} {a : α}
    (hop : outcome op w = (some (.ok a), w')) :
    outcome (Store.orElse op error).run w = (some (.ok a), w') := by
  show outcome (op >>= _) w = _
  rw [Mortal.outcome_bind_of_some hop]
  rfl

/-- Once the directory is created, its files spell the shelf. -/
def Opens (base place : Path) (s : Shelf) (w : Exposed σ) : Prop :=
  ∃ files, w.files.makeDirs (base ++ [StoreFile.checkpointsDir]) = .ok files ∧
    Holds base place s { w with files }

theorem Opens.openDir (perils : Perils σ) (dir : String) (hw : Opens base place s w) :
    ∃ files, outcome (store perils base dir).openDir.run w = (some (.ok ()), { w with files }) ∧
      Holds base place s { w with files } := by
  obtain ⟨files, hmake, hholds⟩ := hw
  have hrun : ((FileTree.disk base).makeDirs [StoreFile.checkpointsDir]).run w.files =
      (.ok (), files) := FileTree.run_act_map hmake
  exact ⟨files, outcome_orElse (outcome_onFiles hrun), hholds⟩

/-- An empty directory that is opened spells the empty shelf. -/
theorem opens_of_empty (hbase : w.files.locate base = .ok place) (hstands : w.files.Stands place)
    (hbare : ∀ p ≠ [], w.files.node? (place ++ p) = none) : Opens base place .empty w := by
  have hplace : w.files.node? place = some .directory := hstands place (List.prefix_refl _)
  have hlocate : w.files.locate (base ++ [StoreFile.checkpointsDir]) =
      .ok (place ++ [StoreFile.checkpointsDir]) :=
    FileTree.locate_concat hbase hplace (by decide) (by decide)
  have hnone : w.files.node? (place ++ [StoreFile.checkpointsDir]) = none := hbare _ (by simp)
  have hmake := FileTree.makeDirs_of_locate hlocate hnone nofun
  rw [if_neg nofun] at hmake
  refine ⟨_, hmake, ?_⟩
  have hput := w.files.node?_put_of_ne_nil (p := place ++ [StoreFile.checkpointsDir]) .directory
    (by simp)
  have hkept : ∀ q, w.files.Stands q →
      (w.files.put (place ++ [StoreFile.checkpointsDir]) .directory).node? q = some .directory := by
    intro q hq
    rw [hput]
    split
    · rfl
    · exact hq q (List.prefix_refl q)
  have hbelow : ∀ p ≠ [], p ≠ [StoreFile.checkpointsDir] →
      (w.files.put (place ++ [StoreFile.checkpointsDir]) .directory).node? (place ++ p) = none := by
    intro p hp hother
    rw [hput, if_neg fun heq => hother (List.append_cancel_left heq)]
    exact hbare p hp
  constructor
  · exact FileTree.locate_of_stands hkept hbase
  · intro q hq
    rcases List.prefix_concat_iff.mp hq with rfl | hprefix
    · rw [hput, if_pos rfl]
    · exact hkept q (hstands.of_prefix hprefix)
  · intro f
    rw [hbelow f.path (f.leads_path.append_ne_nil []) f.path_ne_dir]
    cases f <;> rfl
  · intro f
    rw [hbelow f.draft (f.leads_draft.append_ne_nil []) f.draft_ne_dir]
    exact nofun

theorem opens_nothing (world : σ) : Opens [] [] .empty ⟨world, .empty⟩ := by
  have hstands : FileTree.empty.Stands [] := by
    intro q hq
    rw [List.prefix_nil.mp hq]
    rfl
  have hbare : ∀ p ≠ [], FileTree.empty.node? ([] ++ p) = none := by
    intro p hp
    simp [FileTree.node?, FileTree.empty, hp]
  have hbase : FileTree.empty.locate [] = .ok [] := rfl
  exact opens_of_empty hbase hstands hbare

/-- A directory whose files spell a shelf is opened as it is. -/
theorem opens_of_holds (hw : Holds base place s w) : Opens base place s w := by
  have hdir := hw.stands _ (List.prefix_refl _)
  have hlocate : w.files.locate (base ++ [StoreFile.checkpointsDir]) =
      .ok (place ++ [StoreFile.checkpointsDir]) :=
    hw.locate (.top (by constructor <;> decide))
  have hmake := FileTree.makeDirs_of_locate hlocate hdir nofun
  rw [if_pos rfl] at hmake
  exact ⟨w.files, hmake, hw⟩

theorem saveCheckpoint_saves (perils : Perils σ) (dir : String) (s : Shelf) (c : Checkpoint) :
    Saves (Holds base place s) ((store perils base dir).saveCheckpoint c).run
      (fun w => Holds base place s w ∨ Holds base place (s.keep c) w ∨
        Holds base place ((s.keep c).point c.root) w)
      (Holds base place ((s.keep c).point c.root)) := by
  refine (replace_saves perils dir (s.text?_keep c)).andThen ?_ ?_
  · exact (replace_saves perils dir ((s.keep c).text?_point c.root)).mono (fun w hw => hw.2)
      (fun w hw => .inr hw) (fun w hw => hw)
  · rintro w (hw | hw)
    · exact .inl hw
    · exact .inr (.inl hw)

theorem saveLedger_saves (perils : Perils σ) (dir : String) (s : Shelf) (l : Ledger) :
    Saves (Holds base place s) ((store perils base dir).saveLedger l).run
      (fun w => Holds base place s w ∨ Holds base place (s.keepLedger l) w)
      (Holds base place (s.keepLedger l)) :=
  replace_saves perils dir (s.text?_keepLedger l)

/-- A file of which the shelf has something is there with its text, and no other one is there. -/
theorem contents?_outcome (perils : Perils σ) (dir : String) (hw : Holds base place s w)
    (f : StoreFile) :
    outcome ((store perils base dir).contents? f).run w = (some (.ok (s.text? f)), w) := by
  have hthere : outcome (liftM (m := Mortal (Exposed σ)) (n := ExceptT StoreError (Mortal (Exposed σ)))
      ((store perils base dir).disk.isThere f.path)).run w =
        (some (.ok (w.files.isThere (base ++ f.path))), w) := rfl
  rw [hw.isThere f] at hthere
  unfold Store.contents?
  rw [Mortal.outcome_run_bind hthere]
  cases htext : s.text? f with
  | none => rfl
  | some text =>
    have hread : outcome ((store perils base dir).disk.read f.path) w = (some (.ok text), w) :=
      outcome_onFiles (FileTree.run_act (by rw [hw.read htext]; rfl))
    have hsome : outcome (some <$> Store.orElse ((store perils base dir).disk.read f.path)
        (.read ((store perils base dir).text f.path))).run w = (some (.ok (some text)), w) := by
      rw [map_eq_pure_bind, Mortal.outcome_run_bind (outcome_orElse hread)]
      rfl
    exact hsome

/-- What is told of a file is what its text spells, if it is there. -/
theorem load?_outcome [JsonForm α] (perils : Perils σ) (dir : String) (hw : Holds base place s w)
    {f : StoreFile} {a : Option α}
    (ha : ∀ text ∈ s.text? f, ∃ b, a = some b ∧ JsonForm.parse? text = some b)
    (hnone : s.text? f = none → a = none) :
    outcome ((store perils base dir).load? f).run w = (some (.ok a), w) := by
  unfold Store.load?
  rw [Mortal.outcome_run_bind (contents?_outcome perils dir hw f)]
  cases htext : s.text? f with
  | none =>
    rw [hnone htext]
    rfl
  | some text =>
    obtain ⟨b, rfl, hparse⟩ := ha text htext
    dsimp only
    rw [hparse]
    rfl

theorem loadCheckpoint?_outcome (perils : Perils σ) (dir : String) (hw : Holds base place s w)
    (root : Hash) :
    outcome ((store perils base dir).loadCheckpoint? root).run w =
      (some (.ok (s.checkpoints root)), w) := by
  refine load?_outcome perils dir hw ?_ ?_
  · intro text htext
    obtain ⟨c, hc, rfl⟩ := Option.map_eq_some_iff.mp htext
    exact ⟨c, hc, c.parse?_pretty⟩
  · exact fun hnone => Option.map_eq_none_iff.mp hnone

theorem loadLedger?_outcome (perils : Perils σ) (dir : String) (hw : Holds base place s w) :
    outcome (store perils base dir).loadLedger?.run w = (some (.ok s.ledger), w) := by
  refine load?_outcome perils dir hw ?_ ?_
  · intro text htext
    obtain ⟨l, hl, rfl⟩ := Option.map_eq_some_iff.mp htext
    exact ⟨l, hl, l.parse?_pretty⟩
  · exact fun hnone => Option.map_eq_none_iff.mp hnone

theorem latestRoot?_outcome (perils : Perils σ) (dir : String) (hw : Holds base place s w) :
    outcome (store perils base dir).latestRoot?.run w = (some (.ok s.latest), w) := by
  unfold Store.latestRoot?
  rw [Mortal.outcome_run_bind (contents?_outcome perils dir hw .latest)]
  cases hlatest : s.latest with
  | none =>
    have htext : s.text? .latest = none := Option.map_eq_none_iff.mpr hlatest
    rw [htext]
    rfl
  | some root =>
    have htext : s.text? .latest = some (root.text ++ "\n") :=
      Option.map_eq_some_iff.mpr ⟨root, hlatest, rfl⟩
    rw [htext]
    dsimp only
    rw [root.ofText?_trim]
    rfl

/-- The pointer of a sound shelf leads to a checkpoint. -/
theorem latestCheckpoint?_outcome (perils : Perils σ) (dir : String) (hw : Holds base place s w)
    (hs : s.Sound) :
    outcome (store perils base dir).latestCheckpoint?.run w =
      (some (.ok s.latestCheckpoint?), w) := by
  unfold Store.latestCheckpoint? Shelf.latestCheckpoint?
  rw [Mortal.outcome_run_bind (latestRoot?_outcome perils dir hw)]
  cases hlatest : s.latest with
  | none => rfl
  | some root =>
    obtain ⟨c, hc⟩ := Option.isSome_iff_exists.mp (hs root hlatest)
    dsimp only
    rw [Mortal.outcome_run_bind (loadCheckpoint?_outcome perils dir hw root), hc]
    rw [Option.bind_some, hc]
    rfl

/-- What a reader is told in a world. -/
def told (x : ExceptT StoreError (Mortal (Exposed σ)) α) (w : Exposed σ) :
    Option (Except StoreError α) :=
  (outcome x.run w).1

/-- The world after a save, whether or not it came to its end. -/
def after (x : ExceptT StoreError (Mortal (Exposed σ)) Unit) (w : Exposed σ) : Exposed σ :=
  (outcome x.run w).2

/-- All that is told of the store is what is on the shelf. -/
structure Tells (store : Store (Mortal (Exposed σ))) (s : Shelf) (w : Exposed σ) : Prop where
  latest : told store.latestCheckpoint? w = some (.ok s.latestCheckpoint?)
  checkpoint : ∀ root, told (store.loadCheckpoint? root) w = some (.ok (s.checkpoints root))
  ledger : told store.loadLedger? w = some (.ok s.ledger)

theorem tells_of_holds (perils : Perils σ) (dir : String) (hw : Holds base place s w)
    (hs : s.Sound) : Tells (store perils base dir) s w where
  latest := congrArg Prod.fst (latestCheckpoint?_outcome perils dir hw hs)
  checkpoint root := congrArg Prod.fst (loadCheckpoint?_outcome perils dir hw root)
  ledger := congrArg Prod.fst (loadLedger?_outcome perils dir hw)

end Exposed

namespace Shelf

variable {s s' : Shelf} {c : Checkpoint}

/-- What may become of a shelf while a checkpoint is saved. -/
structure Meanwhile (s : Shelf) (c : Checkpoint) (s' : Shelf) : Prop where
  sound : s'.Sound
  latest : s'.latestCheckpoint? = s.latestCheckpoint? ∨ s'.latestCheckpoint? = some c
  own : s'.checkpoints c.root = s.checkpoints c.root ∨ s'.checkpoints c.root = some c
  others : ∀ root ≠ c.root, s'.checkpoints root = s.checkpoints root
  ledger : s'.ledger = s.ledger

theorem Sound.meanwhile (hs : s.Sound) (c : Checkpoint) : s.Meanwhile c s :=
  ⟨hs, .inl rfl, .inl rfl, fun _ _ => rfl, rfl⟩

/-- If the pointer names the root already, the checkpoint is the latest one before it is moved. -/
theorem Sound.meanwhile_keep (hs : s.Sound) (c : Checkpoint) : s.Meanwhile c (s.keep c) where
  sound := hs.keep c
  latest := by
    unfold latestCheckpoint?
    cases hlatest : s.latest with
    | none => exact .inl (by simp [Shelf.keep, hlatest])
    | some root =>
      by_cases hroot : root = c.root
      · exact .inr (by simp [Shelf.keep, hlatest, hroot])
      · exact .inl (by simp [Shelf.keep, hlatest, hroot])
  own := .inr (if_pos rfl)
  others _ hroot := if_neg hroot
  ledger := rfl

theorem latestCheckpoint?_point (s : Shelf) (c : Checkpoint) :
    ((s.keep c).point c.root).latestCheckpoint? = some c := by
  simp [latestCheckpoint?, point, keep]

theorem meanwhile_point (s : Shelf) (c : Checkpoint) :
    s.Meanwhile c ((s.keep c).point c.root) where
  sound := sound_point (by simp [keep])
  latest := .inr (s.latestCheckpoint?_point c)
  own := .inr (if_pos rfl)
  others _ hroot := if_neg hroot
  ledger := rfl

end Shelf

namespace Exposed

variable {σ : Type} {perils : Perils σ} {base place : Path} {s : Shelf} {w : Exposed σ}

theorem after_saveCheckpoint (perils : Perils σ) (dir : String) (hw : Holds base place s w)
    (hs : s.Sound) (c : Checkpoint) :
    ∃ s', Holds base place s' (after ((store perils base dir).saveCheckpoint c) w) ∧
      s.Meanwhile c s' ∧ (told ((store perils base dir).saveCheckpoint c) w = some (.ok ()) →
        s'.latestCheckpoint? = some c) := by
  obtain ⟨hleft, hdone⟩ := saveCheckpoint_saves perils dir s c w hw
  by_cases hok : told ((store perils base dir).saveCheckpoint c) w = some (.ok ())
  · exact ⟨_, hdone _ hok rfl, s.meanwhile_point c, fun _ => s.latestCheckpoint?_point c⟩
  · rcases hleft with h | h | h
    · exact ⟨_, h, hs.meanwhile c, fun hok' => absurd hok' hok⟩
    · exact ⟨_, h, hs.meanwhile_keep c, fun hok' => absurd hok' hok⟩
    · exact ⟨_, h, s.meanwhile_point c, fun hok' => absurd hok' hok⟩

theorem after_saveLedger (perils : Perils σ) (dir : String) (hw : Holds base place s w)
    (l : Ledger) :
    ∃ s', Holds base place s' (after ((store perils base dir).saveLedger l) w) ∧
      (s' = s ∨ s' = s.keepLedger l) ∧
      (told ((store perils base dir).saveLedger l) w = some (.ok ()) → s' = s.keepLedger l) := by
  obtain ⟨hleft, hdone⟩ := saveLedger_saves perils dir s l w hw
  by_cases hok : told ((store perils base dir).saveLedger l) w = some (.ok ())
  · exact ⟨_, hdone _ hok rfl, .inr rfl, fun _ => rfl⟩
  · rcases hleft with h | h
    · exact ⟨_, h, .inl rfl, fun hok' => absurd hok' hok⟩
    · exact ⟨_, h, .inr rfl, fun _ => rfl⟩

/-- One of the two saves. -/
inductive Saving where
  | checkpoint (c : Checkpoint)
  | ledger (l : Ledger)

def Saving.into (store : Store (Mortal (Exposed σ))) :
    Saving → ExceptT StoreError (Mortal (Exposed σ)) Unit
  | .checkpoint c => store.saveCheckpoint c
  | .ledger l => store.saveLedger l

/-- What every save keeps of a shelf, whatever becomes of the save. -/
structure Lasting (I : Shelf → Prop) : Prop where
  sound : ∀ {s : Shelf}, I s → s.Sound
  meanwhile : ∀ {s s' : Shelf} {c : Checkpoint}, I s → s.Meanwhile c s' → I s'
  keepLedger : ∀ {s : Shelf} (l : Ledger), I s → I (s.keepLedger l)

theorem lasting_sound : Lasting Shelf.Sound := ⟨id, fun _ h => h.sound, fun _ h => h⟩

variable {I : Shelf → Prop}

theorem Lasting.after (hI : Lasting I) (perils : Perils σ) (dir : String) (saving : Saving)
    (hw : ∃ s, I s ∧ Holds base place s w) :
    ∃ s, I s ∧ Holds base place s (after (saving.into (store perils base dir)) w) := by
  obtain ⟨s, hs, hw⟩ := hw
  cases saving with
  | checkpoint c =>
    obtain ⟨s', hw', hmeanwhile, -⟩ := after_saveCheckpoint perils dir hw (hI.sound hs) c
    exact ⟨s', hI.meanwhile hs hmeanwhile, hw'⟩
  | ledger l =>
    obtain ⟨s', hw', hcases, -⟩ := after_saveLedger perils dir hw l
    rcases hcases with rfl | rfl
    · exact ⟨s', hs, hw'⟩
    · exact ⟨_, hI.keepLedger l hs, hw'⟩

theorem Lasting.after_all (hI : Lasting I) (perils : Perils σ) (dir : String)
    (earlier : List Saving) (hw : ∃ s, I s ∧ Holds base place s w) :
    ∃ s, I s ∧ Holds base place s
      (earlier.foldl (fun w saving => Exposed.after (saving.into (store perils base dir)) w) w) := by
  induction earlier generalizing w with
  | nil => exact hw
  | cons saving rest ih => exact ih (hI.after perils dir saving hw)

theorem sound_after_all (perils : Perils σ) (dir : String) (earlier : List Saving)
    (hw : ∃ s : Shelf, s.Sound ∧ Holds base place s w) :
    ∃ s : Shelf, s.Sound ∧ Holds base place s
      (earlier.foldl (fun w saving => after (saving.into (store perils base dir)) w) w) :=
  lasting_sound.after_all perils dir earlier hw

/-- After any saves to a directory that was opened empty, whatever became of them, the latest
checkpoint is told, and whatever becomes of one more save, it changes nothing but what it saves, and
that as a whole: the new value is told, or the old one. A save that came to its end is told. -/
theorem save_is_atomic (perils : Perils σ) (dir : String) {base place : Path} {start : Exposed σ}
    (hopened : Holds base place .empty start) (earlier : List Saving) :
    let store := store perils base dir
    let w := earlier.foldl (fun w saving => after (saving.into store) w) start
    ∃ latest, told store.latestCheckpoint? w = some (.ok latest) ∧
      (∀ c, let w' := after (store.saveCheckpoint c) w
        (told store.latestCheckpoint? w' = some (.ok latest) ∨
          told store.latestCheckpoint? w' = some (.ok (some c))) ∧
        (∀ root ≠ c.root,
          told (store.loadCheckpoint? root) w' = told (store.loadCheckpoint? root) w) ∧
        told store.loadLedger? w' = told store.loadLedger? w ∧
        (told (store.loadCheckpoint? c.root) w' = told (store.loadCheckpoint? c.root) w ∨
          told (store.loadCheckpoint? c.root) w' = some (.ok (some c))) ∧
        (told (store.saveCheckpoint c) w = some (.ok ()) →
          told store.latestCheckpoint? w' = some (.ok (some c)))) ∧
      ∀ l, let w' := after (store.saveLedger l) w
        (told store.loadLedger? w' = told store.loadLedger? w ∨
          told store.loadLedger? w' = some (.ok (some l))) ∧
        told store.latestCheckpoint? w' = some (.ok latest) ∧
        (∀ root, told (store.loadCheckpoint? root) w' = told (store.loadCheckpoint? root) w) ∧
        (told (store.saveLedger l) w = some (.ok ()) →
          told store.loadLedger? w' = some (.ok (some l))) := by
  intro store w
  obtain ⟨s, hs, hw⟩ := sound_after_all perils dir earlier ⟨_, Shelf.sound_empty, hopened⟩
  have before := tells_of_holds perils dir hw hs
  refine ⟨_, before.latest, fun c => ?_, fun l => ?_⟩
  · obtain ⟨s', hw', hmeanwhile, hdone⟩ := after_saveCheckpoint perils dir hw hs c
    have after := tells_of_holds perils dir hw' hmeanwhile.sound
    dsimp only
    rw [after.latest, after.ledger, before.ledger, after.checkpoint c.root,
      before.checkpoint c.root, hmeanwhile.ledger]
    refine ⟨?_, ?_, rfl, ?_, ?_⟩
    · rcases hmeanwhile.latest with h | h
      · exact .inl (by rw [h])
      · exact .inr (by rw [h])
    · intro root hroot
      rw [after.checkpoint root, before.checkpoint root, hmeanwhile.others root hroot]
    · rcases hmeanwhile.own with h | h
      · exact .inl (by rw [h])
      · exact .inr (by rw [h])
    · intro hok
      rw [hdone hok]
  · obtain ⟨s', hw', hcases, hdone⟩ := after_saveLedger perils dir hw l
    have hs' : s'.Sound := by rcases hcases with rfl | rfl <;> exact hs
    have after := tells_of_holds perils dir hw' hs'
    dsimp only
    rw [after.ledger, before.ledger, after.latest]
    refine ⟨?_, ?_, ?_, ?_⟩
    · rcases hcases with rfl | rfl
      · exact .inl rfl
      · exact .inr rfl
    · rcases hcases with rfl | rfl <;> rfl
    · intro root
      rw [after.checkpoint root, before.checkpoint root]
      rcases hcases with rfl | rfl <;> rfl
    · intro hok
      rw [hdone hok]
      rfl

end Exposed

/-! A checkpoint is kept in an empty directory. The next one comes to its place, but the program ends
while the pointer to it is written. -/
namespace TornPointer

open Exposed (Holds Saving told after)

/-- The world counts the writes, and ends the program in the fourth one. -/
def perils : Perils Nat where
  write _ _ := fun n => (if n = 3 then .cut (some "0x") else .spared, n + 1)
  rename _ _ := return .spared

def store : Store (Mortal (Exposed Nat)) := Exposed.store perils [] "store"

def checkpoint (slot : Slot) (root : Hash) : Checkpoint where
  slot := slot
  block := none
  root := root
  leaves := .empty
  proofs := .empty
  transaction := none

def opened : Exposed Nat := after store.openDir ⟨0, .empty⟩

def earlier : List Saving := [.checkpoint (checkpoint 110 (.fill 1))]

theorem holds_opened : Holds [] [] .empty opened := by
  obtain ⟨files, hopen, hholds⟩ := (Exposed.opens_nothing 0).openDir perils "store"
  have hopened : opened = ⟨0, files⟩ := congrArg Prod.snd hopen
  exact hopened ▸ hholds

theorem torn_pointer_leaves_latest :
    let w := earlier.foldl (fun w saving => after (saving.into store) w) opened
    let c := checkpoint 120 (.fill 2)
    Holds [] [] .empty opened ∧ told (store.saveCheckpoint c) w = none ∧
      ∃ latest, told store.latestCheckpoint? w = some (.ok latest) ∧
        (told store.latestCheckpoint? (after (store.saveCheckpoint c) w) = some (.ok latest) ∨
          told store.latestCheckpoint? (after (store.saveCheckpoint c) w) =
            some (.ok (some c))) := by
  intro w c
  have hcut : told (store.saveCheckpoint c) w = none := by decide
  obtain ⟨latest, hlatest, hsaves, -⟩ :=
    Exposed.save_is_atomic perils "store" holds_opened earlier
  exact ⟨holds_opened, hcut, latest, hlatest, (hsaves c).1⟩

end TornPointer

end RewardPool
