import RewardPool.Proofs.Frames

/-!
The store mirrors the oracle. Whatever the chain answers, whether or not roots can be submitted, and
whenever the run is asked to stop: before each slot and at the end of a run the files have all
checkpoints that the oracle has, the same latest one, and a ledger that was held since the last checkpoint
was built. A call that builds a checkpoint is followed by a save of it and of the ledger, whether the call
went through or its root was refused, and no other call changes what the oracle keeps.
-/
namespace RewardPool

open Merkle (Digest)
open Store (told)

/-- The oracle that goes on from what a store has. Without a ledger it begins with a fresh one. -/
def Oracle.resumed (config : Config) (ledger? : Option Ledger) (latest? : Option Checkpoint)
    (submittedRoot : Option Hash) : Oracle :=
  let o : Oracle := { Oracle.start config (ledger?.getD (.fresh config)) with submittedRoot }
  match latest? with
  | none => o
  | some c => o.keep c

namespace Oracle

variable {config : Config} {ledger? : Option Ledger} {latest? : Option Checkpoint}
variable {submittedRoot : Option Hash}

theorem ledger_resumed :
    (resumed config ledger? latest? submittedRoot).ledger = ledger?.getD (.fresh config) := by
  cases latest? <;> rfl

theorem config_resumed : (resumed config ledger? latest? submittedRoot).config = config := by
  cases latest? <;> rfl

theorem checkpoint?_resumed (r : Hash) :
    (resumed config ledger? latest? submittedRoot).checkpoint? r =
      latest?.bind fun c => if c.root = r then some c else none := by
  cases latest? with
  | none => rfl
  | some c => exact SortedMap.find?_insert _ _ _ _

theorem latestCheckpoint?_resumed :
    (resumed config ledger? latest? submittedRoot).latestCheckpoint? = latest? := by
  cases latest? with
  | none => rfl
  | some c =>
    have hlatest : (resumed config ledger? (some c) submittedRoot).latest = some c.root := rfl
    rw [latestCheckpoint?, hlatest, Option.bind_some, checkpoint?_resumed, Option.bind_some,
      if_pos rfl]

/-- The oracle that the command begins with is one of these. -/
theorem oracleFor_eq_resumed (s : Settings) (l : Ledger) (root : Hash) :
    Program.oracleFor s l root latest? =
      resumed s.config (some l) latest? (if root.isZero then none else some root) := by
  unfold Program.oracleFor resumed start
  cases latest? <;> by_cases hzero : root.isZero <;> simp [hzero]

end Oracle

/-- A ledger that was held between two slots of a run, so that no call since then built a checkpoint. -/
def HeldSince {ε : Type} (config : Config) (frames : List (Frame ε)) (o : Oracle) (l : Ledger) : Prop :=
  l = o.ledger ∨ ∃ past frame rest, frames = past ++ frame :: rest ∧ l = frame.before.ledger ∧
    ∀ f ∈ frame :: rest, f.call.builds config = false

/-- What a store tells of its files is what an oracle has after a run so far. -/
structure Store.Mirrors {ε : Type} (s : Store (StateM FileTree)) (t : FileTree) (config : Config)
    (frames : List (Frame ε)) (o : Oracle) : Prop where
  checkpoint : ∀ r c, o.checkpoint? r = some c → told (s.loadCheckpoint? r) t = .ok (some c)
  latest : told s.latestCheckpoint? t = .ok o.latestCheckpoint?
  ledger : ∃ l?, told s.loadLedger? t = .ok l? ∧ ∀ l ∈ l?, HeldSince config frames o l

namespace Shelf

variable {ε : Type} {s s' : Shelf} {c : Checkpoint} {l : Ledger} {config : Config}
variable {frames : List (Frame ε)} {frame : Frame ε} {o o' : Oracle}

/-- The same of a shelf. -/
structure Mirrors (s : Shelf) (config : Config) (frames : List (Frame ε)) (o : Oracle) : Prop where
  sound : s.Sound
  checkpoint : ∀ r c, o.checkpoint? r = some c → s.checkpoints r = some c
  latest : s.latestCheckpoint? = o.latestCheckpoint?
  ledger : ∀ l ∈ s.ledger, HeldSince config frames o l

/-- Every checkpoint stands under its own root. -/
def Rooted (s : Shelf) : Prop := ∀ root c, s.checkpoints root = some c → c.root = root

theorem Meanwhile.rooted (h : s.Meanwhile c s') (hs : s.Rooted) : s'.Rooted := by
  intro root c' hc'
  by_cases hroot : root = c.root
  · subst hroot
    rcases h.own with hown | hown
    · exact hs _ _ (hown ▸ hc')
    · obtain rfl := Option.some.inj (hown.symm.trans hc')
      rfl
  · exact hs _ _ (h.others root hroot ▸ hc')

theorem lasting_rooted : Exposed.Lasting fun s => s.Sound ∧ s.Rooted where
  sound hs := hs.1
  meanwhile hs h := ⟨h.sound, h.rooted hs.2⟩
  keepLedger _ hs := hs

theorem Mirrors.keepLedger (hs : s.Mirrors config frames o) :
    (s.keepLedger o.ledger).Mirrors config frames o where
  sound := hs.sound
  checkpoint := hs.checkpoint
  latest := hs.latest
  ledger _ hl := .inl (Option.some.inj hl).symm

/-- A call that builds nothing leaves a mirror of the oracle. -/
theorem Mirrors.skip (hs : s.Mirrors config frames frame.before)
    (hbuilds : frame.call.builds config = false)
    (hcheckpoints : o'.checkpoints = frame.before.checkpoints)
    (hlatest : o'.latest = frame.before.latest) : s.Mirrors config (frames ++ [frame]) o' := by
  have hfind : ∀ r, o'.checkpoint? r = frame.before.checkpoint? r := by
    intro r
    unfold Oracle.checkpoint?
    rw [hcheckpoints]
  refine ⟨hs.sound, fun r c hc => hs.checkpoint r c (hfind r ▸ hc), ?_, fun l hl => ?_⟩
  · rw [hs.latest, Oracle.latestCheckpoint?, Oracle.latestCheckpoint?, hlatest, funext hfind]
  · rcases hs.ledger l hl with hnow | ⟨past, first, rest, hsplit, hl, hnone⟩
    · refine .inr ⟨frames, frame, [], rfl, hnow, ?_⟩
      intro f hf
      rwa [List.mem_singleton.mp hf]
    · refine .inr ⟨past, first, rest ++ [frame], by simp [hsplit], hl, ?_⟩
      intro f hf
      rcases List.mem_append.mp (List.cons_append ▸ hf) with hf | hf
      · exact hnone f hf
      · rwa [List.mem_singleton.mp hf]

/-- A checkpoint that is kept by the oracle, and then put on the shelf with the ledger. -/
theorem Mirrors.add (hs : s.Mirrors config frames o)
    (hcheckpoints : o'.checkpoints = o.checkpoints.insert c.root c)
    (hlatest : o'.latest = some c.root) (frames' : List (Frame ε)) :
    (((s.keep c).point c.root).keepLedger o'.ledger).Mirrors config frames' o' := by
  have hfind : ∀ r, o'.checkpoint? r = if c.root = r then some c else o.checkpoint? r := by
    intro r
    unfold Oracle.checkpoint?
    rw [hcheckpoints, SortedMap.find?_insert]
  refine ⟨(s.meanwhile_point c).sound, fun r c' hc' => ?_, ?_, fun l hl => ?_⟩
  · rw [hfind] at hc'
    by_cases hroot : c.root = r
    · rw [if_pos hroot] at hc'
      obtain rfl := Option.some.inj hc'
      exact if_pos hroot.symm
    · rw [if_neg hroot] at hc'
      exact (if_neg (Ne.symm hroot)).trans (hs.checkpoint r c' hc')
  · rw [Oracle.latestCheckpoint?, hlatest, Option.bind_some, hfind, if_pos rfl]
    exact s.latestCheckpoint?_point c
  · exact .inl (Option.some.inj hl).symm

/-- The oracle that goes on from a shelf is mirrored by it. -/
theorem Mirrors.of_resumed (hs : s.Sound) (hrooted : s.Rooted) (config : Config)
    (submittedRoot : Option Hash) :
    s.Mirrors config ([] : List (Frame ε))
      (.resumed config s.ledger s.latestCheckpoint? submittedRoot) := by
  refine ⟨hs, fun r c hc => ?_, Oracle.latestCheckpoint?_resumed.symm, fun l hl => .inl ?_⟩
  · rw [Oracle.checkpoint?_resumed] at hc
    obtain ⟨latest, hlatest, hc⟩ := Option.bind_eq_some_iff.mp hc
    obtain ⟨root, -, hfound⟩ := Option.bind_eq_some_iff.mp hlatest
    have hroot := hrooted root latest hfound
    by_cases hr : latest.root = r
    · rw [if_pos hr] at hc
      rw [← Option.some.inj hc, ← hr, hroot]
      exact hfound
    · rw [if_neg hr] at hc
      exact absurd hc nofun
  · have hsome : s.ledger = some l := hl
    rw [Oracle.ledger_resumed, hsome]
    rfl

/-- What stands on a shelf is what is told of its files. -/
theorem Mirrors.told {base place : Path} {t : FileTree} (hs : s.Mirrors config frames o)
    (h : s.Spelled base place t) (dir : String) :
    (Store.onTree dir base).Mirrors t config frames o where
  checkpoint r c hc := by rw [h.loadCheckpoint?, hs.checkpoint r c hc]
  latest := by rw [h.latestCheckpoint? hs.sound, hs.latest]
  ledger := ⟨s.ledger, h.loadLedger? dir, hs.ledger⟩

end Shelf

namespace Supervisor

variable {σ ε : Type} {h : Digest} {chain : Chain ε (StateM σ)}
variable {submitter : Option (Submitter ε (StateM σ))} {clock : Clock (StateM σ)} {dir : String}
variable {base place : Path} {config : Config} {o o' : Oracle} {slot : Slot}
variable {w w' : Chronicled (Exposed σ) (Frame ε)} {r : Except (Failure ε) Unit} {shelf : Shelf}

/-- The surroundings of a run that is looked at. -/
def framed (chain : Chain ε (StateM σ)) (submitter : Option (Submitter ε (StateM σ)))
    (clock : Clock (StateM σ)) (dir : String) (base : Path) :
    Surroundings ε (StateM (Chronicled (Exposed σ) (Frame ε))) :=
  (Chronicled.aside _ _).surroundings
    (Exposed.surroundings chain submitter clock (Store.onTree dir base))

/-- What is done to the files alone. -/
theorem run_onFiles {α : Type} {x : ExceptT StoreError (StateM FileTree) α} {t : FileTree}
    {a : Except StoreError α} (hx : x.run.run w.world.files = (a, t)) :
    (((Chronicled.aside (Exposed σ) (Frame ε)).except StoreError).map
        (((Exposed.filing σ).except StoreError).map x)).run.run w =
      (a, { w with world := { w.world with files := t } }) := by
  show ((x.run.run w.world.files).1,
    { w with world := { w.world with files := (x.run.run w.world.files).2 } }) = _
  rw [hx]

theorem saveLedger_framed (hw : shelf.Spelled base place w.world.files) (l : Ledger) :
    ∃ t, ((framed chain submitter clock dir base).store.saveLedger l).run.run w =
        (.ok (), { w with world := { w.world with files := t } }) ∧
      (shelf.keepLedger l).Spelled base place t := by
  obtain ⟨t, hsaved, hspelled⟩ := hw.saveLedger dir l
  refine ⟨t, ?_, hspelled⟩
  show (((Chronicled.aside _ _).store ((Exposed.filing σ).store _)).saveLedger l).run.run w = _
  rw [Lifting.saveLedger, Lifting.saveLedger]
  exact run_onFiles hsaved

theorem saveCheckpoint_framed (hw : shelf.Spelled base place w.world.files) (c : Checkpoint) :
    ∃ t, ((framed chain submitter clock dir base).store.saveCheckpoint c).run.run w =
        (.ok (), { w with world := { w.world with files := t } }) ∧
      ((shelf.keep c).point c.root).Spelled base place t := by
  obtain ⟨t, hsaved, hspelled⟩ := hw.saveCheckpoint dir c
  refine ⟨t, ?_, hspelled⟩
  show (((Chronicled.aside _ _).store ((Exposed.filing σ).store _)).saveCheckpoint c).run.run w = _
  rw [Lifting.saveCheckpoint, Lifting.saveCheckpoint]
  exact run_onFiles hsaved

theorem keepLedger_framed (hw : shelf.Spelled base place w.world.files) (o : Oracle) :
    ∃ t, (keepLedger (framed chain submitter clock dir base) o).run w =
        (true, { w with world := { w.world with files := t } }) ∧
      (shelf.keepLedger o.ledger).Spelled base place t := by
  obtain ⟨t, hsaved, hspelled⟩ := saveLedger_framed hw o.ledger
  refine ⟨t, ?_, hspelled⟩
  unfold keepLedger
  rw [run_bind_eq hsaved]
  rfl

theorem keepCheckpoint_framed (hw : shelf.Spelled base place w.world.files) {c : Checkpoint}
    (hc : o.latestCheckpoint? = some c) :
    ∃ t, (keepCheckpoint (framed chain submitter clock dir base) o).run w =
        ((), { w with world := { w.world with files := t } }) ∧
      (((shelf.keep c).point c.root).keepLedger o.ledger).Spelled base place t := by
  obtain ⟨t, hsaved, hspelled⟩ := saveCheckpoint_framed hw c
  obtain ⟨t', hkept, hspelled'⟩ := keepLedger_framed
    (w := { w with world := { w.world with files := t } }) hspelled o
  refine ⟨t', ?_, hspelled'⟩
  unfold keepCheckpoint
  rw [hc]
  dsimp only
  rw [run_bind_eq hsaved]
  exact run_bind_eq hkept

theorem conclude_framed {ending ending' : Ending} (hw : shelf.Spelled base place w.world.files)
    (hending : ending ≠ .aborted)
    (hrun : (conclude (framed chain submitter clock dir base) o ending).run w = (ending', w')) :
    ∃ t, w' = { w with world := { w.world with files := t } } ∧
      (shelf.keepLedger o.ledger).Spelled base place t := by
  unfold conclude at hrun
  split at hrun
  · exact absurd rfl hending
  · obtain ⟨saved, w₁, hsaved, hrun⟩ := run_bind_cases hrun
    obtain ⟨t, hdone, hspelled⟩ := saveLedger_framed hw o.ledger
    obtain ⟨rfl, rfl⟩ := Prod.mk.inj (hdone.symm.trans hsaved)
    obtain ⟨-, rfl⟩ := Prod.mk.inj hrun
    exact ⟨t, rfl, hspelled⟩

/-- The store mirrors the oracle now, and did so before each slot. -/
structure Mirrored (base place : Path) (config : Config) (o : Oracle)
    (w : Chronicled (Exposed σ) (Frame ε)) : Prop where
  configured : o.config = config
  shelf : ∃ s : Shelf, s.Mirrors config w.record o ∧ s.Spelled base place w.world.files
  frames : ∀ before frame after, w.record = before ++ frame :: after →
    ∃ s : Shelf, s.Mirrors config before frame.before ∧ s.Spelled base place frame.files

/-- One more frame, before which the store mirrored the oracle. -/
theorem frames_concat {P : List (Frame ε) → Frame ε → Prop} {frames : List (Frame ε)}
    (hframes : ∀ before frame after, frames = before ++ frame :: after → P before frame)
    (last : Frame ε) (hlast : P frames last) :
    ∀ before frame after, frames ++ [last] = before ++ frame :: after → P before frame := by
  intro before frame after hsplit
  rcases List.eq_nil_or_concat after with rfl | ⟨others, x, rfl⟩
  · obtain ⟨rfl, hsame⟩ := List.append_inj' hsplit rfl
    obtain rfl := List.head_eq_of_cons_eq hsame
    exact hlast
  · have hsplit' : frames ++ [last] = (before ++ frame :: others) ++ [x] := by
      rw [hsplit]
      simp
    obtain ⟨hfront, -⟩ := List.append_inj' hsplit' rfl
    exact hframes before frame others hfront

/-- No call for a slot touches the files or the record. -/
theorem processSlot_framed {result : Except (Failure ε) SlotReport}
    (hrun : (o.processSlot h (framed chain submitter clock dir base).chain
      (framed chain submitter clock dir base).submitter slot).run w = ((result, o'), w')) :
    (w'.world.files, w'.record) = (w.world.files, w.record) := by
  have hspares : (framed chain submitter clock dir base).chain.Spares
      (fun w : Chronicled (Exposed σ) (Frame ε) => (w.world.files, w.record))
      (framed chain submitter clock dir base).submitter :=
    { block := fun _ _ => rfl
      proposer := fun _ _ => rfl
      receipts := fun _ _ _ => rfl
      subscriptions := fun _ _ _ => rfl
      unsubscriptions := fun _ _ _ => rfl
      whitelisted := fun _ _ _ => rfl
      validator := fun _ _ _ => rfl
      submit := by
        intro s hs root
        obtain ⟨s', hs', rfl⟩ := Option.map_eq_some_iff.mp hs
        obtain ⟨_, -, rfl⟩ := Option.map_eq_some_iff.mp hs'
        exact fun _ => rfl }
  exact (Oracle.processSlot_keeps hspares o slot).eq hrun

theorem Mirrored.step (hsize : config.checkpointSize ≠ 0) (hw : Mirrored base place config o w)
    (hrun : (advanceFramed h
      (Exposed.surroundings chain submitter clock (Store.onTree dir base)) o slot).run w =
        ((r, o'), w')) :
    Mirrored base place config o' w' ∧ r ≠ .error .aborted := by
  obtain ⟨s, hmirrors, hspelled⟩ := hw.shelf
  have hnoting : (advanceNoting h (framed chain submitter clock dir base)
      (fun call => Chronicled.note ⟨o, w.world.files, call⟩) o slot).run w = ((r, o'), w') := hrun
  obtain ⟨result, w₁, w₂, hprocessed, hnoted, haborted, hstored⟩ := advanceNoting_cases hnoting
  obtain ⟨hfiles, hrecord⟩ := Prod.mk.inj (processSlot_framed hprocessed)
  have hcalled := Oracle.processSlot_called hprocessed
  have hconfig : o'.config = config := hcalled.config_eq.trans hw.configured
  -- the call is noted with the oracle and the files that it was made on
  have hnote : w₂ = { w₁ with record := w₁.record ++ [⟨o, w.world.files, ⟨slot, result, o'⟩⟩] } :=
    (congrArg Prod.snd hnoted).symm
  have hfiles₂ : w₂.world.files = w.world.files := by rw [hnote, ← hfiles]
  have hrecord₂ : w₂.record = w.record ++ [⟨o, w.world.files, ⟨slot, result, o'⟩⟩] := by
    rw [hnote, ← hrecord]
  have hframes := frames_concat hw.frames ⟨o, w.world.files, ⟨slot, result, o'⟩⟩
    ⟨s, hmirrors, hspelled⟩
  refine ⟨?_, fun hr => hcalled.ne_aborted (hw.configured ▸ hsize) (haborted hr)⟩
  rw [Oracle.persists_eq_builds hcalled] at hstored
  rcases Oracle.builds_cases hcalled with
    ⟨hbuilds, hcheckpoints, hlatest⟩ | ⟨hbuilds, c, -, hcheckpoints, hlatest, -⟩
  · rw [if_neg (by simp [hbuilds])] at hstored
    rw [hw.configured] at hbuilds
    rw [hstored]
    refine ⟨hconfig, ⟨s, ?_, hfiles₂ ▸ hspelled⟩, hrecord₂ ▸ hframes⟩
    rw [hrecord₂]
    exact hmirrors.skip hbuilds hcheckpoints hlatest
  · rw [if_pos hbuilds] at hstored
    have hadd := hmirrors.add hcheckpoints hlatest w₂.record
    have hkept : o'.latestCheckpoint? = some c := by
      rw [Oracle.latestCheckpoint?, hlatest, Option.bind_some, Oracle.checkpoint?, hcheckpoints,
        SortedMap.find?_insert, if_pos rfl]
    obtain ⟨t, hrun', hspelled'⟩ := keepCheckpoint_framed (w := w₂) (hfiles₂ ▸ hspelled) hkept
    obtain rfl := (congrArg Prod.snd (hrun'.symm.trans hstored)).symm
    exact ⟨hconfig, ⟨_, hadd, hspelled'⟩, hrecord₂ ▸ hframes⟩

theorem preserves_mirrored (h : Digest) (chain : Chain ε (StateM σ))
    (submitter : Option (Submitter ε (StateM σ))) (clock : Clock (StateM σ)) (dir : String)
    (base place : Path) (hsize : config.checkpointSize ≠ 0) :
    Preserves (Mirrored base place config) (framed chain submitter clock dir base)
      (advanceFramed h
        (Exposed.surroundings chain submitter clock (Store.onTree dir base))) where
  finalizedSlot _ _ hw := ⟨hw.configured, hw.shelf, hw.frames⟩
  stopped _ _ hw := ⟨hw.configured, hw.shelf, hw.frames⟩
  pause _ _ _ hw := ⟨hw.configured, hw.shelf, hw.frames⟩
  keepLedger o w hw := by
    obtain ⟨s, hmirrors, hspelled⟩ := hw.shelf
    obtain ⟨t, hkept, hspelled'⟩ := keepLedger_framed hspelled o
    rw [hkept]
    exact ⟨hw.configured, ⟨_, hmirrors.keepLedger, hspelled'⟩, hw.frames⟩
  step _ _ _ _ _ _ hw hrun := hw.step hsize hrun

/-- A run that has ended leaves its last ledger. -/
theorem Mirrored.run (hsize : config.checkpointSize ≠ 0) {budget : Nat} {ending : Option Ending}
    (hw : Mirrored base place config o w)
    (hrun : (runFramed h
      (Exposed.surroundings chain submitter clock (Store.onTree dir base)) budget o).run w =
        ((ending, o'), w')) :
    Mirrored base place config o' w' ∧
      (ending.isSome → told (Store.onTree dir base).loadLedger? w'.world.files =
        .ok (some o'.ledger)) := by
  have hpreserves := preserves_mirrored h chain submitter clock dir base place hsize
  obtain ⟨⟨rounded, o₁⟩, w₁, hrounds, hrun⟩ := run_bind_cases hrun
  obtain ⟨hw₁, hended⟩ := hpreserves.rounds hw hrounds
  cases rounded with
  | none =>
    obtain ⟨rfl, rfl, rfl⟩ := run_pure_cases hrun
    exact ⟨hw₁, nofun⟩
  | some rounded =>
    obtain ⟨concluded, w₂, hconcluded, hrun⟩ := run_bind_cases hrun
    obtain ⟨rfl, rfl, rfl⟩ := run_pure_cases hrun
    obtain ⟨s, hmirrors, hspelled⟩ := hw₁.shelf
    obtain ⟨t, rfl, hspelled'⟩ :=
      conclude_framed hspelled (fun he => hended (by rw [he])) hconcluded
    refine ⟨⟨hw₁.configured, ⟨_, hmirrors.keepLedger, hspelled'⟩, hw₁.frames⟩, fun _ => ?_⟩
    exact hspelled'.loadLedger? dir

/-- The store mirrors the oracle before each slot of a run and at its end, whatever happens in between, if
the run goes on from a directory that was opened empty and then only saved to, whatever became of those
saves. When the run has ended, the ledger in the store is its last one. The run that is looked at before
each slot comes to what the run itself comes to. -/
theorem store_mirrors_oracle {τ : Type} (h : Digest) (chain : Chain ε (StateM σ))
    (submitter : Option (Submitter ε (StateM σ))) (clock : Clock (StateM σ)) (dir : String)
    {base place : Path} {perils : Perils τ} {opened : Exposed τ}
    (hopened : Exposed.Holds base place .empty opened) (earlier : List Exposed.Saving)
    {config : Config} (hsize : config.checkpointSize ≠ 0) (submittedRoot : Option Hash)
    (budget : Nat) (world : σ) :
    let store := Store.onTree dir base
    let files := (earlier.foldl
      (fun w saving => Exposed.after (saving.into (Exposed.store perils base dir)) w) opened).files
    ∃ ledger? latest?, told store.loadLedger? files = .ok ledger? ∧
      told store.latestCheckpoint? files = .ok latest? ∧
      let s := Exposed.surroundings chain submitter clock store
      let start := Oracle.resumed config ledger? latest? submittedRoot
      let framed := (runFramed h s budget start).run ⟨⟨world, files⟩, []⟩
      let frames := framed.2.record
      (run h s budget start).run ⟨world, files⟩ = (framed.1, framed.2.world) ∧
      (∀ before frame after, frames = before ++ frame :: after →
        store.Mirrors frame.files config before frame.before) ∧
      ∀ ending o w, (run h s budget start).run ⟨world, files⟩ = ((some ending, o), w) →
        store.Mirrors w.files config frames o ∧
          told store.loadLedger? w.files = .ok (some o.ledger) := by
  intro store files
  obtain ⟨shelf, ⟨hsound, hrooted⟩, hholds⟩ := Shelf.lasting_rooted.after_all perils dir earlier
    ⟨_, ⟨Shelf.sound_empty, nofun⟩, hopened⟩
  have hspelled : shelf.Spelled base place files := hholds
  refine ⟨shelf.ledger, shelf.latestCheckpoint?, hspelled.loadLedger? dir,
    hspelled.latestCheckpoint? hsound dir, ?_⟩
  intro s start framed frames
  have hplain := run_of_runFramed h s budget start ⟨⟨world, files⟩, []⟩
  refine ⟨hplain, ?_⟩
  have hstart : Mirrored base place config start ⟨⟨world, files⟩, ([] : List (Frame ε))⟩ := by
    have hmirrors : shelf.Mirrors config ([] : List (Frame ε)) start :=
      .of_resumed hsound hrooted config submittedRoot
    refine ⟨Oracle.config_resumed, ⟨shelf, hmirrors, hspelled⟩, ?_⟩
    intro before frame after hsplit
    exact absurd hsplit (by simp)
  obtain ⟨⟨⟨ending, o'⟩, w'⟩, hrun⟩ :
      ∃ done, (runFramed h s budget start).run ⟨⟨world, files⟩, []⟩ = done := ⟨_, rfl⟩
  obtain ⟨hmirrored, hended⟩ := hstart.run hsize hrun
  have hframes : frames = w'.record := congrArg (·.2.record) hrun
  rw [hframes]
  constructor
  · intro before frame after hsplit
    obtain ⟨s', hmirrors, hspelled'⟩ := hmirrored.frames before frame after hsplit
    exact hmirrors.told hspelled' dir
  · intro e o w hdone
    rw [hrun] at hplain
    obtain ⟨hresult, rfl⟩ := Prod.mk.inj (hdone.symm.trans hplain)
    obtain ⟨rfl, rfl⟩ := Prod.mk.inj hresult
    obtain ⟨s', hmirrors, hspelled'⟩ := hmirrored.shelf
    exact ⟨hmirrors.told hspelled' dir, hended rfl⟩

end Supervisor

/-! A ledger was saved before, and the run goes on from it. The root of its first slot is refused, and the
slot after it is not one of a checkpoint. Which digest makes the root is no matter here. -/
namespace RefusedRoot

open Exposed (Holds Saving after)

def finalizing : Chain Unit (StateM Unit) := { chain with finalizedSlot := return .ok 111 }

/-- The run is asked to stop while it waits for the next round. -/
def clock : Clock (StateM Unit) := ⟨return false, fun _ => return false⟩

def digest : Digest := fun _ => .fill 7

def store : Store (StateM FileTree) := .onTree "store" []

def surroundings : Surroundings Unit (StateM (Exposed Unit)) :=
  Exposed.surroundings finalizing (some submitter) clock store

def earlier : List Saving := [.ledger oracle.ledger]

def saved : FileTree :=
  (earlier.foldl (fun w saving => after (saving.into TornPointer.store) w) TornPointer.opened).files

def resumed : Oracle := .resumed oracle.config (some oracle.ledger) none none

/-- What is read of the files that the run begins with. -/
theorem told_saved : told store.loadLedger? saved = .ok (some oracle.ledger) ∧
    told store.latestCheckpoint? saved = .ok none := by
  have hdone : Exposed.told (TornPointer.store.saveLedger oracle.ledger) TornPointer.opened =
      some (.ok ()) := by decide
  obtain ⟨s, hholds, -, hkept⟩ :=
    Exposed.after_saveLedger TornPointer.perils "store" TornPointer.holds_opened oracle.ledger
  obtain rfl := hkept hdone
  have hspelled : (Shelf.empty.keepLedger oracle.ledger).Spelled [] [] saved := by
    rw [saved, earlier, List.foldl_cons, List.foldl_nil, Saving.into]
    exact hholds
  exact ⟨hspelled.loadLedger? "store", hspelled.latestCheckpoint? Shelf.sound_empty "store"⟩

/-- The checkpoint of the first slot is stored, although its root is refused. -/
theorem run_stops :
    ((Supervisor.runFramed digest surroundings 1 resumed).run ⟨⟨(), saved⟩, []⟩).2.record.map
        (fun frame => (frame.call.slot, frame.call.persists)) = [(110, true), (111, false)] ∧
      ∃ o w, (Supervisor.run digest surroundings 1 resumed).run ⟨(), saved⟩ =
        ((some .stopped, o), w) := by
  have hstopped : ((Supervisor.run digest surroundings 1 resumed).run ⟨(), saved⟩).1.1 =
      some .stopped := by decide +kernel
  refine ⟨by decide +kernel, ?_⟩
  obtain ⟨⟨⟨ending, o⟩, w⟩, hrun⟩ :
      ∃ done, (Supervisor.run digest surroundings 1 resumed).run ⟨(), saved⟩ = done := ⟨_, rfl⟩
  rw [hrun] at hstopped
  obtain rfl : ending = some .stopped := hstopped
  exact ⟨o, w, hrun⟩

theorem refused_root_is_mirrored :
    let framed := (Supervisor.runFramed digest surroundings 1 resumed).run ⟨⟨(), saved⟩, []⟩
    let frames := framed.2.record
    Holds [] [] .empty TornPointer.opened ∧ oracle.config.checkpointSize ≠ 0 ∧
      frames.map (fun frame => (frame.call.slot, frame.call.persists)) =
        [(110, true), (111, false)] ∧
      (Supervisor.run digest surroundings 1 resumed).run ⟨(), saved⟩ =
        (framed.1, framed.2.world) ∧
      (∀ before frame after, frames = before ++ frame :: after →
        store.Mirrors frame.files oracle.config before frame.before) ∧
      ∃ o w, (Supervisor.run digest surroundings 1 resumed).run ⟨(), saved⟩ =
          ((some .stopped, o), w) ∧
        store.Mirrors w.files oracle.config frames o ∧
        told store.loadLedger? w.files = .ok (some o.ledger) := by
  have hsize : oracle.config.checkpointSize ≠ 0 := by decide
  obtain ⟨hframes, o, w, hdone⟩ := run_stops
  obtain ⟨ledger?, latest?, hledger, hlatest, hplain, hmirrors, hend⟩ :=
    Supervisor.store_mirrors_oracle digest finalizing (some submitter) clock "store"
      TornPointer.holds_opened earlier hsize none 1 ()
  obtain rfl := Except.ok.inj (told_saved.1.symm.trans hledger)
  obtain rfl := Except.ok.inj (told_saved.2.symm.trans hlatest)
  exact ⟨TornPointer.holds_opened, hsize, hframes, hplain, hmirrors, o, w, hdone, hend _ o w hdone⟩

end RefusedRoot

end RewardPool
