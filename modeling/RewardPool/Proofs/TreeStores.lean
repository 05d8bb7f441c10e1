import RewardPool.Proofs.Lifts
import RewardPool.Proofs.RoundTrips
import RewardPool.Proofs.Saves

/-!
A store on files that nothing else touches. Every save comes to its end there and puts on the shelf what
it saves. A reader is told there what a reader is told on any disk, perils or not, since nothing is read
wrongly: so all that is said of reading is taken over from there.
-/
namespace RewardPool

open Mortal (outcome)

namespace Store

variable {α : Type} {dir : String} {base : Path} {t : FileTree} {a : α}

/-- What a reader is told of the files of a store. -/
def told (x : ExceptT StoreError (StateM FileTree) α) (t : FileTree) : Except StoreError α :=
  (x.run.run t).1

/-- What goes on in the files goes on there in a world of perils. -/
def exposing (σ : Type) : Lifting (StateM FileTree) (Mortal (Exposed σ)) where
  map := Exposed.onFiles
  map_pure _ := rfl
  map_bind _ _ := rfl

theorem told_of_outcome {x : ExceptT StoreError (StateM FileTree) α} {w : Exposed Unit}
    (h : outcome (((exposing Unit).except StoreError).map x).run ⟨(), t⟩ = (some (.ok a), w)) :
    told x t = .ok a :=
  Option.some.inj (congrArg Prod.fst h)

/-- No operation on the files comes to grief. -/
def noPerils : Perils Unit := ⟨fun _ _ => return .spared, fun _ _ => return .spared⟩

end Store

namespace Shelf

open Store (onTree told exposing noPerils told_of_outcome)

variable {s s' : Shelf} {base place : Path} {t : FileTree} {f : StoreFile} {text : String}

theorem Spelled.loadCheckpoint? (h : s.Spelled base place t) (dir : String) (root : Hash) :
    told ((onTree dir base).loadCheckpoint? root) t = .ok (s.checkpoints root) := by
  have hholds : Exposed.Holds base place s ⟨(), t⟩ := h
  apply told_of_outcome
  rw [Store.loadCheckpoint?, ← (exposing Unit).load?]
  exact Exposed.loadCheckpoint?_outcome noPerils dir hholds root

theorem Spelled.loadLedger? (h : s.Spelled base place t) (dir : String) :
    told (onTree dir base).loadLedger? t = .ok s.ledger := by
  have hholds : Exposed.Holds base place s ⟨(), t⟩ := h
  apply told_of_outcome
  rw [Store.loadLedger?, ← (exposing Unit).load?]
  exact Exposed.loadLedger?_outcome noPerils dir hholds

theorem Spelled.latestCheckpoint? (h : s.Spelled base place t) (hs : s.Sound) (dir : String) :
    told (onTree dir base).latestCheckpoint? t = .ok s.latestCheckpoint? := by
  have hholds : Exposed.Holds base place s ⟨(), t⟩ := h
  apply told_of_outcome
  rw [← (exposing Unit).latestCheckpoint?]
  exact Exposed.latestCheckpoint?_outcome noPerils dir hholds hs

theorem Spelled.replace (h : s.Spelled base place t) (dir : String)
    (htext : ∀ g, s'.text? g = if g = f then some text else s.text? g) :
    ∃ t', ((onTree dir base).replace f text).run.run t = (.ok (), t') ∧
      s'.Spelled base place t' := by
  obtain ⟨v, hwrite, hwritten, hdraft⟩ := h.write f text
  obtain ⟨t', hmove, hspelled⟩ := hwritten.rename hdraft htext
  have hwrote : ((onTree dir base).disk.write f.draft text).run t = (.ok (), v) :=
    FileTree.run_act_map hwrite
  have hmoved : ((onTree dir base).disk.rename f.draft f.path).run v = (.ok (), t') :=
    FileTree.run_act_map hmove
  refine ⟨t', ?_, hspelled⟩
  unfold Store.replace
  rw [Store.run_bind_of_ok (Store.orElse_of_ok hwrote)]
  exact Store.orElse_of_ok hmoved

theorem Spelled.saveLedger (h : s.Spelled base place t) (dir : String) (l : Ledger) :
    ∃ t', ((onTree dir base).saveLedger l).run.run t = (.ok (), t') ∧
      (s.keepLedger l).Spelled base place t' :=
  h.replace dir (s.text?_keepLedger l)

theorem Spelled.saveCheckpoint (h : s.Spelled base place t) (dir : String) (c : Checkpoint) :
    ∃ t', ((onTree dir base).saveCheckpoint c).run.run t = (.ok (), t') ∧
      ((s.keep c).point c.root).Spelled base place t' := by
  obtain ⟨v, hkept, hspelled⟩ := h.replace dir (s.text?_keep c)
  obtain ⟨t', hpointed, hspelled'⟩ := hspelled.replace dir ((s.keep c).text?_point c.root)
  refine ⟨t', ?_, hspelled'⟩
  unfold Store.saveCheckpoint
  rw [Store.run_bind_of_ok hkept]
  exact hpointed

end Shelf

end RewardPool
