import RewardPool.Oracle
import RewardPool.Retry
import RewardPool.Store

/-!
Follows the finalized chain. Each round asks for the latest finalized slot and processes every slot
up to it; whatever fails on the way is left for the next round, except a fault, which halts the
oracle. Checkpoints are stored as they are built, the ledger with each of them, at the end of a
round, and once more when the run ends. A write that is lost on the way only costs a rebuild, so
nothing but the last one is reported.
-/
namespace RewardPool

open Merkle (Digest)

structure Surroundings (ε : Type) (m : Type → Type) where
  chain : Chain ε m
  submitter : Option (Submitter ε m)
  store : Store m
  clock : Clock m

inductive Ending where
  | stopped
  | halted (fault : Fault)
  /-- The last write of the ledger failed, whatever the run ended with. -/
  | unsaved (error : StoreError)
  /-- The program ended where it stood. -/
  | aborted
deriving DecidableEq

def Ending.message : Ending → String
  | stopped => "shutdown complete"
  | halted _ => "oracle halted"
  | unsaved _ => "Failed to save ledger on exit"
  | aborted => "the program was cut off"

namespace Supervisor

def pollInterval : Nat := secondsPerSlot

variable {ε : Type} {m : Type → Type} [Monad m]

/-- Stores the ledger; tells whether it is stored. -/
def keepLedger (s : Surroundings ε m) (o : Oracle) : m Bool := do
  match ← (s.store.saveLedger o.ledger).run with
  | .ok _ => return true
  | .error _ => return false

def keepCheckpoint (s : Surroundings ε m) (o : Oracle) : m Unit := do
  match o.latestCheckpoint? with
  | none => return ()
  | some c =>
    -- The ledger comes second: a run that goes on from it does not build this checkpoint again.
    match ← (s.store.saveCheckpoint c).run with
    | .ok _ => let _ ← keepLedger s o
    | .error _ => return ()

/-- Stores the checkpoint that came of a slot. A root that was not submitted is no reason to stop. -/
def afterSlot (s : Surroundings ε m) :
    Except (Failure ε) SlotReport → Oracle → m (Except (Failure ε) Unit × Oracle)
  | .ok report, o => do
    if report.checkpoint.isSome then keepCheckpoint s o
    return (.ok (), o)
  | .error (.submission _), o => do
    keepCheckpoint s o
    return (.ok (), o)
  | .error failure, o => return (.error failure, o)

/-- A way to process one slot. The loops below leave it open, so that more may be done at each slot than
the program does. -/
abbrev Step (ε : Type) (m : Type → Type) :=
  Oracle → Slot → m (Except (Failure ε) Unit × Oracle)

def advance (h : Digest) (s : Surroundings ε m) : Step ε m := fun o slot => do
  let (result, o) ← o.processSlot h s.chain s.submitter slot
  afterSlot s result o

variable (step : Step ε m) (s : Surroundings ε m)

/-- Processes so many slots, the first one given, unless asked to stop between two of them. -/
def advanceMany : Nat → Slot → Oracle → m (Except (Failure ε) Unit × Oracle)
  | 0, _, o => return (.ok (), o)
  | n + 1, slot, o => do
    if ← s.clock.stopped then return (.ok (), o)
    match ← step o slot with
    | (.ok _, o) => advanceMany n (slot + 1) o
    | (.error failure, o) => return (.error failure, o)

def catchUp (o : Oracle) : m (Except (Failure ε) Unit × Oracle) := do
  match ← Oracle.finalizedSlot s.chain with
  | .error failure => return (.error failure, o)
  | .ok finalized =>
    let first := o.nextSlot
    if finalized < first then return (.ok (), o)
    match ← advanceMany step s ((finalized - first).toNat + 1) first o with
    | (.ok _, o) =>
      let _ ← keepLedger s o
      return (.ok (), o)
    | (.error failure, o) => return (.error failure, o)

/-- What a round leaves to do: another round, or the end of the run. -/
def afterRound : Except (Failure ε) Unit → m (Option Ending)
  | .error (.fault f) => return some (.halted f)
  | .error .aborted => return some .aborted
  | _ => do
    if ← s.clock.stopped then return some .stopped
    if ← s.clock.pause pollInterval then return none
    return some .stopped

/-- Runs rounds until one of them ends the run, but not more of them than the budget allows. -/
def rounds : Nat → Oracle → m (Option Ending × Oracle)
  | 0, o => return (none, o)
  | budget + 1, o => do
    if ← s.clock.stopped then return (some .stopped, o)
    let (result, o) ← catchUp step s o
    match ← afterRound s result with
    | some ending => return (some ending, o)
    | none => rounds budget o

def conclude (o : Oracle) : Ending → m Ending
  | .aborted => return .aborted
  | ending => do
    match ← (s.store.saveLedger o.ledger).run with
    | .ok _ => return ending
    | .error error => return .unsaved error

/-- Rounds, and the last write of the ledger. Without an ending the budget ran out. -/
def runBy (budget : Nat) (o : Oracle) : m (Option Ending × Oracle) := do
  match ← rounds step s budget o with
  | (none, o) => return (none, o)
  | (some ending, o) => return (some (← conclude s o ending), o)

def run (h : Digest) (s : Surroundings ε m) (budget : Nat) (o : Oracle) :
    m (Option Ending × Oracle) :=
  runBy (advance h s) s budget o

end Supervisor

end RewardPool
