import RewardPool.Reconcile

/-!
The oracle of a pool: its ledger, the checkpoints it has built, and the root it knows the contract
to hold. Slots are processed one after the other. The ledger is replaced only when a whole slot went
through; at a checkpoint slot the tree of the new ledger is then kept, and its root is handed to the
submitter unless the contract holds it already.
-/
namespace RewardPool

open Merkle (Digest)

structure Oracle where
  config : Config
  ledger : Ledger
  checkpoints : SortedMap Hash Checkpoint
  latest : Option Hash
  /-- The root the contract holds, moved only by a successful submission. -/
  submittedRoot : Option Hash

namespace Oracle

def start (config : Config) (ledger : Ledger) : Oracle where
  config := config
  ledger := ledger
  checkpoints := .empty
  latest := none
  submittedRoot := none

/-- Keeps a checkpoint under its root and makes it the latest one. -/
def keep (o : Oracle) (c : Checkpoint) : Oracle :=
  { o with checkpoints := o.checkpoints.insert c.root c, latest := some c.root }

def checkpoint? (o : Oracle) (root : Hash) : Option Checkpoint := o.checkpoints.find? root

def latestCheckpoint? (o : Oracle) : Option Checkpoint := o.latest.bind o.checkpoint?

def nextSlot (o : Oracle) : Slot :=
  match o.ledger.latestSlot with
  | some slot => slot + 1
  | none => o.config.deployedSlot

variable {ε : Type} {m : Type → Type} [Monad m]

/-- Submits the root of a checkpoint, if there is someone to submit it, the contract does not hold
it, and the submitter is whitelisted. -/
def submission (chain : Chain ε m) (submitter : Option (Submitter ε m)) (o : Oracle)
    (c : Checkpoint) : m (Option (Except (SubmissionFailure ε) Hash)) := do
  match submitter with
  | none => return none
  | some s =>
    if o.submittedRoot = some c.root then return none
    match ← chain.whitelisted (c.block.getD o.config.deployedBlock) s.address with
    | .error e => return some (.error (.lookup e))
    | .ok false => return none
    | .ok true =>
      match ← s.submit c.root with
      | .ok transaction => return some (.ok transaction)
      | .error e => return some (.error (.refused e))

/-- Builds the checkpoint of a slot. It is kept whether or not its root could be submitted. -/
def commit (h : Digest) (chain : Chain ε m) (submitter : Option (Submitter ε m)) (o : Oracle)
    (slot : Slot) : m (Except (Failure ε) (Option Checkpoint) × Oracle) := do
  match o.ledger.claimTree h with
  | .notEnoughData _ => return (.ok none, o)
  | .built tree =>
    let c := Checkpoint.ofTree slot o.ledger.latestBlock tree
    match ← o.submission chain submitter c with
    | none => return (.ok (some c), o.keep c)
    | some (.ok transaction) =>
      let c := { c with transaction := some transaction }
      return (.ok (some c), { o.keep c with submittedRoot := some c.root })
    | some (.error failure) => return (.error (.submission failure), o.keep c)

/-- Processes a slot, which has to be the next one. -/
def processSlot (h : Digest) (chain : Chain ε m) (submitter : Option (Submitter ε m)) (o : Oracle)
    (slot : Slot) : m (Except (Failure ε) SlotReport × Oracle) := do
  if slot ≠ o.nextSlot then return (.error (.fault (.slotOutOfOrder o.nextSlot slot)), o)
  match ← (Reconcile.slot o.config chain o.ledger slot).run with
  | .error failure => return (.error failure, o)
  | .ok (ledger, report) =>
    let o := { o with ledger }
    match o.config.isCheckpointSlot? slot with
    | none => return (.error .aborted, o)
    | some false => return (.ok report, o)
    | some true =>
      match ← o.commit h chain submitter slot with
      | (.error failure, o) => return (.error failure, o)
      | (.ok checkpoint, o) => return (.ok { report with checkpoint }, o)

def finalizedSlot (chain : Chain ε m) : m (Except (Failure ε) Slot) := do
  match ← chain.finalizedSlot with
  | .ok slot => return .ok slot
  | .error e => return .error (.provider e)

end Oracle

end RewardPool
