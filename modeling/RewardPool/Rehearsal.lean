import RewardPool.Chain
import RewardPool.Disk
import RewardPool.Json
import RewardPool.Retry

/-!
A scripted stand-in for the outside world. A script says what the chain holds; the stage keeps what
changes while a run plays on it: the calls made so far, the failures still to come, the roots still
to be answered, the clock, the request to stop, and the files. Every call of the chain is a step of
the stage, so a whole run is a function of the script and of the stage it begins on.
-/
namespace RewardPool

structure Script where
  /-- The finalized slot by poll; later polls repeat the last answer. -/
  finalized : List (Option Slot)
  duties : List (Slot × ValidatorIndex)
  /-- The proposer of slots without a duty of their own. -/
  defaultDuty : Option ValidatorIndex
  /-- Blocks by the slot that they are found at. -/
  blocks : List (Slot × ProposedBlock)
  receipts : List (BlockNumber × Header × List Receipt)
  subscriptions : List Subscription
  unsubscriptions : List Unsubscription
  /-- Addresses, each with the block it is listed from on. -/
  whitelist : List (Address × BlockNumber)
  /-- Validators, each with the slot it is known from on; later entries win. -/
  validators : List (Slot × Identity)
  /-- The call that brings the request to stop. -/
  stopAt : Option String
  /-- The poll that brings the request to stop. -/
  stopAtPoll : Option Nat

/-- What changes while a run plays on a script. -/
structure Stage where
  calls : List String
  /-- Failures still to come, by the call they make fail. -/
  failures : List (String × Nat)
  polls : Nat
  /-- Answers still to be given to submitted roots. -/
  submissions : List (Except String Hash)
  stopped : Bool
  /-- Seconds that have gone by. -/
  waited : Nat
  files : FileTree
  /-- Documents asked for, by their paths. -/
  documents : List String
  /-- Calls of the execution node with their parameters. -/
  nodeCalls : List (String × List Json)
  /-- The canned answers that were used, each as often as it was. -/
  used : List String
  /-- Addresses of sockets connected to. -/
  sockets : List String
  printed : String

abbrev Play := StateM Stage

namespace Stage

def start : Stage where
  calls := []
  failures := []
  polls := 0
  submissions := []
  stopped := false
  waited := 0
  files := .empty
  documents := []
  nodeCalls := []
  used := []
  sockets := []
  printed := ""

def note (s : Stage) (call : String) : Stage := { s with calls := s.calls ++ [call] }

def failuresOf (s : Stage) (call : String) : Nat := (s.failures.lookup call).getD 0

def useFailure (s : Stage) (call : String) : Stage :=
  { s with failures := s.failures.map fun (name, n) => (name, if name = call then n - 1 else n) }

/-- The longest wait that the clock counts, thirty years in seconds: what lies beyond is never. -/
def longestWait : Nat := 30 * 365 * 24 * 60 * 60

/-- The time stands still for a run that was asked to stop. -/
def clock : Clock Play where
  stopped := return (← get).stopped
  pause seconds := do
    if (← get).stopped then return false
    modify fun s => { s with waited := s.waited + min seconds longestWait }
    return true

/-- A computation on files, as one on the stage that has them. -/
def onFiles {α : Type} (x : StateM FileTree α) : Play α := fun s =>
  let (a, files) := x s.files
  (a, { s with files })

def disk (base : Path) : Disk Play where
  makeDirs p := onFiles ((FileTree.disk base).makeDirs p)
  isThere p := onFiles ((FileTree.disk base).isThere p)
  read p := onFiles ((FileTree.disk base).read p)
  write p text := onFiles ((FileTree.disk base).write p text)
  rename source target := onFiles ((FileTree.disk base).rename source target)

end Stage

namespace Script

/-- Makes a call: it is noted, may bring the request to stop, and may have to fail. -/
def call {α : Type} (t : Script) (name : String) (answer : Except String α) :
    Play (Except String α) := do
  modify fun s => { s.note name with stopped := s.stopped || t.stopAt = some name }
  if 0 < (← get).failuresOf name then
    modify fun s => s.useFailure name
    return .error ("injected failure: " ++ name)
  return answer

def orElse {α : Type} (answer : Option α) (error : String) : Except String α :=
  match answer with
  | some a => .ok a
  | none => .error error

/-- The answer to a poll with the given number, from zero on. -/
def finalizedAt (t : Script) (poll : Nat) : Except String Slot :=
  orElse ((t.finalized[poll]?.or t.finalized.getLast?).join) "no finalized slot"

def finalizedSlot (t : Script) : Play (Except String Slot) := do
  let poll := (← get).polls
  modify fun s =>
    { s with polls := poll + 1, stopped := s.stopped || t.stopAtPoll.any (· ≤ poll + 1) }
  t.call "finalized" (t.finalizedAt poll)

def duty (t : Script) (slot : Slot) : Except String ValidatorIndex :=
  orElse ((t.duties.lookup slot).or t.defaultDuty) ("no duty for slot " ++ Numeral.word slot)

def receiptsOf (t : Script) (number : BlockNumber) : Except String (Header × List Receipt) :=
  orElse (t.receipts.lookup number) ("no receipts for block " ++ Numeral.word number)

def range (first last : BlockNumber) : String := Numeral.word first ++ ".." ++ Numeral.word last

def isListed (t : Script) (block : BlockNumber) (address : Address) : Bool :=
  t.whitelist.any fun (listed, first) => listed = address && first ≤ block

/-- The last entry of a validator that is known at a slot. -/
def identity? (t : Script) (i : ValidatorIndex) (slot : Slot) : Option Identity :=
  ((t.validators.filter fun (first, id) => id.index = i && first ≤ slot).getLast?).map (·.2)

def chain (t : Script) : Chain String Play where
  finalizedSlot := t.finalizedSlot
  block slot := t.call ("block " ++ Numeral.word slot) (.ok (t.blocks.lookup slot))
  proposer slot := t.call ("duty " ++ Numeral.word slot) (t.duty slot)
  receipts number hashes :=
    t.call ("receipts " ++ Numeral.word number ++ " x" ++ Numeral.decimal hashes.length)
      (t.receiptsOf number)
  subscriptions first last :=
    t.call ("subscriptions " ++ range first last)
      (.ok (t.subscriptions.filter fun s => first ≤ s.block && s.block ≤ last))
  unsubscriptions first last :=
    t.call ("unsubscriptions " ++ range first last)
      (.ok (t.unsubscriptions.filter fun u => first ≤ u.block && u.block ≤ last))
  whitelisted block address :=
    t.call ("whitelisted " ++ Numeral.word block) (.ok (t.isListed block address))
  validator i slot :=
    t.call ("validator " ++ Numeral.word i ++ " at " ++ Numeral.word slot) (.ok (t.identity? i slot))

/-- Takes the next answer to a submitted root. -/
def submit (root : Hash) : Play (Except String Hash) := do
  modify fun s => s.note ("submit " ++ root.text)
  match (← get).submissions with
  | [] => return .error "no more submissions"
  | answer :: rest =>
    modify fun s => { s with submissions := rest }
    return answer

def submitter (address : Address) : Submitter String Play := ⟨address, submit⟩

end Script

end RewardPool
