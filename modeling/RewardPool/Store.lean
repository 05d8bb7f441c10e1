import RewardPool.Checkpoint.Form
import RewardPool.Disk
import RewardPool.Ledger.Form
import RewardPool.Text

/-!
Keeps checkpoints and the ledger in a directory: one file for the tree of each root, a pointer to
the latest root, and the ledger. A file is first written beside its place and then moved there, so
that a reader finds it as it was or as it will be. The pointer moves after the file it points to.
-/
namespace RewardPool

/-- What goes wrong with a store. Paths are given as text, for the reader of the message. -/
inductive StoreError where
  | create (path : String) (fault : DiskFault)
  | read (path : String) (fault : DiskFault)
  | write (path : String) (fault : DiskFault)
  | replace (path : String) (fault : DiskFault)
  | parse (path : String)
  | invalidRoot (path : String)
  | missing (root : Hash)
deriving DecidableEq

namespace StoreError

def message : StoreError → String
  | create path _ => "Failed to create store at " ++ path
  | read path _ => "Failed to read " ++ path
  | write path _ => "Failed to write " ++ path
  | replace path _ => "Failed to replace " ++ path
  | parse path => "Failed to parse " ++ path
  | invalidRoot path => "Invalid root in " ++ path
  | missing root => "Latest checkpoint " ++ root.text ++ " is missing"

/-- What lies behind an error: a text that is not what it should be, or a fault of the disk. -/
def cause? : StoreError → Option String
  | create _ fault | read _ fault | write _ fault | replace _ fault => some ("io " ++ fault.name)
  | parse _ => some "json"
  | invalidRoot _ | missing _ => none

end StoreError

inductive StoreFile where
  | checkpoint (root : Hash)
  | latest
  | ledger
deriving DecidableEq

namespace StoreFile

def checkpointsDir : String := "checkpoints"

def path : StoreFile → Path
  | checkpoint root => [checkpointsDir, root.text ++ ".json"]
  | latest => ["latest_checkpoint"]
  | ledger => ["state.json"]

/-- Where a file is written before it is moved to its place. -/
def draft : StoreFile → Path
  | checkpoint root => [checkpointsDir, root.text ++ ".tmp"]
  | latest => ["latest_checkpoint.tmp"]
  | ledger => ["state.tmp"]

end StoreFile

/-- A directory by its name, and the disk below it. -/
structure Store (m : Type → Type) where
  dir : String
  disk : Disk m

def joinPath (dir : String) (p : Path) : String :=
  if dir.endsWith "/" then dir ++ "/".intercalate p else "/".intercalate (dir :: p)

namespace Store

variable {m : Type → Type} [Monad m]

/-- Turns the fault of a disk operation into an error. -/
def orElse {α : Type} (op : m (Except DiskFault α)) (error : DiskFault → StoreError) :
    ExceptT StoreError m α :=
  ExceptT.mk do
    match ← op with
    | .ok a => return .ok a
    | .error fault => return .error (error fault)

def text (s : Store m) (p : Path) : String := joinPath s.dir p

def openDir (s : Store m) : ExceptT StoreError m Unit :=
  orElse (s.disk.makeDirs [StoreFile.checkpointsDir]) (.create s.dir)

/-- Writes a file beside its place and moves it there. -/
def replace (s : Store m) (f : StoreFile) (contents : String) : ExceptT StoreError m Unit := do
  orElse (s.disk.write f.draft contents) (.write (s.text f.draft))
  orElse (s.disk.rename f.draft f.path) (.replace (s.text f.path))

def contents? (s : Store m) (f : StoreFile) : ExceptT StoreError m (Option String) := do
  if ← (s.disk.isThere f.path : m Bool) then
    some <$> orElse (s.disk.read f.path) (.read (s.text f.path))
  else
    return none

def load? {α : Type} [JsonForm α] (s : Store m) (f : StoreFile) :
    ExceptT StoreError m (Option α) := do
  match ← s.contents? f with
  | none => return none
  | some contents =>
    match JsonForm.parse? contents with
    | some a => return some a
    | none => throw (.parse (s.text f.path))

/-- Keeps a checkpoint under its root and makes it the latest one. -/
def saveCheckpoint (s : Store m) (c : Checkpoint) : ExceptT StoreError m Unit := do
  s.replace (.checkpoint c.root) c.toJson.pretty
  s.replace .latest (c.root.text ++ "\n")

def loadCheckpoint? (s : Store m) (root : Hash) : ExceptT StoreError m (Option Checkpoint) :=
  s.load? (.checkpoint root)

def latestRoot? (s : Store m) : ExceptT StoreError m (Option Hash) := do
  match ← s.contents? .latest with
  | none => return none
  | some contents =>
    match FixedBytes.ofText? (Text.trim contents.toList) with
    | some root => return some root
    | none => throw (.invalidRoot (s.text (StoreFile.path .latest)))

/-- The checkpoint that the pointer names; one that is missing is an error. -/
def latestCheckpoint? (s : Store m) : ExceptT StoreError m (Option Checkpoint) := do
  match ← s.latestRoot? with
  | none => return none
  | some root =>
    match ← s.loadCheckpoint? root with
    | some c => return some c
    | none => throw (.missing root)

def saveLedger (s : Store m) (l : Ledger) : ExceptT StoreError m Unit :=
  s.replace .ledger l.toJson.pretty

def loadLedger? (s : Store m) : ExceptT StoreError m (Option Ledger) := s.load? .ledger

end Store

end RewardPool
