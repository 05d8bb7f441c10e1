/-!
The file operations that a store needs, as a record of operations in a monad. Each of them is one
step: a program that is cut off stands between two of them. A tree of named texts with the same
operations stands in for a real disk.
-/
namespace RewardPool

/-- The names that lead to a file, from the directory down. Two dots lead back up, and the empty name,
which a slash at the end of a path leaves behind it, leads nowhere else. -/
abbrev Path := List String

inductive DiskFault where
  | notFound
  | notADirectory
  | isADirectory
  | alreadyExists
  | other (kind : String)
deriving DecidableEq

def DiskFault.name : DiskFault → String
  | notFound => "NotFound"
  | notADirectory => "NotADirectory"
  | isADirectory => "IsADirectory"
  | alreadyExists => "AlreadyExists"
  | other kind => kind

structure Disk (m : Type → Type) where
  /-- Creates a directory and the ones above it, unless they are there. -/
  makeDirs : Path → m (Except DiskFault Unit)
  isThere : Path → m Bool
  read : Path → m (Except DiskFault String)
  write : Path → String → m (Except DiskFault Unit)
  /-- Moves a file in one step; what stood at the new place is gone. -/
  rename : Path → Path → m (Except DiskFault Unit)

inductive Node where
  | file (text : String)
  | directory
deriving DecidableEq

/-- Files and directories by their paths. The empty path is a directory that is always there. -/
structure FileTree where
  nodes : List (Path × Node)
deriving DecidableEq

namespace FileTree

def empty : FileTree := ⟨[]⟩

def node? (t : FileTree) (p : Path) : Option Node :=
  if p = [] then some .directory else t.nodes.lookup p

def put (t : FileTree) (p : Path) (n : Node) : FileTree :=
  ⟨(p, n) :: t.nodes.filter (·.1 ≠ p)⟩

def drop (t : FileTree) (p : Path) : FileTree := ⟨t.nodes.filter fun e => !p.isPrefixOf e.1⟩

/-- Takes one step from a place, which has to be a directory. -/
def enter (t : FileTree) (here : Path) (name : String) : Except DiskFault Path :=
  match t.node? here with
  | some .directory =>
    .ok (if name = ".." then here.dropLast else if name = "" then here else here ++ [name])
  | some (.file _) => .error .notADirectory
  | none => .error .notFound

/-- The place that a path leads to. The directories on the way have to be there. -/
def locate (t : FileTree) (p : Path) : Except DiskFault Path := p.foldlM t.enter []

/-- What stands at a path, if the directories on the way are there. -/
def find (t : FileTree) (p : Path) : Except DiskFault (Option Node) := (t.locate p).map t.node?

/-- Creates one directory, unless it is there. -/
def makeDir (t : FileTree) (p : Path) : Except DiskFault FileTree := do
  let place ← t.locate p
  match t.node? place with
  | some .directory => return t
  | some (.file _) => throw .alreadyExists
  | none => return t.put place .directory

/-- The beginnings of a path, the longest one last. -/
def beginnings (p : Path) : List Path := (List.range (p.length + 1)).map p.take

/-- Creates a directory. Only where something is missing on the way are the beginnings of the path
created one after the other. -/
def makeDirs (t : FileTree) (p : Path) : Except DiskFault FileTree :=
  match t.makeDir p with
  | .error .notFound => (beginnings p).foldlM makeDir t
  | answer => answer

def isThere (t : FileTree) (p : Path) : Bool :=
  match t.find p with
  | .ok (some _) => true
  | _ => false

def read (t : FileTree) (p : Path) : Except DiskFault String := do
  match ← t.find p with
  | some (.file text) => return text
  | some .directory => throw .isADirectory
  | none => throw .notFound

/-- Writes a file. A path that ends in a slash is that of a directory, even if nothing is there. -/
def write (t : FileTree) (p : Path) (text : String) : Except DiskFault FileTree := do
  let place ← t.locate (if p.getLast? = some "" then p.dropLast else p)
  match p.getLast?, t.node? place with
  | some "", _ | _, some .directory => throw .isADirectory
  | _, _ => return t.put place (.file text)

def rename (t : FileTree) (source target : Path) : Except DiskFault FileTree := do
  let source ← t.locate source
  let target ← t.locate target
  match t.node? source, t.node? target with
  | none, _ => throw .notFound
  | some (.file _), some .directory => throw .isADirectory
  | some .directory, _ => throw .notADirectory
  | some (.file text), _ => return (t.drop source).put target (.file text)

def remove (t : FileTree) (p : Path) : Except DiskFault FileTree := do
  let place ← t.locate p
  match t.node? place with
  | none => throw .notFound
  | some _ => return t.drop place

/-- All paths in order, those of directories with a slash behind them. -/
def listing (t : FileTree) : List (String × Option String) :=
  let named := t.nodes.map fun (p, n) =>
    let name := "/".intercalate p
    match n with
    | .file text => (name, some text)
    | .directory => (name ++ "/", none)
  named.mergeSort fun a b => a.1 ≤ b.1

/-- Runs an operation on a tree, which stays as it was where the operation fails. -/
def act {α : Type} (op : FileTree → Except DiskFault (α × FileTree)) :
    StateM FileTree (Except DiskFault α) := do
  match op (← get) with
  | .error fault => return .error fault
  | .ok (a, t) =>
    set t
    return .ok a

def disk (base : Path) : Disk (StateM FileTree) where
  makeDirs p := act fun t => (t.makeDirs (base ++ p)).map (((), ·))
  isThere p := return (← get).isThere (base ++ p)
  read p := act fun t => (t.read (base ++ p)).map (·, t)
  write p text := act fun t => (t.write (base ++ p) text).map (((), ·))
  rename source target := act fun t => (t.rename (base ++ source) (base ++ target)).map (((), ·))

end FileTree

end RewardPool
