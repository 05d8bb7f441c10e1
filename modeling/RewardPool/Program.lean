import RewardPool.Checkpoint.Form
import RewardPool.Network
import RewardPool.Settings
import RewardPool.Supervisor
import RewardPool.Uri

/-!
The two commands as they start up. A run opens its store, resumes from the ledger in it, checks that
ledger and the pool contract against its settings, and then follows the chain. A claim reads the
latest checkpoint of the store and asks the contract what was paid out already. Nothing is printed
but the claim.
-/
namespace RewardPool

open Merkle (Digest)

structure Host (m : Type → Type) where
  /-- Reads a document by its address. -/
  fetch : String → m Reply
  /-- Connects to an execution node. -/
  connect : String → m (Except RpcFault (RpcNode m))
  /-- The owner of a private key. -/
  wallet : Hash → Wallet m
  /-- The files below a directory. -/
  disk : String → Disk m
  clock : Clock m
  print : String → m Unit

inductive ProgramError where
  | store (error : StoreError)
  | metricsEndpoint
  | otherLedger (stateDir : String)
  | notConnected (fault : RpcFault)
  | node (fault : RpcFault)
  | contract (error : ContractError)
  | otherCollateral (configured required : Wei)
  | noCheckpoint (stateDir : String)
  | halted (fault : Fault)
  | unsaved (error : StoreError)
  /-- The program ended where it stood. -/
  | aborted
  /-- The budget ran out. -/
  | outOfBudget

namespace ProgramError

def message : ProgramError → String
  | store e => e.message
  | metricsEndpoint => "Failed to build OTLP metrics exporter"
  | otherLedger stateDir =>
    "Ledger in " ++ stateDir ++ " was built with a different pool fee or eligibility policy"
  | notConnected _ => "Failed to connect to the execution node"
  | node fault => fault.message
  | contract e => e.message
  | otherCollateral configured required =>
    "--collateral-wei is " ++ Wei.decimal configured ++ " but the pool contract requires "
      ++ Wei.decimal required
  | noCheckpoint stateDir =>
    "No checkpoint stored in " ++ stateDir ++ ", run the oracle first"
  | halted f => (Ending.halted f).message
  | unsaved e => (Ending.unsaved e).message
  | aborted => Ending.aborted.message
  | outOfBudget => "the run was cut off"

/-- What lies behind a failure of the store. -/
def cause? : ProgramError → Option String
  | store e => e.cause?
  | unsaved e => e.cause?
  | _ => none

end ProgramError

namespace Program

variable {α : Type} {m : Type → Type} [Monad m]

abbrev Step (m : Type → Type) := ExceptT ProgramError m

def ofStore (op : ExceptT StoreError m α) : Step m α := op.adapt .store

def ofContract (answer : m (Except ContractError α)) : Step m α :=
  ExceptT.adapt .contract (ExceptT.mk answer)

/-- Replaces every occurrence of some characters. -/
def replaceAll (part replacement : List Char) : Nat → List Char → List Char
  | _, [] => []
  | skip + 1, _ :: cs => replaceAll part replacement skip cs
  | 0, c :: cs =>
    if part.isPrefixOf (c :: cs) then
      replacement ++ replaceAll part replacement (part.length - 1) cs
    else c :: replaceAll part replacement 0 cs

def socketUrl (url : String) : String :=
  String.ofList <|
    replaceAll "https://".toList "wss://".toList 0 <|
      replaceAll "http://".toList "ws://".toList 0 url.toList

def storeAt (host : Host m) (stateDir : String) : Store m := ⟨stateDir, host.disk stateDir⟩

/-- Whether a ledger was built with the fee and the policy of a configuration. -/
def fits (config : Config) (l : Ledger) : Bool :=
  l.feePercent = config.feePercent && l.feeAddress = config.feeAddress
    && l.eligibility = config.eligibility

def resume (store : Store m) (s : Settings) : Step m Ledger := do
  match ← ofStore store.loadLedger? with
  | none => return .fresh s.config
  | some l =>
    if !fits s.config l then throw (.otherLedger s.stateDir)
    return l

/-- An endpoint for metrics has to be an address; an empty one stands for the usual place. -/
def checkMetrics (s : Settings) : Step m Unit := do
  if s.metricsEndpoint.any fun e => !e.isEmpty && !Uri.isUri e then throw .metricsEndpoint

/-- The balance of the owner of a wallet has to be readable, whatever it is. -/
def checkBalance (c : PoolContract m) : Step m Unit := do
  match c.wallet with
  | none => return ()
  | some w =>
    let balance := c.node.ask "eth_getBalance" [.ofText w.address.text, PoolContract.latest]
      (Json.quantity? 256)
    let _ ← ExceptT.adapt .node (ExceptT.mk balance)

/-- Subscriptions are accepted only with the configured collateral, so it has to be the one that the
contract requires. -/
def checkCollateral (c : PoolContract m) (config : Config) : Step m Unit := do
  let required ← ofContract c.collateral
  if config.collateral ≠ required then throw (.otherCollateral config.collateral required)

def contractFor (host : Host m) (s : Settings) (node : RpcNode m) : PoolContract m where
  node := node
  address := s.config.poolAddress
  gasLimit := s.gasLimit
  wallet := (s.key.bind fun key => Secp256k1.privateKey? key.toList).map host.wallet

/-- The nodes as the settings reach them; reads are repeated without a limit. -/
def networkFor (host : Host m) (s : Settings) (c : PoolContract m) (budget : Nat) : Network m where
  beacon := .ofUrl s.consensusUrl host.fetch
  execution := .ofNode c.node s.receiptConcurrency.toNat
  contract := c
  policy := ⟨s.retryDelay.toNat, 0⟩
  clock := host.clock
  budget := budget

def oracleFor (s : Settings) (l : Ledger) (root : Hash) (latest : Option Checkpoint) : Oracle :=
  let o := Oracle.start s.config l
  let o := if root.isZero then o else { o with submittedRoot := some root }
  match latest with
  | none => o
  | some c => o.keep c

/-- Computations of the world, among those that need nodes. -/
def onlineDisk (d : Disk m) : Disk (Online m) where
  makeDirs p := Network.online (d.makeDirs p)
  isThere p := Network.online (d.isThere p)
  read p := Network.online (d.read p)
  write p text := Network.online (d.write p text)
  rename source target := Network.online (d.rename source target)

def onlineClock (c : Clock m) : Clock (Online m) where
  stopped := Network.online c.stopped
  pause seconds := Network.online (c.pause seconds)

def around (host : Host m) (n : Network m) (store : Store m) :
    Surroundings NetworkFailure (Online m) where
  chain := n.chain
  submitter := n.submitter?
  store := ⟨store.dir, onlineDisk store.disk⟩
  clock := onlineClock host.clock

/-- The ways to process a slot that a run may be given, by the surroundings it will have. -/
abbrev Stepping (m : Type → Type) :=
  Surroundings NetworkFailure (Online m) → Supervisor.Step NetworkFailure (Online m)

variable (step : Stepping m)

def follow (host : Host m) (n : Network m) (store : Store m) (o : Oracle) (budget : Nat) :
    m (Option Ending) := do
  let s := around host n store
  let result ← ((Supervisor.runBy (step s) s budget o).run .empty).run
  return result.bind fun ((ending, _), _) => ending

def conclude : Option Ending → Except ProgramError Unit
  | some .stopped => .ok ()
  | some (.halted f) => .error (.halted f)
  | some (.unsaved e) => .error (.unsaved e)
  | some .aborted => .error .aborted
  | none => .error .outOfBudget

/-- What the command does once its store is open. -/
def goOn (host : Host m) (s : Settings) (budget : Nat) : Step m Unit := do
  let store := storeAt host s.stateDir
  let l ← resume store s
  let node ← ExceptT.adapt .notConnected (ExceptT.mk (host.connect (socketUrl s.executionUrl)))
  let c := contractFor host s node
  checkBalance c
  checkCollateral c s.config
  let root ← ofContract c.rewardsRoot
  let latest ← ofStore store.latestCheckpoint?
  let o := oracleFor s l root latest
  let ending ← (follow step host (networkFor host s c budget) store o budget : m _)
  match conclude ending with
  | .ok _ => return ()
  | .error e => throw e

def runBy (host : Host m) (s : Settings) (budget : Nat) : Step m Unit := do
  checkMetrics s
  ofStore (storeAt host s.stateDir).openDir
  goOn step host s budget

/-- The command that follows the chain. -/
def run (h : Digest) (host : Host m) (s : Settings) (budget : Nat) : Step m Unit :=
  runBy (Supervisor.advance h) host s budget

/-- The command that shows what an address can claim. -/
def claim (host : Host m) (connection : Connection) (address : Address) : Step m Unit := do
  let store := storeAt host connection.stateDir
  ofStore store.openDir
  match ← ofStore store.latestCheckpoint? with
  | none => throw (.noCheckpoint connection.stateDir)
  | some checkpoint =>
    let url := socketUrl connection.executionUrl
    let node ← ExceptT.adapt .node (ExceptT.mk (host.connect url))
    let c : PoolContract m := ⟨node, connection.poolAddress, none, none⟩
    let _ ← ofContract c.rewardsRoot
    match ← ofContract (checkpoint.claim address c.claimedBalance) with
    | none => return ()
    | some claim => host.print (claim.toJson.pretty ++ "\n")

end Program

end RewardPool
