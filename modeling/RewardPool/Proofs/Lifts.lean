import Mathlib.Logic.Basic
import RewardPool.Program

/-!
Nodes seen from a larger world. A lifting takes each computation to one of another kind and respects
what is done one after the other. If the calls of a node are lifted, all that is read through the node
is what was read before, lifted. So nothing has to be said again of how documents are read.
-/
namespace RewardPool

/-- A way to do in one world what is done in another. -/
structure Lifting (m m' : Type → Type) [Monad m] [Monad m'] where
  map : {α : Type} → m α → m' α
  map_pure : ∀ {α : Type} (a : α), map (pure a) = pure a
  map_bind : ∀ {α β : Type} (x : m α) (f : α → m β), map (x >>= f) = map x >>= fun a => map (f a)

namespace Lifting

def comp {m m' m'' : Type → Type} [Monad m] [Monad m'] [Monad m''] (φ : Lifting m' m'')
    (ψ : Lifting m m') : Lifting m m'' where
  map x := φ.map (ψ.map x)
  map_pure a := by rw [ψ.map_pure, φ.map_pure]
  map_bind x f := by rw [ψ.map_bind, φ.map_bind]

variable {m m' : Type → Type} [Monad m] [Monad m'] {ε α β : Type} (φ : Lifting m m')

def node (n : RpcNode m) : RpcNode m' where
  call method parameters := φ.map (n.call method parameters)

def wallet (w : Wallet m) : Wallet m' where
  address := w.address
  sign request := φ.map (w.sign request)

def clock (c : Clock m) : Clock m' where
  stopped := φ.map c.stopped
  pause seconds := φ.map (c.pause seconds)

def disk (d : Disk m) : Disk m' where
  makeDirs p := φ.map (d.makeDirs p)
  isThere p := φ.map (d.isThere p)
  read p := φ.map (d.read p)
  write p text := φ.map (d.write p text)
  rename source target := φ.map (d.rename source target)

def beacon (n : BeaconNode m) : BeaconNode m' := ⟨n.base, fun url => φ.map (n.fetch url)⟩

def execution (n : ExecutionNode m) : ExecutionNode m' := ⟨φ.node n.node, n.batch⟩

def contract (c : PoolContract m) : PoolContract m' :=
  ⟨φ.node c.node, c.address, c.gasLimit, c.wallet.map φ.wallet⟩

def network (n : Network m) : Network m' :=
  ⟨φ.beacon n.beacon, φ.execution n.execution, φ.contract n.contract, n.policy, φ.clock n.clock,
    n.budget⟩

def store (s : Store m) : Store m' := ⟨s.dir, φ.disk s.disk⟩

def chain (c : Chain ε m) : Chain ε m' where
  finalizedSlot := φ.map c.finalizedSlot
  block slot := φ.map (c.block slot)
  proposer slot := φ.map (c.proposer slot)
  receipts number hashes := φ.map (c.receipts number hashes)
  subscriptions first last := φ.map (c.subscriptions first last)
  unsubscriptions first last := φ.map (c.unsubscriptions first last)
  whitelisted block address := φ.map (c.whitelisted block address)
  validator i slot := φ.map (c.validator i slot)

def submitter (s : Submitter ε m) : Submitter ε m' :=
  ⟨s.address, fun root => φ.map (s.submit root)⟩

def surroundings (s : Surroundings ε m) : Surroundings ε m' :=
  ⟨φ.chain s.chain, s.submitter.map φ.submitter, φ.store s.store, φ.clock s.clock⟩

/-- The host in the larger world, which has a disk of its own. -/
def host (host : Host m) (disk : String → Disk m') : Host m' where
  fetch url := φ.map (host.fetch url)
  connect url := φ.map do return (← host.connect url).map φ.node
  wallet key := φ.wallet (host.wallet key)
  disk := disk
  clock := φ.clock host.clock
  print text := φ.map (host.print text)

/-- The same lifting where there may be an error. -/
def except (ε : Type) : Lifting (ExceptT ε m) (ExceptT ε m') where
  map x := ExceptT.mk (φ.map x.run)
  map_pure _ := φ.map_pure _
  map_bind x f := by
    refine (φ.map_bind x.run _).trans (congrArg _ (funext fun r => ?_))
    cases r with
    | ok a => rfl
    | error e => exact φ.map_pure _

theorem run_except (x : ExceptT ε m α) : ((φ.except ε).map x).run = φ.map x.run := rfl

/-- The same lifting where a computation may be cut off. -/
def option : Lifting (OptionT m) (OptionT m') where
  map x := OptionT.mk (φ.map x.run)
  map_pure _ := φ.map_pure _
  map_bind x f := by
    refine (φ.map_bind x.run _).trans (congrArg _ (funext fun r => ?_))
    cases r with
    | some a => rfl
    | none => exact φ.map_pure _

theorem ask (n : RpcNode m) (method : String) (parameters : List Json) (read : Json → Option α) :
    (φ.node n).ask method parameters read = φ.map (n.ask method parameters read) := by
  unfold RpcNode.ask
  rw [φ.map_bind]
  refine congrArg _ (funext fun r => ?_)
  cases r with
  | error fault => exact (φ.map_pure _).symm
  | ok j =>
    dsimp only
    split <;> exact (φ.map_pure _).symm

section Beacon

variable (n : BeaconNode m)

theorem get (path : String) (read : Json → Option α) :
    (φ.beacon n).get path read = φ.map (n.get path read) := by
  unfold BeaconNode.get
  dsimp only
  rw [φ.map_bind]
  refine congrArg _ (funext fun r => ?_)
  repeat' split
  all_goals exact (φ.map_pure _).symm

theorem finalizedSlot : (φ.beacon n).finalizedSlot = φ.map n.finalizedSlot := by
  unfold BeaconNode.finalizedSlot
  dsimp only
  rw [φ.get, φ.map_bind]
  refine congrArg _ (funext fun r => ?_)
  split <;> exact (φ.map_pure _).symm

theorem block (slot : Slot) : (φ.beacon n).block slot = φ.map (n.block slot) := by
  unfold BeaconNode.block
  dsimp only
  rw [φ.get, φ.map_bind]
  refine congrArg _ (funext fun r => ?_)
  split <;> exact (φ.map_pure _).symm

theorem duties (epoch : UInt64) : (φ.beacon n).duties epoch = φ.map (n.duties epoch) := by
  unfold BeaconNode.duties
  dsimp only
  rw [φ.get, φ.map_bind]
  refine congrArg _ (funext fun r => ?_)
  split <;> exact (φ.map_pure _).symm

theorem proposer (c : DutyCache) (slot : Slot) :
    (φ.beacon n).proposer c slot = φ.map (n.proposer c slot) := by
  unfold BeaconNode.proposer
  split
  · exact (φ.map_pure _).symm
  · rw [φ.duties, φ.map_bind]
    refine congrArg _ (funext fun r => ?_)
    split
    · exact (φ.map_pure _).symm
    · dsimp only
      split <;> exact (φ.map_pure _).symm

theorem validator (i : ValidatorIndex) (slot : Slot) :
    (φ.beacon n).validator i slot = φ.map (n.validator i slot) :=
  φ.get n _ _

end Beacon

section Execution

variable (n : ExecutionNode m)

theorem executionBlock (number : BlockNumber) (full : Bool) :
    (φ.execution n).block number full = φ.map (n.block number full) := by
  unfold ExecutionNode.block
  rw [φ.map_bind]
  show (φ.node n.node).ask _ _ _ >>= _ = _
  rw [φ.ask]
  refine congrArg _ (funext fun r => ?_)
  split <;> exact (φ.map_pure _).symm

theorem transactions (number : BlockNumber) (expected : Hash) :
    (φ.execution n).transactions number expected = φ.map (n.transactions number expected) := by
  unfold ExecutionNode.transactions
  rw [φ.executionBlock, φ.map_bind]
  refine congrArg _ (funext fun r => ?_)
  cases r with
  | error e => exact (φ.map_pure _).symm
  | ok b =>
    dsimp only
    repeat' split
    all_goals exact (φ.map_pure _).symm

theorem header (number : BlockNumber) :
    (φ.execution n).header number = φ.map (n.header number) := by
  unfold ExecutionNode.header
  rw [φ.executionBlock, φ.map_bind]
  refine congrArg _ (funext fun r => ?_)
  split <;> exact (φ.map_pure _).symm

theorem receipt (n : RpcNode m) (transaction : Hash) :
    ExecutionNode.receipt (φ.node n) transaction = φ.map (ExecutionNode.receipt n transaction) := by
  unfold ExecutionNode.receipt
  rw [φ.ask, φ.map_bind]
  refine congrArg _ (funext fun r => ?_)
  split <;> exact (φ.map_pure _).symm

theorem mapM [LawfulMonad m] [LawfulMonad m'] (f : α → m β) (items : List α) :
    (items.mapM fun a => φ.map (f a)) = φ.map (items.mapM f) := by
  induction items with
  | nil => exact (φ.map_pure _).symm
  | cons a rest ih =>
    rw [List.mapM_cons, List.mapM_cons, φ.map_bind]
    refine congrArg _ (funext fun b => ?_)
    rw [ih, φ.map_bind]
    exact congrArg _ (funext fun bs => (φ.map_pure _).symm)

theorem receiptsFrom [LawfulMonad m] [LawfulMonad m'] (rounds : Nat) (hashes : List Hash) :
    (φ.execution n).receiptsFrom rounds hashes = φ.map (n.receiptsFrom rounds hashes) := by
  induction rounds generalizing hashes with
  | zero => exact (φ.map_pure _).symm
  | succ rounds ih =>
    have hbatch : (hashes.take n.batch).mapM (ExecutionNode.receipt (φ.node n.node)) =
        φ.map ((hashes.take n.batch).mapM (ExecutionNode.receipt n.node)) := by
      rw [← φ.mapM]
      exact congrArg (fun f => (hashes.take n.batch).mapM f) (funext fun h => φ.receipt n.node h)
    unfold ExecutionNode.receiptsFrom
    split
    · exact (φ.map_pure _).symm
    · rw [φ.map_bind]
      refine (congrArg (· >>= _) hbatch).trans (congrArg _ (funext fun answers => ?_))
      split
      · exact (φ.map_pure _).symm
      · rw [φ.map_bind, ih]
        refine congrArg _ (funext fun r => ?_)
        split <;> exact (φ.map_pure _).symm

theorem receipts [LawfulMonad m] [LawfulMonad m'] (hashes : List Hash) :
    (φ.execution n).receipts hashes = φ.map (n.receipts hashes) :=
  φ.receiptsFrom n _ hashes

end Execution

section Contract

variable (c : PoolContract m)

theorem callObject (input : List UInt8) :
    (φ.contract c).callObject input = c.callObject input := by
  unfold PoolContract.callObject contract
  rw [Option.map_map]
  rfl

theorem view (input : List UInt8) (block : Json) (read : Nat → α) :
    (φ.contract c).view input block read = φ.map (c.view input block read) := by
  unfold PoolContract.view
  rw [φ.map_bind, φ.callObject]
  show (φ.node c.node).ask _ _ _ >>= _ = _
  rw [φ.ask]
  refine congrArg _ (funext fun r => ?_)
  split <;> exact (φ.map_pure _).symm

theorem events (kind : EventKind α) (first last : BlockNumber) :
    (φ.contract c).events kind first last = φ.map (c.events kind first last) := by
  unfold PoolContract.events
  rw [φ.map_bind]
  show (φ.node c.node).ask _ _ _ >>= _ = _
  rw [φ.ask]
  refine congrArg _ (funext fun r => ?_)
  split <;> exact (φ.map_pure _).symm

theorem subscriptions (first last : BlockNumber) :
    (φ.contract c).subscriptions first last = φ.map (c.subscriptions first last) := by
  unfold PoolContract.subscriptions
  rw [φ.events, φ.map_bind]
  refine congrArg _ (funext fun r => ?_)
  split <;> exact (φ.map_pure _).symm

theorem unsubscriptions (first last : BlockNumber) :
    (φ.contract c).unsubscriptions first last = φ.map (c.unsubscriptions first last) := by
  unfold PoolContract.unsubscriptions
  rw [φ.events, φ.map_bind]
  refine congrArg _ (funext fun r => ?_)
  split <;> exact (φ.map_pure _).symm

theorem complete (w : Wallet m) (input : List UInt8) (fees : FeeEstimate) :
    (φ.contract c).complete (φ.wallet w) input fees =
      (φ.except RpcFault).map (c.complete w input fees) := by
  have hask : ∀ (method : String) (parameters : List Json),
      ExceptT.mk ((φ.contract c).node.ask method parameters (Json.quantity? 64)) =
        (φ.except RpcFault).map (ExceptT.mk (c.node.ask method parameters (Json.quantity? 64))) :=
    fun method parameters => congrArg ExceptT.mk (φ.ask c.node method parameters _)
  unfold PoolContract.complete
  dsimp only
  rw [(φ.except RpcFault).map_bind, hask]
  refine congrArg _ (funext fun chainId => ?_)
  rw [(φ.except RpcFault).map_bind]
  refine (congrArg (· >>= _) (hask _ _)).trans (congrArg _ (funext fun nonce => ?_))
  rw [φ.callObject]
  cases hgas : c.gasLimit with
  | some gas =>
    have hlimit : (φ.contract c).gasLimit = some gas := hgas
    rw [hlimit]
    dsimp only
    rw [(φ.except RpcFault).map_bind, (φ.except RpcFault).map_pure]
    exact congrArg _ (funext fun gas => ((φ.except RpcFault).map_pure _).symm)
  | none =>
    have hlimit : (φ.contract c).gasLimit = none := hgas
    rw [hlimit]
    dsimp only
    rw [(φ.except RpcFault).map_bind]
    refine (congrArg (· >>= _) (hask _ _)).trans (congrArg _ (funext fun gas => ?_))
    exact ((φ.except RpcFault).map_pure _).symm

theorem send (input : List UInt8) (fees : FeeEstimate) :
    (φ.contract c).send input fees = φ.map (c.send input fees) := by
  unfold PoolContract.send
  cases hwallet : c.wallet with
  | none =>
    have hnone : (φ.contract c).wallet = none := by rw [contract, hwallet]; rfl
    rw [hnone]
    exact φ.ask c.node _ _ _
  | some w =>
    have hsome : (φ.contract c).wallet = some (φ.wallet w) := by rw [contract, hwallet]; rfl
    rw [hsome]
    dsimp only
    rw [φ.map_bind, φ.complete]
    refine congrArg _ (funext fun r => ?_)
    split
    · exact (φ.map_pure _).symm
    · rw [φ.map_bind]
      exact congrArg _ (funext fun raw => φ.ask c.node _ _ _)

theorem confirm (method : String) (transaction : Hash) :
    (φ.contract c).confirm method transaction = φ.map (c.confirm method transaction) := by
  unfold PoolContract.confirm
  rw [φ.map_bind]
  show ExecutionNode.receipt (φ.node c.node) transaction >>= _ = _
  rw [φ.receipt]
  refine congrArg _ (funext fun r => ?_)
  split
  · exact (φ.map_pure _).symm
  · rw [φ.map_bind]
    show ExecutionNode.receipt (φ.node c.node) transaction >>= _ = _
    rw [φ.receipt]
    refine congrArg _ (funext fun r => ?_)
    split <;> exact (φ.map_pure _).symm

theorem fees : (φ.contract c).fees = φ.map c.fees := by
  unfold PoolContract.fees
  rw [φ.map_bind]
  show (φ.node c.node).ask _ _ _ >>= _ = _
  rw [φ.ask]
  refine congrArg _ (funext fun r => ?_)
  split
  · exact (φ.map_pure _).symm
  · split
    · exact (φ.map_pure _).symm
    · dsimp only
      rw [φ.map_bind]
      show (φ.node c.node).ask _ _ _ >>= _ = _
      rw [φ.ask]
      refine congrArg _ (funext fun r => ?_)
      split <;> exact (φ.map_pure _).symm

theorem invoke (method : String) (input : List UInt8) :
    (φ.contract c).invoke method input = φ.map (c.invoke method input) := by
  unfold PoolContract.invoke
  rw [φ.map_bind, φ.callObject]
  show (φ.node c.node).ask _ _ _ >>= _ = _
  rw [φ.ask]
  refine congrArg _ (funext fun r => ?_)
  split
  · exact (φ.map_pure _).symm
  · rw [φ.fees, φ.map_bind]
    refine congrArg _ (funext fun r => ?_)
    split
    · exact (φ.map_pure _).symm
    · rw [φ.send, φ.map_bind]
      refine congrArg _ (funext fun r => ?_)
      split
      · exact (φ.map_pure _).symm
      · exact φ.confirm c method _

theorem rewardsRoot : (φ.contract c).rewardsRoot = φ.map c.rewardsRoot := φ.view c _ _ _

theorem collateral : (φ.contract c).collateral = φ.map c.collateral := φ.view c _ _ _

theorem isMember (a : Address) (block : BlockNumber) :
    (φ.contract c).isMember a block = φ.map (c.isMember a block) := φ.view c _ _ _

theorem updateRoot (root : Hash) : (φ.contract c).updateRoot root = φ.map (c.updateRoot root) :=
  φ.invoke c _ _

end Contract

section Store

variable (s : Store m)

theorem orElse (op : m (Except DiskFault α)) (error : DiskFault → StoreError) :
    Store.orElse (φ.map op) error = (φ.except StoreError).map (Store.orElse op error) := by
  refine congrArg ExceptT.mk ?_
  refine Eq.trans ?_ (φ.map_bind _ _).symm
  refine congrArg _ (funext fun r => ?_)
  split <;> exact (φ.map_pure _).symm

theorem openDir : (φ.store s).openDir = (φ.except StoreError).map s.openDir :=
  φ.orElse _ _

theorem replace (f : StoreFile) (contents : String) :
    (φ.store s).replace f contents = (φ.except StoreError).map (s.replace f contents) := by
  unfold Store.replace
  rw [(φ.except StoreError).map_bind, ← φ.orElse]
  exact congrArg _ (funext fun _ => φ.orElse _ _)

theorem saveLedger (l : Ledger) :
    (φ.store s).saveLedger l = (φ.except StoreError).map (s.saveLedger l) :=
  φ.replace s _ _

theorem saveCheckpoint (c : Checkpoint) :
    (φ.store s).saveCheckpoint c = (φ.except StoreError).map (s.saveCheckpoint c) := by
  unfold Store.saveCheckpoint
  rw [(φ.except StoreError).map_bind, φ.replace]
  exact congrArg _ (funext fun _ => φ.replace s _ _)

theorem contents? [LawfulMonad m] [LawfulMonad m'] (f : StoreFile) :
    (φ.store s).contents? f = (φ.except StoreError).map (s.contents? f) := by
  have hlift : ∀ x : m Bool, (ExceptT.lift (φ.map x) : ExceptT StoreError m' Bool) =
      (φ.except StoreError).map (ExceptT.lift x) := by
    intro x
    refine ExceptT.ext ?_
    show Except.ok <$> φ.map x = φ.map (Except.ok <$> x)
    rw [map_eq_pure_bind, map_eq_pure_bind, φ.map_bind]
    exact congrArg _ (funext fun _ => (φ.map_pure _).symm)
  unfold Store.contents?
  rw [(φ.except StoreError).map_bind]
  refine congrArg₂ _ (hlift _) (funext fun there => ?_)
  split
  · rw [map_eq_pure_bind, map_eq_pure_bind, (φ.except StoreError).map_bind, ← φ.orElse]
    exact congrArg _ (funext fun _ => ((φ.except StoreError).map_pure _).symm)
  · exact ((φ.except StoreError).map_pure _).symm

theorem load? [LawfulMonad m] [LawfulMonad m'] [JsonForm α] (f : StoreFile) :
    (φ.store s).load? (α := α) f = (φ.except StoreError).map (s.load? f) := by
  unfold Store.load?
  rw [(φ.except StoreError).map_bind, φ.contents?]
  refine congrArg _ (funext fun contents => ?_)
  split
  · exact ((φ.except StoreError).map_pure _).symm
  · split <;> exact (φ.map_pure _).symm

theorem latestRoot? [LawfulMonad m] [LawfulMonad m'] :
    (φ.store s).latestRoot? = (φ.except StoreError).map s.latestRoot? := by
  unfold Store.latestRoot?
  rw [(φ.except StoreError).map_bind, φ.contents?]
  refine congrArg _ (funext fun contents => ?_)
  split
  · exact ((φ.except StoreError).map_pure _).symm
  · split <;> exact (φ.map_pure _).symm

theorem latestCheckpoint? [LawfulMonad m] [LawfulMonad m'] :
    (φ.store s).latestCheckpoint? = (φ.except StoreError).map s.latestCheckpoint? := by
  unfold Store.latestCheckpoint?
  rw [(φ.except StoreError).map_bind, φ.latestRoot?]
  refine congrArg _ (funext fun root => ?_)
  split
  · exact ((φ.except StoreError).map_pure _).symm
  · rw [(φ.except StoreError).map_bind]
    refine congrArg₂ _ (φ.load? s _) (funext fun found => ?_)
    split <;> exact (φ.map_pure _).symm

end Store

section Network

variable (n : Network m)

theorem mapError {δ : Type} (answer : m (Except ε α)) (f : ε → δ) :
    (do return (← φ.map answer).mapError f) = φ.map (do return (← answer).mapError f) := by
  rw [φ.map_bind]
  exact congrArg _ (funext fun _ => (φ.map_pure _).symm)

theorem ofBeacon (answer : m (Except BeaconError α)) :
    Network.ofBeacon (φ.map answer) = φ.map (Network.ofBeacon answer) :=
  φ.mapError answer _

theorem ofExecution (answer : m (Except ExecutionError α)) :
    Network.ofExecution (φ.map answer) = φ.map (Network.ofExecution answer) :=
  φ.mapError answer _

theorem blockOf (slot : Slot) : (φ.network n).blockOf slot = φ.map (n.blockOf slot) := by
  have hblock : ExceptT.mk (Network.ofBeacon ((φ.network n).beacon.block slot)) =
      (φ.except NetworkError).map (ExceptT.mk (Network.ofBeacon (n.beacon.block slot))) := by
    refine congrArg ExceptT.mk (Eq.trans (congrArg _ (φ.block n.beacon slot)) ?_)
    exact φ.ofBeacon _
  refine Eq.trans ?_ (congrArg ExceptT.run ((φ.except NetworkError).map_bind _ _).symm)
  refine congrArg ExceptT.run ((congrArg (· >>= _) hblock).trans ?_)
  refine congrArg _ (funext fun b => ?_)
  cases b with
  | none => exact ((φ.except NetworkError).map_pure _).symm
  | some b =>
    dsimp only
    rw [(φ.except NetworkError).map_bind]
    refine congrArg₂ _ ?_ (funext fun _ => ((φ.except NetworkError).map_pure _).symm)
    refine congrArg ExceptT.mk (Eq.trans (congrArg _ (φ.transactions n.execution _ _)) ?_)
    exact φ.ofExecution _

theorem receiptsOf [LawfulMonad m] [LawfulMonad m'] (number : BlockNumber) (hashes : List Hash) :
    (φ.network n).receiptsOf number hashes = φ.map (n.receiptsOf number hashes) := by
  refine Eq.trans ?_ (congrArg ExceptT.run ((φ.except NetworkError).map_bind _ _).symm)
  refine congrArg ExceptT.run (congrArg₂ _ ?_ (funext fun header => ?_))
  · refine congrArg ExceptT.mk (Eq.trans (congrArg _ (φ.header n.execution _)) ?_)
    exact φ.ofExecution _
  · rw [(φ.except NetworkError).map_bind]
    refine congrArg₂ _ ?_ (funext fun _ => ((φ.except NetworkError).map_pure _).symm)
    refine congrArg ExceptT.mk (Eq.trans (congrArg _ (φ.receipts n.execution _)) ?_)
    exact φ.ofExecution _

end Network

section Host

theorem contractFor (host : Host m) (disk : String → Disk m') (s : Settings) (node : RpcNode m) :
    φ.contract (Program.contractFor host s node) =
      Program.contractFor (φ.host host disk) s (φ.node node) := by
  unfold Program.contractFor contract
  rw [Option.map_map]
  rfl

theorem networkFor (host : Host m) (disk : String → Disk m') (s : Settings) (c : PoolContract m)
    (budget : Nat) :
    φ.network (Program.networkFor host s c budget) =
      Program.networkFor (φ.host host disk) s (φ.contract c) budget := rfl

/-- A node that the host in the larger world connects to is one that the host connects to. -/
theorem connect_bind [LawfulMonad m'] (x : m (Except RpcFault (RpcNode m))) (f : RpcFault → ε)
    (g : RpcNode m' → ExceptT ε m' α) :
    (ExceptT.adapt f (ExceptT.mk (φ.map do return (← x).map φ.node)) >>= g) =
      ExceptT.adapt f (ExceptT.mk (φ.map x)) >>= fun node => g (φ.node node) := by
  refine ExceptT.ext ?_
  rw [ExceptT.run_bind, ExceptT.run_bind]
  show (Except.mapError f <$> φ.map _) >>= _ = (Except.mapError f <$> φ.map x) >>= _
  rw [map_eq_pure_bind, map_eq_pure_bind, φ.map_bind, bind_assoc, bind_assoc, bind_assoc]
  refine congrArg _ (funext fun r => ?_)
  rw [φ.map_pure, pure_bind, pure_bind, pure_bind]
  cases r <;> rfl

end Host

/-- Computations that need no nodes, among those that do. -/
def online (m : Type → Type) [Monad m] [LawfulMonad m] : Lifting m (Online m) where
  map x := Network.online x
  map_pure a := by
    funext s
    show OptionT.lift (pure a) >>= _ = _
    rw [OptionT.lift_pure, pure_bind]
    rfl
  map_bind x f := by
    funext s
    show OptionT.lift (x >>= f) >>= _ = (OptionT.lift x >>= _) >>= _
    rw [OptionT.lift_bind, bind_assoc, bind_assoc]
    refine congrArg _ (funext fun a => ?_)
    rw [pure_bind]
    rfl

end Lifting

end RewardPool
