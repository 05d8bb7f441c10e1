import RewardPool.Proofs.Noting
import RewardPool.Proofs.Pairings

/-!
The same run in two worlds. If all operations that a run is given are paired, so are the runs: what is
read through the nodes, what is saved, and what is noted. In particular a run does the same whether or
not its calls are noted, as long as no other operation can tell.
-/
namespace RewardPool

open Merkle (Digest)

namespace Pairing

section Supervisor

variable {ε : Type} {m m' : Type → Type} [Monad m] [Monad m'] {P : Pairing m m'} {h : Digest}
variable {chain : Chain ε m} {chain' : Chain ε m'} {submitter : Option (Submitter ε m)}
variable {submitter' : Option (Submitter ε m')}

structure Chains (P : Pairing m m') (chain : Chain ε m) (chain' : Chain ε m') : Prop
    extends P.Asks chain chain' where
  finalizedSlot : P.Paired chain.finalizedSlot chain'.finalizedSlot
  whitelisted : ∀ block address,
    P.Paired (chain.whitelisted block address) (chain'.whitelisted block address)

/-- Submitters of one address whose submissions are paired. -/
structure Submits (P : Pairing m m') (t : Submitter ε m) (t' : Submitter ε m') : Prop where
  address : t.address = t'.address
  submit : ∀ root, P.Paired (t.submit root) (t'.submit root)

theorem submission (hc : P.Chains chain chain') (ht : Option.Rel P.Submits submitter submitter')
    (o : Oracle) (c : Checkpoint) :
    P.Paired (o.submission chain submitter c) (o.submission chain' submitter' c) := by
  unfold Oracle.submission
  cases ht with
  | none => exact P.pure _
  | some ht =>
    dsimp only
    split
    · exact P.pure _
    · rw [ht.address]
      refine P.bind (hc.whitelisted _ _) fun listed => ?_
      rcases listed with e | _ | _
      · exact P.pure _
      · exact P.pure _
      · refine P.bind (ht.submit c.root) fun submitted => ?_
        cases submitted <;> exact P.pure _

theorem processSlot [LawfulMonad m] [LawfulMonad m'] (hc : P.Chains chain chain')
    (ht : Option.Rel P.Submits submitter submitter') (o : Oracle) (slot : Slot) :
    P.Paired (o.processSlot h chain submitter slot) (o.processSlot h chain' submitter' slot) := by
  have hcommit : ∀ o : Oracle,
      P.Paired (o.commit h chain submitter slot) (o.commit h chain' submitter' slot) := by
    intro o
    unfold Oracle.commit
    split
    · exact P.pure _
    · refine P.bind (submission hc ht o _) fun submitted => ?_
      rcases submitted with _ | _ | _
      all_goals exact P.pure _
  unfold Oracle.processSlot
  split
  · exact P.pure _
  · refine P.bind (Pairing.slot hc.toAsks _ _ _) fun reconciled => ?_
    rcases reconciled with failure | ⟨l, report⟩
    · exact P.pure _
    · dsimp only
      split
      · exact P.pure _
      · exact P.pure _
      · refine P.bind (hcommit _) fun committed => ?_
        rcases committed with ⟨failure | checkpoint, o'⟩
        all_goals exact P.pure _

end Supervisor

section Stores

variable {m m' : Type → Type} [Monad m] [Monad m'] {P : Pairing m m'} {α : Type}
variable {store : Store m} {store' : Store m'}

/-- Stores of one name whose disks are paired. -/
structure Stores (P : Pairing m m') (store : Store m) (store' : Store m') : Prop where
  dir : store.dir = store'.dir
  makeDirs : ∀ p, P.Paired (store.disk.makeDirs p) (store'.disk.makeDirs p)
  isThere : ∀ p, P.Paired (store.disk.isThere p) (store'.disk.isThere p)
  read : ∀ p, P.Paired (store.disk.read p) (store'.disk.read p)
  write : ∀ p text, P.Paired (store.disk.write p text) (store'.disk.write p text)
  rename : ∀ source target,
    P.Paired (store.disk.rename source target) (store'.disk.rename source target)

theorem orElse {x : m (Except DiskFault α)} {y : m' (Except DiskFault α)} (hxy : P.Paired x y)
    (error : DiskFault → StoreError) :
    (P.except StoreError).Paired (Store.orElse x error) (Store.orElse y error) := by
  refine P.bind hxy fun r => ?_
  cases r <;> exact P.pure _

namespace Stores

theorem text (hs : P.Stores store store') (p : Path) : store.text p = store'.text p :=
  congrArg (joinPath · p) hs.dir

theorem openDir (hs : P.Stores store store') :
    (P.except StoreError).Paired store.openDir store'.openDir := by
  unfold Store.openDir
  rw [hs.dir]
  exact Pairing.orElse (hs.makeDirs _) _

theorem replace (hs : P.Stores store store') (f : StoreFile) (contents : String) :
    (P.except StoreError).Paired (store.replace f contents) (store'.replace f contents) := by
  unfold Store.replace
  rw [hs.text, hs.text]
  refine (P.except StoreError).bind (Pairing.orElse (hs.write _ _) _) fun _ => ?_
  exact Pairing.orElse (hs.rename _ _) _

theorem saveLedger (hs : P.Stores store store') (l : Ledger) :
    (P.except StoreError).Paired (store.saveLedger l) (store'.saveLedger l) :=
  hs.replace _ _

theorem saveCheckpoint (hs : P.Stores store store') (c : Checkpoint) :
    (P.except StoreError).Paired (store.saveCheckpoint c) (store'.saveCheckpoint c) :=
  (P.except StoreError).bind (hs.replace _ _) fun _ => hs.replace _ _

theorem contents? [LawfulMonad m] [LawfulMonad m'] (hs : P.Stores store store') (f : StoreFile) :
    (P.except StoreError).Paired (store.contents? f) (store'.contents? f) := by
  unfold Store.contents?
  refine (P.except StoreError).bind ?_ fun there => ?_
  · exact Pairing.exceptLift (hs.isThere _)
  · split
    · rw [map_eq_pure_bind, map_eq_pure_bind, hs.text]
      refine (P.except StoreError).bind (Pairing.orElse (hs.read _) _) fun _ => ?_
      exact (P.except StoreError).pure _
    · exact (P.except StoreError).pure _

theorem load? [LawfulMonad m] [LawfulMonad m'] [JsonForm α] (hs : P.Stores store store')
    (f : StoreFile) : (P.except StoreError).Paired (store.load? (α := α) f) (store'.load? f) := by
  unfold Store.load?
  refine (P.except StoreError).bind (hs.contents? f) fun contents => ?_
  rw [hs.text]
  split
  · exact (P.except StoreError).pure _
  · split <;> exact P.pure _

theorem latestCheckpoint? [LawfulMonad m] [LawfulMonad m'] (hs : P.Stores store store') :
    (P.except StoreError).Paired store.latestCheckpoint? store'.latestCheckpoint? := by
  have hroot : (P.except StoreError).Paired store.latestRoot? store'.latestRoot? := by
    unfold Store.latestRoot?
    refine (P.except StoreError).bind (hs.contents? _) fun contents => ?_
    rw [hs.text]
    split
    · exact (P.except StoreError).pure _
    · split <;> exact P.pure _
  unfold Store.latestCheckpoint?
  refine (P.except StoreError).bind hroot fun root => ?_
  split
  · exact (P.except StoreError).pure _
  · refine (P.except StoreError).bind (hs.load? _) fun found => ?_
    split <;> exact P.pure _

end Stores

end Stores

section Supervisor

variable {ε : Type} {m m' : Type → Type} [Monad m] [Monad m'] {P : Pairing m m'} {h : Digest}
variable {s : Surroundings ε m} {s' : Surroundings ε m'}
variable {note : Oracle.Call ε → m Unit} {note' : Oracle.Call ε → m' Unit}

structure Surrounds (P : Pairing m m') (s : Surroundings ε m) (s' : Surroundings ε m') : Prop where
  chain : P.Chains s.chain s'.chain
  submitter : Option.Rel P.Submits s.submitter s'.submitter
  saveLedger : ∀ l, P.Paired (s.store.saveLedger l).run (s'.store.saveLedger l).run
  saveCheckpoint : ∀ c, P.Paired (s.store.saveCheckpoint c).run (s'.store.saveCheckpoint c).run
  stopped : P.Paired s.clock.stopped s'.clock.stopped
  pause : ∀ seconds, P.Paired (s.clock.pause seconds) (s'.clock.pause seconds)

namespace Surrounds

theorem keepLedger (hs : P.Surrounds s s') (o : Oracle) :
    P.Paired (Supervisor.keepLedger s o) (Supervisor.keepLedger s' o) := by
  refine P.bind (hs.saveLedger _) fun r => ?_
  cases r <;> exact P.pure _

theorem keepCheckpoint (hs : P.Surrounds s s') (o : Oracle) :
    P.Paired (Supervisor.keepCheckpoint s o) (Supervisor.keepCheckpoint s' o) := by
  unfold Supervisor.keepCheckpoint
  split
  · exact P.pure _
  · refine P.bind (hs.saveCheckpoint _) fun r => ?_
    cases r with
    | ok _ => exact P.bind (hs.keepLedger o) fun _ => P.pure _
    | error e => exact P.pure _

theorem afterSlot (hs : P.Surrounds s s') (r : Except (Failure ε) SlotReport) (o : Oracle) :
    P.Paired (Supervisor.afterSlot s r o) (Supervisor.afterSlot s' r o) := by
  unfold Supervisor.afterSlot
  split
  · split
    · exact P.bind (hs.keepCheckpoint o) fun _ => P.pure _
    · exact P.pure _
  · exact P.bind (hs.keepCheckpoint o) fun _ => P.pure _
  · exact P.pure _

theorem advanceNoting [LawfulMonad m] [LawfulMonad m'] (hs : P.Surrounds s s')
    (hnote : ∀ call, P.Paired (note call) (note' call)) (o : Oracle) (slot : Slot) :
    P.Paired (Supervisor.advanceNoting h s note o slot)
      (Supervisor.advanceNoting h s' note' o slot) := by
  refine P.bind (Pairing.processSlot hs.chain hs.submitter o slot) fun r => ?_
  exact P.bind (hnote _) fun _ => hs.afterSlot r.1 r.2

variable {step : Supervisor.Step ε m} {step' : Supervisor.Step ε m'}

theorem advanceMany (hs : P.Surrounds s s')
    (hstep : ∀ o slot, P.Paired (step o slot) (step' o slot))
    (count : Nat) (slot : Slot) (o : Oracle) :
    P.Paired (Supervisor.advanceMany step s count slot o)
      (Supervisor.advanceMany step' s' count slot o) := by
  induction count generalizing slot o with
  | zero => exact P.pure _
  | succ count ih =>
    refine P.bind hs.stopped fun stopped => ?_
    split
    · exact P.pure _
    · refine P.bind (hstep o slot) fun r => ?_
      rcases r with ⟨failure | _, o'⟩
      · exact P.pure _
      · exact ih (slot + 1) o'

theorem catchUp (hs : P.Surrounds s s') (hstep : ∀ o slot, P.Paired (step o slot) (step' o slot))
    (o : Oracle) :
    P.Paired (Supervisor.catchUp step s o) (Supervisor.catchUp step' s' o) := by
  have hfinalized :
      P.Paired (Oracle.finalizedSlot s.chain) (Oracle.finalizedSlot s'.chain) := by
    refine P.bind hs.chain.finalizedSlot fun r => ?_
    cases r <;> exact P.pure _
  refine P.bind hfinalized fun answer => ?_
  rcases answer with failure | finalized
  · exact P.pure _
  · dsimp only
    split
    · exact P.pure _
    · refine P.bind (hs.advanceMany hstep _ _ _) fun r => ?_
      rcases r with ⟨failure | _, o'⟩
      · exact P.pure _
      · exact P.bind (hs.keepLedger o') fun _ => P.pure _

theorem afterRound (hs : P.Surrounds s s') (r : Except (Failure ε) Unit) :
    P.Paired (Supervisor.afterRound s r) (Supervisor.afterRound s' r) := by
  unfold Supervisor.afterRound
  split
  · exact P.pure _
  · exact P.pure _
  · refine P.bind hs.stopped fun stopped => ?_
    split
    · exact P.pure _
    · refine P.bind (hs.pause _) fun paused => ?_
      split <;> exact P.pure _

theorem rounds (hs : P.Surrounds s s') (hstep : ∀ o slot, P.Paired (step o slot) (step' o slot))
    (budget : Nat) (o : Oracle) :
    P.Paired (Supervisor.rounds step s budget o) (Supervisor.rounds step' s' budget o) := by
  induction budget generalizing o with
  | zero => exact P.pure _
  | succ budget ih =>
    refine P.bind hs.stopped fun stopped => ?_
    split
    · exact P.pure _
    · refine P.bind (hs.catchUp hstep o) fun r => ?_
      refine P.bind (hs.afterRound r.1) fun ending => ?_
      cases ending with
      | none => exact ih r.2
      | some ending => exact P.pure _

theorem runBy (hs : P.Surrounds s s') (hstep : ∀ o slot, P.Paired (step o slot) (step' o slot))
    (budget : Nat) (o : Oracle) :
    P.Paired (Supervisor.runBy step s budget o) (Supervisor.runBy step' s' budget o) := by
  refine P.bind (hs.rounds hstep budget o) fun r => ?_
  obtain ⟨ending, o'⟩ := r
  cases ending with
  | none => exact P.pure _
  | some ending =>
    have hconclude :
        P.Paired (Supervisor.conclude s o' ending) (Supervisor.conclude s' o' ending) := by
      unfold Supervisor.conclude
      split
      · exact P.pure _
      · refine P.bind (hs.saveLedger _) fun r => ?_
        cases r <;> exact P.pure _
    exact P.bind hconclude fun _ => P.pure _

end Surrounds

end Supervisor

section Network

variable {m₀ m m' : Type → Type} [Monad m₀] [Monad m] [Monad m'] {P : Pairing m m'} {ε α : Type}
variable {φ : Lifting m₀ m} {ψ : Lifting m₀ m'}

def online (P : Pairing m m') : Pairing (Online m) (Online m') := P.option.state DutyCache

theorem onlineLift {x : m α} {y : m' α} (hxy : P.Paired x y) :
    P.online.Paired (Network.online x) (Network.online y) :=
  stateLift (optionLift hxy)

/-- What is done in a world is paired with itself, as two larger worlds do it. -/
def Lifts (P : Pairing m m') (φ : Lifting m₀ m) (ψ : Lifting m₀ m') : Prop :=
  ∀ {α : Type} (x : m₀ α), P.Paired (φ.map x) (ψ.map x)

theorem tryFrom {clock : Clock m} {clock' : Clock m'} {x : m (Except ε α)} {y : m' (Except ε α)}
    (hpause : ∀ seconds, P.Paired (clock.pause seconds) (clock'.pause seconds))
    (hxy : P.Paired x y) (p : RetryPolicy) (name : String) (budget attempt : Nat) :
    P.option.Paired (p.tryFrom clock name x budget attempt)
      (p.tryFrom clock' name y budget attempt) := by
  induction budget generalizing attempt with
  | zero => exact P.pure _
  | succ budget ih =>
    refine P.option.bind (optionLift hxy) fun r => ?_
    cases r with
    | ok a => exact P.option.pure _
    | error e =>
      dsimp only
      split
      · exact P.option.pure _
      · refine P.option.bind (optionLift (hpause _)) fun paused => ?_
        split
        · exact ih (attempt + 1)
        · exact P.option.pure _

variable {n : Network m₀}

theorem insist (hP : P.Lifts φ ψ) (name : String) {x : m (Except NetworkError α)}
    {y : m' (Except NetworkError α)} (hxy : P.Paired x y) :
    P.online.Paired ((φ.network n).insist name x) ((ψ.network n).insist name y) :=
  stateLift (tryFrom (fun _ => hP _) hxy _ _ _ _)

theorem lifted (hP : P.Lifts φ ψ) {x : m α} {y : m' α} {z : m₀ α} (hx : x = φ.map z)
    (hy : y = ψ.map z) : P.Paired x y := by
  rw [hx, hy]
  exact hP z

theorem mapError {δ : Type} {x : m (Except ε α)} {y : m' (Except ε α)} (hxy : P.Paired x y)
    (f : ε → δ) :
    P.Paired (do return (← x).mapError f) (do return (← y).mapError f) :=
  P.bind hxy fun _ => P.pure _

theorem network [LawfulMonad m₀] [LawfulMonad m] [LawfulMonad m'] (hP : P.Lifts φ ψ)
    (n : Network m₀) :
    P.online.Chains (φ.network n).chain (ψ.network n).chain where
  finalizedSlot :=
    insist hP _ (mapError (lifted hP (φ.finalizedSlot n.beacon) (ψ.finalizedSlot n.beacon)) _)
  block slot := insist hP _ (lifted hP (φ.blockOf n slot) (ψ.blockOf n slot))
  proposer slot := by
    refine P.online.bind (fun s => P.option.pure (s, s)) fun c => ?_
    refine P.online.bind (insist hP _ (mapError
      (lifted hP (φ.proposer n.beacon c slot) (ψ.proposer n.beacon c slot)) _)) fun r => ?_
    rcases r with e | ⟨i, duties⟩
    · exact P.online.pure _
    · exact P.online.bind (fun _ => P.option.pure _) fun _ => P.online.pure _
  receipts number hashes :=
    insist hP _ (lifted hP (φ.receiptsOf n number hashes) (ψ.receiptsOf n number hashes))
  subscriptions first last := insist hP _ (mapError
    (lifted hP (φ.subscriptions n.contract first last) (ψ.subscriptions n.contract first last)) _)
  unsubscriptions first last := insist hP _ (mapError
    (lifted hP (φ.unsubscriptions n.contract first last)
      (ψ.unsubscriptions n.contract first last)) _)
  whitelisted block address := insist hP _ (mapError
    (lifted hP (φ.isMember n.contract address block) (ψ.isMember n.contract address block)) _)
  validator i slot := insist hP _ (mapError
    (lifted hP (φ.validator n.beacon i slot) (ψ.validator n.beacon i slot)) _)

theorem submitters (hP : P.Lifts φ ψ) (n : Network m₀) :
    Option.Rel P.online.Submits (φ.network n).submitter? (ψ.network n).submitter? := by
  have hsubmit : ∀ root,
      P.Paired ((φ.network n).contract.updateRoot root) ((ψ.network n).contract.updateRoot root) :=
    fun root => lifted hP (φ.updateRoot n.contract root) (ψ.updateRoot n.contract root)
  unfold Network.submitter? PoolContract.submitter?
  show Option.Rel _ (((n.contract.wallet.map φ.wallet).map _).map _)
    (((n.contract.wallet.map ψ.wallet).map _).map _)
  cases n.contract.wallet with
  | none => exact .none
  | some w => exact .some ⟨rfl, fun root => onlineLift (mapError (hsubmit root) _)⟩

end Network

section Program

variable {m₀ m m' : Type → Type} [Monad m₀] [Monad m] [LawfulMonad m] [Monad m'] [LawfulMonad m']
variable {P : Pairing m m'} {φ : Lifting m₀ m} {ψ : Lifting m₀ m'} {h : Digest}
variable {note : Oracle.Call NetworkFailure → m Unit}
variable {note' : Oracle.Call NetworkFailure → m' Unit}

theorem resume {store : Store m} {store' : Store m'} (hd : P.Stores store store') (s : Settings) :
    (P.except ProgramError).Paired (Program.resume store s) (Program.resume store' s) := by
  refine (P.except _).bind (adapt (hd.load? .ledger) _) fun found => ?_
  split
  · exact (P.except _).pure _
  · split
    · exact (P.except _).bind (P.pure _) fun _ => (P.except _).pure _
    · exact (P.except _).pure _

theorem checkBalance (hP : P.Lifts φ ψ) (c : PoolContract m₀) :
    (P.except ProgramError).Paired (Program.checkBalance (φ.contract c))
      (Program.checkBalance (ψ.contract c)) := by
  obtain ⟨node, address, gasLimit, wallet⟩ := c
  cases wallet with
  | none => exact P.pure _
  | some w =>
    refine (P.except _).bind (adapt (lifted hP (φ.ask node _ _ _) (ψ.ask node _ _ _)) _) fun _ => ?_
    exact P.pure _

theorem checkCollateral (hP : P.Lifts φ ψ) (c : PoolContract m₀) (config : Config) :
    (P.except ProgramError).Paired (Program.checkCollateral (φ.contract c) config)
      (Program.checkCollateral (ψ.contract c) config) := by
  have hrequired := lifted hP (φ.collateral c) (ψ.collateral c)
  refine (P.except _).bind (adapt hrequired _) fun required => ?_
  split <;> exact P.pure _

variable [LawfulMonad m₀]

theorem surrounds {host : Host m} {host' : Host m'} (hP : P.Lifts φ ψ) (n : Network m₀)
    {store : Store m} {store' : Store m'} (hd : P.Stores store store')
    (hclock : host.clock = φ.clock n.clock) (hclock' : host'.clock = ψ.clock n.clock) :
    P.online.Surrounds (Program.around host (φ.network n) store)
      (Program.around host' (ψ.network n) store') where
  chain := network hP n
  submitter := submitters hP n
  saveLedger l := by
    show P.online.Paired (((Lifting.online m).store store).saveLedger l).run
      (((Lifting.online m').store store').saveLedger l).run
    rw [Lifting.saveLedger, Lifting.saveLedger]
    exact onlineLift (hd.saveLedger l)
  saveCheckpoint c := by
    show P.online.Paired (((Lifting.online m).store store).saveCheckpoint c).run
      (((Lifting.online m').store store').saveCheckpoint c).run
    rw [Lifting.saveCheckpoint, Lifting.saveCheckpoint]
    exact onlineLift (hd.saveCheckpoint c)
  stopped := by
    show P.online.Paired (Network.online host.clock.stopped) (Network.online host'.clock.stopped)
    rw [hclock, hclock']
    exact onlineLift (hP _)
  pause seconds := by
    show P.online.Paired (Network.online (host.clock.pause seconds))
      (Network.online (host'.clock.pause seconds))
    rw [hclock, hclock']
    exact onlineLift (hP _)

theorem follow {host : Host m} {host' : Host m'} (hP : P.Lifts φ ψ) (n : Network m₀)
    {store : Store m} {store' : Store m'} (hd : P.Stores store store')
    (hclock : host.clock = φ.clock n.clock) (hclock' : host'.clock = ψ.clock n.clock)
    (hnote : ∀ call, P.Paired (note call) (note' call)) (o : Oracle) (budget : Nat) :
    P.Paired (Program.follow (Program.noting h note) host (φ.network n) store o budget)
      (Program.follow (Program.noting h note') host' (ψ.network n) store' o budget) := by
  have hs := surrounds hP n hd hclock hclock'
  have hstep := hs.advanceNoting (h := h) fun call => onlineLift (hnote call)
  exact P.bind (hs.runBy hstep budget o .empty) fun _ => P.pure _

/-- Runs on hosts that differ in the world they are in are paired, and what they note with them. -/
theorem runBy (hP : P.Lifts φ ψ) (host : Host m₀) (disk : String → Disk m)
    (disk' : String → Disk m') (s : Settings)
    (hd : P.Stores ⟨s.stateDir, disk s.stateDir⟩ ⟨s.stateDir, disk' s.stateDir⟩)
    (hnote : ∀ call, P.Paired (note call) (note' call)) (budget : Nat) :
    (P.except ProgramError).Paired (Program.runBy (Program.noting h note) (φ.host host disk) s budget)
      (Program.runBy (Program.noting h note') (ψ.host host disk') s budget) := by
  have hcheck :
      (P.except ProgramError).Paired (Program.checkMetrics s) (Program.checkMetrics s) := by
    unfold Program.checkMetrics
    split
    · exact P.pure _
    · exact P.pure _
  refine (P.except _).bind hcheck fun _ => ?_
  refine (P.except _).bind (adapt hd.openDir _) fun _ => ?_
  refine (P.except _).bind (resume hd s) fun l => ?_
  show (P.except ProgramError).Paired (ExceptT.adapt _ (ExceptT.mk (φ.map _)) >>= _)
    (ExceptT.adapt _ (ExceptT.mk (ψ.map _)) >>= _)
  rw [φ.connect_bind, ψ.connect_bind]
  refine (P.except _).bind (adapt (hP _) _) fun node => ?_
  dsimp only
  rw [← φ.contractFor, ← ψ.contractFor]
  refine (P.except _).bind (checkBalance hP _) fun _ => ?_
  refine (P.except _).bind (checkCollateral hP _ _) fun _ => ?_
  refine (P.except _).bind (adapt (lifted hP (φ.rewardsRoot _) (ψ.rewardsRoot _)) _) fun root => ?_
  refine (P.except _).bind (adapt hd.latestCheckpoint? _) fun latest => ?_
  rw [← φ.networkFor, ← ψ.networkFor]
  refine (P.except _).bind
    (exceptLift (follow hP _ hd rfl rfl hnote _ budget)) fun ending => ?_
  split <;> exact P.pure _

end Program

end Pairing

end RewardPool
