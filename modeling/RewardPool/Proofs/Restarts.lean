import RewardPool.Proofs.Notes
import RewardPool.Proofs.Startup

/-!
Runs that are cut off and begun anew. What a run leaves in its store, wherever it is cut off, is a sound
shelf with a ledger of the run that is never interrupted, or none. So the next run goes on from there,
and what the runs settle among them, they settle as the uninterrupted run does.
-/
namespace RewardPool

open Merkle (Digest)
open Mortal (outcome Ends)

/-- A shelf that a run may go on from: the latest checkpoint is there, and the ledger is one of the
run that is never interrupted. -/
structure Shelf.Resumable (H : History) (config : Config) (s : Shelf) : Prop where
  sound : s.Sound
  ledger : ∀ l, s.ledger = some l → ∃ n, H.Replayed config n l

namespace Shelf.Resumable

variable {H : History} {config : Config} {s s' : Shelf} {c : Checkpoint} {l : Ledger} {n : Nat}

theorem of_empty (H : History) (config : Config) : Shelf.empty.Resumable H config :=
  ⟨Shelf.sound_empty, nofun⟩

theorem meanwhile (hs : s.Resumable H config) (h : s.Meanwhile c s') : s'.Resumable H config :=
  ⟨h.sound, h.ledger ▸ hs.ledger⟩

theorem keepLedger (hs : s.Resumable H config) (hl : H.Replayed config n l) :
    (s.keepLedger l).Resumable H config :=
  ⟨hs.sound, fun _ hl' => ⟨n, Option.some.inj hl' ▸ hl⟩⟩

end Shelf.Resumable

namespace Exposed

variable {κ : Type} {H : History} {h : Digest} {config : Config} {base place : Path}

/-- The run that is never interrupted accounts for all calls that are noted, as far as they settle a
slot. -/
def Accounted (H : History) (h : Digest) (config : Config) (w : Noted κ) : Prop :=
  ∀ call ∈ w.record, call.settles = true → H.Accounts h config call

/-- What runs keep, wherever they are cut off. -/
structure Kept (H : History) (h : Digest) (config : Config) (base place : Path)
    (w : Noted κ) : Prop where
  shelf : ∃ s : Shelf, s.Resumable H config ∧ Holds base place s w.world
  calls : Accounted H h config w

theorem saveCheckpoint_passes (perils : Perils κ) (dir : String) (c : Checkpoint) :
    (Judgement.guarding (Kept H h config base place)).Passes
      (((noting κ).store (store perils base dir)).saveCheckpoint c).run := by
  rw [Lifting.saveCheckpoint, Lifting.run_except]
  refine Judgement.guarding_aside fun record w hw => ⟨?_, fun _ _ => trivial⟩
  obtain ⟨s, hs, hholds⟩ := hw.shelf
  obtain ⟨s', hholds', hmeanwhile, -⟩ := after_saveCheckpoint perils dir hholds hs.sound c
  exact ⟨⟨s', hs.meanwhile hmeanwhile, hholds'⟩, hw.calls⟩

theorem saveLedger_passes (perils : Perils κ) (dir : String) {n : Nat} {l : Ledger}
    (hl : H.Replayed config n l) :
    (Judgement.guarding (Kept H h config base place)).Passes
      (((noting κ).store (store perils base dir)).saveLedger l).run := by
  rw [Lifting.saveLedger, Lifting.run_except]
  refine Judgement.guarding_aside fun record w hw => ⟨?_, fun _ _ => trivial⟩
  obtain ⟨s, hs, hholds⟩ := hw.shelf
  obtain ⟨s', hholds', hcases, -⟩ := after_saveLedger perils dir hholds l
  have hs' : s'.Resumable H config := by
    rcases hcases with rfl | rfl
    · exact hs
    · exact hs.keepLedger hl
  exact ⟨⟨s', hs', hholds'⟩, hw.calls⟩

theorem note_passes {call : Oracle.Call NetworkFailure}
    (hcall : call.settles = true → H.Accounts h config call) :
    (Judgement.guarding (Kept (κ := κ) H h config base place)).Passes (note call) := by
  intro w hw
  refine ⟨⟨hw.shelf, ?_⟩, fun _ _ => trivial⟩
  intro other hother hsettles
  rcases List.mem_append.mp hother with hearlier | hnew
  · exact hw.calls other hearlier hsettles
  · obtain rfl := List.mem_singleton.mp hnew
    exact hcall hsettles

theorem stores_kept (perils : Perils κ) (dir : String) :
    Program.Stores (Judgement.guarding (Kept H h config base place)) H h config
      ((noting κ).store (store perils base dir)) note where
  saveCheckpoint := saveCheckpoint_passes perils dir
  saveLedger _ _ := saveLedger_passes perils dir
  note _ := note_passes

theorem finds_kept (perils : Perils κ) (dir : String) :
    Program.Finds (Judgement.guarding (Kept H h config base place)) H config
      ((noting κ).store (store perils base dir)) where
  loadLedger := by
    unfold Store.loadLedger?
    rw [Lifting.load?, Lifting.run_except]
    refine Judgement.guarding_aside fun record => Judgement.guarding_of_outcome fun w hw => ?_
    obtain ⟨s, hs, hholds⟩ := hw.shelf
    exact ⟨_, loadLedger?_outcome perils dir hholds, s.ledger, rfl, hs.ledger⟩
  latestCheckpoint := by
    rw [Lifting.latestCheckpoint?, Lifting.run_except]
    refine Judgement.guarding_aside fun record => Judgement.guarding_of_outcome fun w hw => ?_
    obtain ⟨s, hs, hholds⟩ := hw.shelf
    exact ⟨_, latestCheckpoint?_outcome perils dir hholds hs.sound, _, rfl⟩

end Exposed

/-- Whatever node a host connects to, what is read through the nodes is what the history has, if it is
read at all. -/
def Host.Informs {κ : Type} (H : History) (host : Host (StateM κ)) (s : Settings) : Prop :=
  ∀ node budget, Returns (host.connect (Program.socketUrl s.executionUrl)) (.ok node) →
    Judgement.returning.Informs H
      (Program.networkFor host s (Program.contractFor host s node) budget)

namespace Exposed

variable {σ κ : Type} {H : History} {h : Digest} {s : Settings} {place : Path}
variable {host : Host (StateM κ)}

theorem connect_holds (hhost : host.Informs H s) (perils : Perils κ) (base : String → Path)
    {I : Noted κ → Prop}
    (hI : ∀ w world, I w → I { w with world := { w.world with world } }) (budget : Nat) :
    (Judgement.guarding I).Holds
      ((notedHost host perils base).connect (Program.socketUrl s.executionUrl))
      (IfOk fun node =>
        (Judgement.guarding I).Informs H
          (Program.networkFor (notedHost host perils base) s
            (Program.contractFor (notedHost host perils base) s node) budget) ∧
          Program.NodePasses (Judgement.guarding I) node) := by
  refine noting_holds hI ?_
  have hreturned : Judgement.returning.Holds (host.connect (Program.socketUrl s.executionUrl))
      (Returns (host.connect (Program.socketUrl s.executionUrl))) := fun _ hr => hr
  refine Judgement.returning.holds_bind hreturned fun r hr => ?_
  refine Judgement.returning.holds_pure ?_
  intro node' hnode
  cases r with
  | error fault => exact absurd hnode nofun
  | ok node =>
    obtain rfl := Except.ok.inj hnode
    constructor
    · unfold notedHost
      rw [← Lifting.contractFor, ← Lifting.networkFor]
      exact (hhost node budget hr).lift ((noting κ).comp (lifting κ)) fun x R => noting_holds hI
    · intro method parameters
      exact noting_holds hI fun _ _ => trivial

/-- What a run may begin with. -/
structure Ready (H : History) (h : Digest) (config : Config) (base place : Path)
    (w : Noted κ) : Prop where
  shelf : ∃ s : Shelf, s.Resumable H config ∧ Opens base place s w.world
  calls : Accounted H h config w

theorem Kept.ready {config : Config} {base : Path} {w : Noted κ}
    (hw : Kept H h config base place w) : Ready H h config base place w := by
  obtain ⟨shelf, hs, hholds⟩ := hw.shelf
  exact ⟨⟨shelf, hs, opens_of_holds hholds⟩, hw.calls⟩

theorem ready_of_opens (H : History) (h : Digest) (config : Config) {base : Path}
    {start : Exposed κ} (hopens : Opens base place .empty start) :
    Ready H h config base place ⟨start, []⟩ where
  shelf := ⟨.empty, .of_empty H config, hopens⟩
  calls _ hcall := absurd hcall List.not_mem_nil

theorem checkMetrics_outcome (s : Settings) (w : σ) :
    ∃ r, outcome (Program.checkMetrics (m := Mortal σ) s).run w = (some r, w) ∧
      ∀ e, r = .error e → e.Blameless := by
  unfold Program.checkMetrics
  split
  · exact ⟨.error .metricsEndpoint, rfl, fun e he => Except.error.inj he ▸ trivial⟩
  · exact ⟨.ok (), rfl, nofun⟩

/-- A run does not fail because of the store, and leaves it ready for the next run, wherever it is
cut off. -/
theorem noting_ends (hhost : host.Informs H s) (perils : Perils κ) (base : String → Path)
    (budget : Nat) :
    Ends (Ready H h s.config (base s.stateDir) place)
      (Program.runBy (Program.noting h note) (notedHost host perils base) s budget).run
      (Ready H h s.config (base s.stateDir) place) fun r _ => ∀ e, r = .error e → e.Blameless := by
  intro w hw
  obtain ⟨r, hcheck, hr⟩ := checkMetrics_outcome s w
  cases r with
  | error e =>
    unfold Program.runBy
    rw [ExceptT.run_bind, Mortal.outcome_bind_of_some hcheck]
    exact ⟨hw, fun r' hr' => Option.some.inj hr' ▸ hr⟩
  | ok _ =>
    obtain ⟨shelf, hs, hopens⟩ := hw.shelf
    obtain ⟨files, hopen, hholds⟩ := hopens.openDir perils s.stateDir
    have hopened : outcome (Program.ofStore
        (Program.storeAt (notedHost host perils base) s.stateDir).openDir).run w =
          (some (.ok ()), { w with world := { w.world with files } }) := by
      refine Mortal.outcome_adapt ?_
      show outcome ((noting κ).store (store perils (base s.stateDir) s.stateDir)).openDir.run w = _
      rw [Lifting.openDir, Lifting.run_except]
      exact congrArg (fun r => (r.1, { w with world := r.2 })) hopen
    unfold Program.runBy
    rw [Mortal.outcome_run_bind hcheck, Mortal.outcome_run_bind hopened]
    have hkept : Kept H h s.config (base s.stateDir) place
        { w with world := { w.world with files } } :=
      ⟨⟨shelf, hs, hholds⟩, hw.calls⟩
    have hconnect := connect_holds hhost perils base
      (I := Kept H h s.config (base s.stateDir) place)
      (fun _ _ hw => ⟨hw.shelf, hw.calls⟩) budget
    obtain ⟨hleft, hresult⟩ := Program.goOn_passes (finds_kept perils _)
      (stores_kept perils _) budget hconnect _ hkept
    refine ⟨hleft.ready, fun r hr e he => ?_⟩
    have hblameless := hresult r hr
    rw [he] at hblameless
    exact hblameless

/-- What the runs come to that are begun one after the other, each with a budget of its own. Nothing
comes of a run that is cut off. -/
def sessions (run : Nat → Program.Step (Mortal σ) Unit) (budgets : List Nat) :
    StateM σ (List (Option (Except ProgramError Unit))) :=
  budgets.mapM fun budget => (run budget).run.run

theorem sessions_cons (run : Nat → Program.Step (Mortal σ) Unit) (budget : Nat) (rest : List Nat)
    (w : σ) :
    (sessions run (budget :: rest)).run w =
      let (r, w') := outcome (run budget).run w
      let (rs, w'') := (sessions run rest).run w'
      (r :: rs, w'') := by
  unfold sessions
  rw [List.mapM_cons]
  rfl

theorem sessions_end (hhost : host.Informs H s) (perils : Perils κ) (base : String → Path)
    (budgets : List Nat) {w : Noted κ}
    (hw : Ready H h s.config (base s.stateDir) place w) :
    let r := (sessions
      (Program.runBy (Program.noting h note) (notedHost host perils base) s) budgets).run w
    Ready H h s.config (base s.stateDir) place r.2 ∧ ∀ e, some (.error e) ∈ r.1 → e.Blameless := by
  induction budgets generalizing w with
  | nil => exact ⟨hw, nofun⟩
  | cons budget rest ih =>
    obtain ⟨hleft, hresult⟩ := noting_ends hhost perils base budget w hw
    obtain ⟨hrest, hresults⟩ := ih hleft
    rw [sessions_cons]
    refine ⟨hrest, ?_⟩
    intro e he
    rcases List.mem_cons.mp he with hfirst | hlater
    · exact hresult _ hfirst.symm e rfl
    · exact hresults e hlater

theorem sessions_of_noting (h : Digest) (host : Host (StateM κ)) (perils : Perils κ)
    (base : String → Path) (s : Settings) (budgets : List Nat) (w : Noted κ) :
    (sessions (Program.run h (Exposed.host host perils base) s) budgets).run w.world =
      let r := (sessions
        (Program.runBy (Program.noting h note) (notedHost host perils base) s) budgets).run w
      (r.1, r.2.world) := by
  induction budgets generalizing w with
  | nil => rfl
  | cons budget rest ih =>
    rw [sessions_cons, sessions_cons, run_of_runNoting]
    dsimp only
    rw [ih]
    rfl

/-- Runs that are begun one after the other in a directory that was empty, each of them cut off or not
in any of its saves: none fails because of what is stored, and if their calls are noted, which changes
nothing else, each slot that was settled was settled as by the run that is never interrupted. -/
theorem restarts_agree (hhost : host.Informs H s) (perils : Perils κ) (base : String → Path)
    {start : Exposed κ} (hopens : Opens (base s.stateDir) place .empty start) (h : Digest)
    (budgets : List Nat) :
    let runs := (sessions (Program.run h (Exposed.host host perils base) s) budgets).run start
    let noted := (sessions
      (Program.runBy (Program.noting h note) (notedHost host perils base) s) budgets).run ⟨start, []⟩
    runs = (noted.1, noted.2.world) ∧ (∀ e, some (.error e) ∈ runs.1 → e.Blameless) ∧
      ∀ call ∈ noted.2.record, call.settles = true → H.Accounts h s.config call := by
  intro runs noted
  have hready := ready_of_opens H h s.config hopens
  have hruns : runs = (noted.1, noted.2.world) :=
    sessions_of_noting h host perils base s budgets ⟨start, []⟩
  obtain ⟨hend, hblameless⟩ := sessions_end hhost perils base budgets hready
  refine ⟨hruns, ?_, hend.calls⟩
  intro e he
  rw [hruns] at he
  exact hblameless e he

end Exposed

/-! A chain of missed slots, on whose nodes each read but that of the latest finalized slot finds the same
whenever it is made. The first run is cut off while it writes its ledger for the first time. The second
one begins anew, and is cut off once its ledger is saved, in the last write. The third one goes on from
that ledger. -/
namespace TornLedger

def finalized (slot : String) : Json :=
  .object [("data", .object [("header", .object [("message", .object [("slot", .ofText slot)])])])]

def duty (slot : String) : Json :=
  .object [("validator_index", .ofText "7"), ("slot", .ofText slot)]

def duties : Json := .object [("data", .array [duty "100", duty "101", duty "102"])]

/-- The state of the world is the number of writes so far. After the third one, a slot more is final. -/
def reply (writes : Nat) (url : String) : Reply :=
  if "/eth/v1/beacon/headers/".toList.isPrefixOf url.toList then
    .answered 200 (finalized (if writes < 3 then "101" else "102")).compact
  else if "/eth/v1/validator/duties/".toList.isPrefixOf url.toList then .answered 200 duties.compact
  else .answered 404 ""

/-- A collateral of 1000, and no events. -/
def answer (method : String) : Except RpcFault Json :=
  if method = "eth_call" then .ok (.ofBytes (List.replicate 30 0 ++ [3, 232]))
  else if method = "eth_getLogs" then .ok (.array [])
  else .error (.unreadable method)

def disk : Disk (StateM Nat) where
  makeDirs _ := return .ok ()
  isThere _ := return false
  read _ := return .error .notFound
  write _ _ := return .ok ()
  rename _ _ := return .ok ()

def host : Host (StateM Nat) where
  fetch url := return reply (← get) url
  connect _ := return .ok ⟨fun method _ => return answer method⟩
  wallet _ := ⟨.fill 0, fun _ => return []⟩
  disk _ := disk
  clock := ⟨return false, fun _ => return false⟩
  print _ := return ()

/-- The program ends in the first write, and in the third one. -/
def perils : Perils Nat where
  write _ _ := fun writes => (if writes = 0 ∨ writes = 2 then .cut (some "x") else .spared, writes + 1)
  rename _ _ := return .spared

def settings : Settings where
  config := QuietChain.oracle.config
  consensusUrl := ""
  executionUrl := ""
  stateDir := "store"
  key := none
  gasLimit := none
  retryDelay := 1
  receiptConcurrency := 1
  metricsEndpoint := none

def start : Exposed Nat := ⟨0, .empty⟩

def nodes (budget : Nat) : Network (StateM Nat) :=
  Program.networkFor host settings
    (Program.contractFor host settings ⟨fun method _ => return answer method⟩) budget

theorem fetch_eq {url : String} {r : Reply} (hreply : ∀ writes, reply writes url = r) :
    host.fetch url = pure r := by
  funext writes
  show (reply writes url, writes) = (r, writes)
  rw [hreply]

theorem reply_block (slot : Slot) (writes : Nat) :
    reply writes ("" ++ ("/eth/v2/beacon/blocks/" ++ Numeral.word slot)) = .answered 404 "" := by
  simp [reply]

theorem reply_validator (i : ValidatorIndex) (slot : Slot) (writes : Nat) :
    reply writes ("" ++ ("/eth/v1/beacon/states/" ++ Numeral.word slot ++ "/validators/" ++
      Numeral.word i)) = .answered 404 "" := by
  simp [reply]

theorem reply_duties (epoch : UInt64) (writes : Nat) :
    reply writes ("" ++ ("/eth/v1/validator/duties/proposer/" ++ Numeral.word epoch)) =
      .answered 200 duties.compact := by
  simp [reply]

theorem get_missing (budget : Nat) {α : Type} {path : String} (read : Json → Option α)
    (hpath : ∀ writes, reply writes ("" ++ path) = .answered 404 "") :
    (nodes budget).beacon.get path read = pure (.ok none) := by
  unfold BeaconNode.get
  show (host.fetch ("" ++ path) >>= _) = _
  rw [fetch_eq hpath]
  rfl

theorem blockOf_missing (budget : Nat) (slot : Slot) :
    (nodes budget).blockOf slot = pure (.ok none) := by
  have hblock : (nodes budget).beacon.block slot = pure (.ok none) := by
    unfold BeaconNode.block
    dsimp only
    rw [get_missing budget _ (reply_block slot)]
    rfl
  unfold Network.blockOf Network.ofBeacon
  rw [hblock]
  rfl

theorem duties_found (budget : Nat) (epoch : UInt64) :
    (nodes budget).beacon.duties epoch = pure (.ok [⟨7, 100⟩, ⟨7, 101⟩, ⟨7, 102⟩]) := by
  have hread : (Json.parseWithGaps? duties.compact >>=
      Json.inside? "data" fun j => j.array? >>= List.mapM Duty.ofJson?) =
        some [⟨7, 100⟩, ⟨7, 101⟩, ⟨7, 102⟩] := by
    decide +kernel
  unfold BeaconNode.duties BeaconNode.get
  show (host.fetch ("" ++ ("/eth/v1/validator/duties/proposer/" ++ Numeral.word epoch)) >>= _) >>=
    _ = _
  rw [fetch_eq (reply_duties epoch), pure_bind]
  dsimp only
  rw [if_neg (by decide), if_neg (by decide), hread]
  rfl

theorem duties_right (epoch : UInt64) :
    (DutyCache.ofDuties epoch [⟨7, 100⟩, ⟨7, 101⟩, ⟨7, 102⟩]).Right QuietChain.history := by
  intro slot i hi
  unfold DutyCache.proposer? at hi
  split at hi
  · replace hi : (((SortedMap.empty.insert 100 7).insert 101 7).insert 102 7).find? slot = some i := hi
    rw [SortedMap.find?_insert, SortedMap.find?_insert, SortedMap.find?_insert,
      SortedMap.find?_empty] at hi
    split_ifs at hi
    all_goals exact (Option.some.inj hi).symm
  · exact absurd hi nofun

theorem events_none (budget : Nat) {α : Type} (kind : EventKind α) (first last : BlockNumber) :
    (nodes budget).contract.events kind first last = pure (.ok []) := by
  have hevents : (nodes budget).contract.events kind first last =
      pure (.ok (List.mergeSort [] fun a b => a.2.notAfter b.2)) := rfl
  rw [hevents, List.mergeSort_nil]

theorem receiptsOf_unreadable (budget : Nat) (number : BlockNumber) (hashes : List Hash) :
    (nodes budget).receiptsOf number hashes =
      pure (.error (.execution (.node (.unreadable "eth_getBlockByNumber")))) := rfl

theorem informs : host.Informs QuietChain.history settings := by
  rintro node budget ⟨w, hnode⟩
  obtain rfl := Except.ok.inj hnode
  constructor
  · intro slot
    show Judgement.returning.Holds ((nodes budget).blockOf slot) _
    rw [blockOf_missing]
    exact Judgement.returning.holds_pure fun b hb => (Except.ok.inj hb).symm
  · intro epoch
    show Judgement.returning.Holds ((nodes budget).beacon.duties epoch) _
    rw [duties_found]
    exact Judgement.returning.holds_pure fun ds hds => Except.ok.inj hds ▸ duties_right epoch
  · intro number hashes
    show Judgement.returning.Holds ((nodes budget).receiptsOf number hashes) _
    rw [receiptsOf_unreadable]
    exact Judgement.returning.holds_pure nofun
  · intro first last
    show Judgement.returning.Holds ((nodes budget).contract.subscriptions first last) _
    unfold PoolContract.subscriptions
    rw [events_none]
    exact Judgement.returning.holds_pure fun b hb => (Except.ok.inj hb).symm
  · intro first last
    show Judgement.returning.Holds ((nodes budget).contract.unsubscriptions first last) _
    unfold PoolContract.unsubscriptions
    rw [events_none]
    exact Judgement.returning.holds_pure fun b hb => (Except.ok.inj hb).symm
  · intro i slot
    show Judgement.returning.Holds ((nodes budget).beacon.validator i slot) _
    unfold BeaconNode.validator
    rw [get_missing budget _ (reply_validator i slot)]
    exact Judgement.returning.holds_pure fun b hb => (Except.ok.inj hb).symm
  all_goals intros; exact fun _ _ => trivial

def base : String → Path := fun _ => []

theorem torn_ledger_is_made_up_for :
    let runs := (Exposed.sessions
      (Program.run Keccak.digest (Exposed.host host perils base) settings) [1, 1, 1]).run start
    let noted := (Exposed.sessions
      (Program.runBy (Program.noting Keccak.digest Exposed.note)
        (Exposed.notedHost host perils base) settings) [1, 1, 1]).run ⟨start, []⟩
    host.Informs QuietChain.history settings ∧
      Exposed.Opens (base settings.stateDir) [] .empty start ∧
      (noted.1.map Option.isSome, noted.2.record.map fun call => (call.slot, call.settles)) =
        ([false, false, true],
          [(100, true), (101, true), (100, true), (101, true), (102, true)]) ∧
      runs = (noted.1, noted.2.world) ∧
      (∀ e, some (.error e) ∈ runs.1 → e.Blameless) ∧
      ∀ call ∈ noted.2.record, call.settles = true →
        QuietChain.history.Accounts Keccak.digest settings.config call := by
  have hopens : Exposed.Opens (base settings.stateDir) [] .empty start := Exposed.opens_nothing 0
  exact ⟨informs, hopens, by decide +kernel,
    Exposed.restarts_agree informs perils base hopens Keccak.digest [1, 1, 1]⟩

end TornLedger

end RewardPool
