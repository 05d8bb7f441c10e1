import RewardPool.Proofs.Networks

/-!
How a run starts up from a store. What it finds there is a ledger of the run that is never interrupted,
or none, and a latest checkpoint that can be read. Then whatever keeps it from going on, it is not the
store, and it goes on from a ledger that the uninterrupted run has, too.
-/
namespace RewardPool

open Merkle (Digest)

/-- A failure for which the store is not to blame. That a ledger could not be saved at the end of a run
is no matter of starting up. -/
def ProgramError.Blameless : ProgramError → Prop
  | .store _ | .otherLedger _ => False
  | _ => True

namespace Judgement

variable {m : Type → Type} [Monad m] [LawfulMonad m] {J : Judgement m} {ε δ α : Type} {R : α → Prop}
variable {E : ε → Prop}

theorem holds_adapt {x : ExceptT δ m α} {f : δ → ε} {P : Except δ α → Prop} (hx : J.Holds x.run P)
    (hok : ∀ a, P (.ok a) → R a) (herror : ∀ e, P (.error e) → E (f e)) :
    (J.except E).Holds (x.adapt f) R := by
  show J.Holds (Except.mapError f <$> x.run) _
  rw [map_eq_pure_bind]
  refine J.holds_bind hx fun r hr => J.holds_pure ?_
  cases r with
  | ok a => exact hok a hr
  | error e => exact herror e hr

theorem holds_exceptLift {x : m α} (hx : J.Holds x R) :
    (J.except E).Holds (ExceptT.lift x) R := by
  show J.Holds (Except.ok <$> x) _
  rw [map_eq_pure_bind]
  exact J.holds_bind hx fun _ ha => J.holds_pure ha

end Judgement

namespace Program

variable {m : Type → Type} [Monad m] {J : Judgement m} {H : History} {h : Digest}
variable {host : Host m} {s : Settings} {note : Oracle.Call NetworkFailure → m Unit} {α : Type}

/-- By a judgement, what a run finds in its store: no more than the run that is never interrupted
would leave there. -/
structure Finds (J : Judgement m) (H : History) (config : Config) (store : Store m) : Prop where
  loadLedger : J.Holds store.loadLedger?.run fun r =>
    ∃ l, r = .ok l ∧ ∀ l', l = some l' → ∃ n, H.Replayed config n l'
  latestCheckpoint : J.Holds store.latestCheckpoint?.run fun r => ∃ c, r = .ok c

theorem holds_ofStore [LawfulMonad m] {op : ExceptT StoreError m α} {R : α → Prop}
    (hop : J.Holds op.run fun r => ∃ a, r = .ok a ∧ R a) :
    (J.except ProgramError.Blameless).Holds (ofStore op) R := by
  refine Judgement.holds_adapt hop ?_ ?_
  · rintro a ⟨b, hb, hR⟩
    exact Except.ok.inj hb ▸ hR
  · rintro e ⟨b, hb, -⟩
    exact absurd hb nofun

theorem passes_ofContract [LawfulMonad m] {answer : m (Except ContractError α)}
    (hanswer : J.Passes answer) :
    (J.except ProgramError.Blameless).Passes (ofContract answer) :=
  Judgement.holds_adapt hanswer (fun _ _ => trivial) fun _ _ => trivial

theorem resume_holds [LawfulMonad m] {store : Store m} (hf : Finds J H s.config store) :
    (J.except ProgramError.Blameless).Holds (resume store s)
      fun l => ∃ n, H.Replayed s.config n l := by
  refine (J.except _).holds_bind (holds_ofStore hf.loadLedger) fun found hfound => ?_
  cases found with
  | none => exact J.holds_pure ⟨0, .fresh⟩
  | some l =>
    obtain ⟨n, hl⟩ := hfound l rfl
    dsimp only
    rw [hl.fits]
    exact J.holds_pure ⟨n, hl⟩

/-- The calls of a node pass. -/
def NodePasses (J : Judgement m) (n : RpcNode m) : Prop :=
  ∀ method parameters, J.Passes (n.call method parameters)

theorem ask_passes {n : RpcNode m} (hn : NodePasses J n) (method : String) (parameters : List Json)
    (read : Json → Option α) : J.Passes (n.ask method parameters read) := by
  refine Judgement.passes_bind (hn method parameters) fun r => ?_
  cases r with
  | error fault => exact J.passes_pure _
  | ok j =>
    dsimp only
    split <;> exact J.passes_pure _

theorem view_passes {c : PoolContract m} (hc : NodePasses J c.node) (input : List UInt8)
    (block : Json) (read : Nat → α) : J.Passes (c.view input block read) := by
  refine Judgement.passes_bind (ask_passes hc _ _ _) fun r => ?_
  cases r <;> exact J.passes_pure _

theorem checkBalance_passes [LawfulMonad m] {c : PoolContract m} (hc : NodePasses J c.node) :
    (J.except ProgramError.Blameless).Passes (checkBalance c) := by
  unfold checkBalance
  split
  · exact J.holds_pure trivial
  · refine (J.except _).holds_bind (R := fun _ => True) ?_ fun _ _ => J.holds_pure trivial
    exact Judgement.holds_adapt (ask_passes hc _ _ _) (fun _ _ => trivial) fun _ _ => trivial

theorem checkCollateral_passes [LawfulMonad m] {c : PoolContract m} (hc : NodePasses J c.node)
    (config : Config) :
    (J.except ProgramError.Blameless).Passes (checkCollateral c config) := by
  refine (J.except _).holds_bind (passes_ofContract (view_passes hc _ _ _)) fun required _ => ?_
  split
  · exact J.holds_pure trivial
  · exact J.holds_pure trivial

theorem onTrack_oracleFor {l : Ledger} (hl : ∃ n, H.Replayed s.config n l) (root : Hash)
    (latest : Option Checkpoint) : Supervisor.OnTrack H s.config (oracleFor s l root latest) := by
  unfold oracleFor
  cases latest <;> cases root.isZero <;> exact ⟨rfl, hl⟩

/-- A run that goes on from such a store fails for no reason that lies in the store. -/
theorem goOn_passes [LawfulMonad m] (hf : Finds J H s.config (storeAt host s.stateDir))
    (hs : Stores J H h s.config (storeAt host s.stateDir) note) (budget : Nat)
    (hconnect : J.Holds (host.connect (socketUrl s.executionUrl)) (IfOk fun node =>
      J.Informs H (networkFor host s (contractFor host s node) budget) ∧ NodePasses J node)) :
    (J.except ProgramError.Blameless).Passes (goOn (noting h note) host s budget) := by
  refine (J.except _).holds_bind (resume_holds hf) fun l hl => ?_
  have hnode := Judgement.holds_adapt (E := ProgramError.Blameless) (f := .notConnected)
    (x := ExceptT.mk (host.connect (socketUrl s.executionUrl))) hconnect
    (fun node hnode => hnode node rfl) fun _ _ => trivial
  refine (J.except _).holds_bind hnode fun node hnode => ?_
  obtain ⟨hinforms, hcalls⟩ := hnode
  refine (J.except _).holds_bind (checkBalance_passes hcalls) fun _ _ => ?_
  refine (J.except _).holds_bind (checkCollateral_passes hcalls s.config) fun _ _ => ?_
  refine (J.except _).holds_bind (passes_ofContract (view_passes hcalls _ _ _)) fun root _ => ?_
  have hlatest : (J.except ProgramError.Blameless).Passes
      (ofStore (storeAt host s.stateDir).latestCheckpoint?) :=
    holds_ofStore (Judgement.mono hf.latestCheckpoint fun _ ⟨c, hc⟩ => ⟨c, hc, trivial⟩)
  refine (J.except _).holds_bind hlatest fun latest _ => ?_
  have hfollow := follow_passes (h := h) hinforms rfl hs
    (onTrack_oracleFor hl root latest) budget
  refine (J.except _).holds_bind (Judgement.holds_exceptLift hfollow) fun ending _ => ?_
  rcases ending with _ | _ | _ | _ | _
  all_goals exact J.holds_pure trivial

end Program

end RewardPool
