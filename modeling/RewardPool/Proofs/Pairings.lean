import RewardPool.Proofs.Composition

/-!
The same computation in two worlds. A pairing tells which computations of one kind do what those of
another kind do, and is kept by what is done one after the other. If all questions about a slot are
paired, so is what becomes of the slot.
-/
namespace RewardPool

structure Pairing (m m' : Type → Type) [Monad m] [Monad m'] where
  Paired : {α : Type} → m α → m' α → Prop
  pure : ∀ {α : Type} (a : α), Paired (pure a) (pure a)
  bind : ∀ {α β : Type} {x : m α} {y : m' α} {f : α → m β} {g : α → m' β},
    Paired x y → (∀ a, Paired (f a) (g a)) → Paired (x >>= f) (y >>= g)

namespace Pairing

section Layers

variable {m m' : Type → Type} [Monad m] [Monad m'] {ε α β : Type} (P : Pairing m m')

def option : Pairing (OptionT m) (OptionT m') where
  Paired x y := P.Paired x.run y.run
  pure _ := P.pure _
  bind hx hf := by
    rw [OptionT.run_bind, OptionT.run_bind]
    refine P.bind hx fun o => ?_
    cases o with
    | none => exact P.pure _
    | some a => exact hf a

def state (σ : Type) : Pairing (StateT σ m) (StateT σ m') where
  Paired x y := ∀ s, P.Paired (x.run s) (y.run s)
  pure _ _ := P.pure _
  bind hx hf s := P.bind (hx s) fun r => hf r.1 r.2

def except (ε : Type) : Pairing (ExceptT ε m) (ExceptT ε m') where
  Paired x y := P.Paired x.run y.run
  pure _ := P.pure _
  bind hx hf := by
    rw [ExceptT.run_bind, ExceptT.run_bind]
    refine P.bind hx fun r => ?_
    cases r with
    | ok a => exact hf a
    | error e => exact P.pure _

variable {P}

theorem optionLift {x : m α} {y : m' α} (hxy : P.Paired x y) :
    P.option.Paired (OptionT.lift x) (OptionT.lift y) :=
  P.bind hxy fun _ => P.pure _

theorem stateLift {σ : Type} {x : m α} {y : m' α} (hxy : P.Paired x y) :
    (P.state σ).Paired (StateT.lift x) (StateT.lift y) :=
  fun _ => P.bind hxy fun _ => P.pure _

theorem adapt [LawfulMonad m] [LawfulMonad m'] {δ : Type} {x : ExceptT δ m α} {y : ExceptT δ m' α}
    (hxy : P.Paired x.run y.run) (f : δ → ε) : (P.except ε).Paired (x.adapt f) (y.adapt f) := by
  show P.Paired (Except.mapError f <$> x.run) (Except.mapError f <$> y.run)
  rw [map_eq_pure_bind, map_eq_pure_bind]
  exact P.bind hxy fun _ => P.pure _

theorem exceptLift [LawfulMonad m] [LawfulMonad m'] {x : m α} {y : m' α} (hxy : P.Paired x y) :
    (P.except ε).Paired (ExceptT.lift x) (ExceptT.lift y) := by
  show P.Paired (Except.ok <$> x) (Except.ok <$> y)
  rw [map_eq_pure_bind, map_eq_pure_bind]
  exact P.bind hxy fun _ => P.pure _

end Layers

section Slot

variable {ε : Type} {m m' : Type → Type} [Monad m] [Monad m'] {P : Pairing m m'}
variable {chain : Chain ε m} {chain' : Chain ε m'}

/-- All questions about a slot are paired. -/
structure Asks (P : Pairing m m') (chain : Chain ε m) (chain' : Chain ε m') : Prop where
  block : ∀ slot, P.Paired (chain.block slot) (chain'.block slot)
  proposer : ∀ slot, P.Paired (chain.proposer slot) (chain'.proposer slot)
  receipts : ∀ number hashes,
    P.Paired (chain.receipts number hashes) (chain'.receipts number hashes)
  subscriptions : ∀ first last,
    P.Paired (chain.subscriptions first last) (chain'.subscriptions first last)
  unsubscriptions : ∀ first last,
    P.Paired (chain.unsubscriptions first last) (chain'.unsubscriptions first last)
  validator : ∀ i slot, P.Paired (chain.validator i slot) (chain'.validator i slot)

theorem ask {α : Type} {x : m (Except ε α)} {y : m' (Except ε α)} (hxy : P.Paired x y) :
    P.Paired (Reconcile.ask x).run (Reconcile.ask y).run := by
  refine P.bind hxy fun r => ?_
  cases r <;> exact P.pure _

theorem slot [LawfulMonad m] [LawfulMonad m'] (hc : P.Asks chain chain') (config : Config)
    (l : Ledger) (slot : Slot) :
    P.Paired (Reconcile.slot config chain l slot).run
      (Reconcile.slot config chain' l slot).run := by
  have hpaired : Reconcile.Compositional chain chain' fun _ x y => P.Paired x.run y.run :=
    { pure := (P.except _).pure
      fault := fun _ => P.pure _
      bind := (P.except _).bind
      proposer := fun _ => ask (hc.proposer _)
      block := fun _ => ask (hc.block _)
      receipts := fun _ _ => ask (hc.receipts _ _)
      subscriptions := fun _ _ => ask (hc.subscriptions _ _)
      unsubscriptions := fun _ _ => ask (hc.unsubscriptions _ _)
      validator := fun _ _ => ask (hc.validator _ _) }
  exact hpaired.slot config l slot

end Slot

end Pairing

end RewardPool
