import RewardPool.Oracle
import RewardPool.Proofs.Answers

/-!
How the work on a slot is put together: questions to the chain, results of the ledger, and one step
after the other. A relation between the steps of two oracles that holds of the questions and of the
results, and that sequencing keeps, holds of the whole slot. So nothing has to be proved of the steps
in between. What is said of a single oracle is the case in which the other one is not looked at. A
checkpoint is put together of the two calls that its submission takes, in the same way.
-/
namespace RewardPool

namespace Reconcile

variable {ε ε' : Type} {m m' : Type → Type} [Monad m] [Monad m']

/-- A relation between the steps over two chains that holds of every part of a slot and that
sequencing keeps. -/
structure Compositional (chain : Chain ε m) (chain' : Chain ε' m')
    (P : ∀ α : Type, Step ε m α → Step ε' m' α → Prop) : Prop where
  pure : ∀ {α : Type} (a : α), P α (pure a) (pure a)
  fault : ∀ {α : Type} (f : Fault), P α (throw (.fault f)) (throw (.fault f))
  bind : ∀ {α β : Type} {x : Step ε m α} {y : Step ε' m' α} {f : α → Step ε m β}
    {g : α → Step ε' m' β}, P α x y → (∀ a, P β (f a) (g a)) → P β (x >>= f) (y >>= g)
  proposer : ∀ slot, P _ (ask (chain.proposer slot)) (ask (chain'.proposer slot))
  block : ∀ slot, P _ (ask (chain.block slot)) (ask (chain'.block slot))
  receipts : ∀ number hashes,
    P _ (ask (chain.receipts number hashes)) (ask (chain'.receipts number hashes))
  subscriptions : ∀ first last,
    P _ (ask (chain.subscriptions first last)) (ask (chain'.subscriptions first last))
  unsubscriptions : ∀ first last,
    P _ (ask (chain.unsubscriptions first last)) (ask (chain'.unsubscriptions first last))
  validator : ∀ i slot, P _ (ask (chain.validator i slot)) (ask (chain'.validator i slot))

namespace Compositional

variable {chain : Chain ε m} {chain' : Chain ε' m'} {α β : Type}
variable {P : ∀ α : Type, Step ε m α → Step ε' m' α → Prop}

theorem must (hP : Compositional chain chain' P) (r : Except Fault α) : P α (must r) (must r) := by
  cases r with
  | ok a => exact hP.pure a
  | error f => exact hP.fault f

theorem foldlM [LawfulMonad m] [LawfulMonad m'] (hP : Compositional chain chain' P)
    {step : α → β → Step ε m α} {step' : α → β → Step ε' m' α}
    (hstep : ∀ a x, P α (step a x) (step' a x)) (items : List β) (a : α) :
    P α (items.foldlM step a) (items.foldlM step' a) := by
  induction items generalizing a with
  | nil => exact hP.pure a
  | cons x rest ih =>
    rw [List.foldlM_cons, List.foldlM_cons]
    exact hP.bind (hstep a x) ih

theorem classify (hP : Compositional chain chain' P) (pool : Address) (b : ProposedBlock) :
    P _ (classify chain pool b) (classify chain' pool b) := by
  unfold Reconcile.classify
  split
  · refine hP.bind (hP.receipts _ _) fun answer => ?_
    exact hP.bind (hP.must _) fun tip => hP.pure _
  · exact hP.pure _

theorem settleProposer (hP : Compositional chain chain' P) (l : Ledger) (b : ProposedBlock)
    (reward : BlockReward) :
    P _ (settleProposer chain l b reward) (settleProposer chain' l b reward) := by
  unfold Reconcile.settleProposer
  split
  · unfold settleReward
    dsimp only
    split
    · exact hP.pure _
    · split
      · exact hP.must _
      · exact hP.bind (hP.validator _ _) fun identity => hP.must _
  · exact hP.must _

theorem settleSubscription (hP : Compositional chain chain' P) (config : Config) (slot : Slot)
    (l : Ledger) (s : Subscription) :
    P _ (settleSubscription config chain slot l s) (settleSubscription config chain' slot l s) :=
  hP.bind (hP.validator _ _) fun _ => hP.must _

theorem settleBlock [LawfulMonad m] [LawfulMonad m'] (hP : Compositional chain chain' P)
    (config : Config) (l : Ledger) (slot : Slot) (b : ProposedBlock) :
    P _ (settleBlock config chain l slot b) (settleBlock config chain' l slot b) := by
  unfold Reconcile.settleBlock
  refine hP.bind (hP.classify _ b) fun reward => ?_
  refine hP.bind (hP.settleProposer l b reward) fun settled => ?_
  refine hP.bind (hP.subscriptions _ _) fun events => ?_
  refine hP.bind (hP.foldlM (hP.settleSubscription config slot) events _) fun joined => ?_
  refine hP.bind (hP.unsubscriptions _ _) fun requests => ?_
  exact hP.bind (hP.foldlM (fun l u => hP.must _) requests joined) fun left => hP.pure _

/-- What holds of every part of a slot holds of the slot. -/
theorem slot [LawfulMonad m] [LawfulMonad m'] (hP : Compositional chain chain' P) (config : Config)
    (l : Ledger) (s : Slot) :
    P _ (Reconcile.slot config chain l s) (Reconcile.slot config chain' l s) := by
  unfold Reconcile.slot
  refine hP.bind (hP.proposer s) fun proposer => ?_
  refine hP.bind (hP.block s) fun block => ?_
  split
  · exact hP.bind (hP.must _) fun settled => hP.pure _
  · dsimp only
    split
    · exact hP.bind (hP.fault _) fun _ => hP.settleBlock config l s _
    · exact hP.settleBlock config l s _

end Compositional

end Reconcile

/-- A property of computations that sequencing keeps. -/
structure Sequential {m : Type → Type} [Monad m] (P : ∀ α : Type, m α → Prop) : Prop where
  pure : ∀ {α : Type} (a : α), P α (pure a)
  bind : ∀ {α β : Type} {x : m α} {f : α → m β}, P α x → (∀ a, P β (f a)) → P β (x >>= f)

namespace Sequential

variable {ε : Type} {m : Type → Type} [Monad m] {P : ∀ α : Type, m α → Prop}
variable {chain : Chain ε m} {submitter : Option (Submitter ε m)}

theorem submission (hP : Sequential P)
    (hlookup : ∀ block address, P _ (chain.whitelisted block address))
    (hsubmit : ∀ s ∈ submitter, ∀ root, P _ (s.submit root)) (o : Oracle) (c : Checkpoint) :
    P _ (o.submission chain submitter c) := by
  unfold Oracle.submission
  cases hs : submitter with
  | none => exact hP.pure _
  | some s =>
    dsimp only
    split
    · exact hP.pure _
    · refine hP.bind (hlookup _ _) fun listed => ?_
      rcases listed with e | _ | _
      · exact hP.pure _
      · exact hP.pure _
      · refine hP.bind (hsubmit s hs c.root) fun submitted => ?_
        cases submitted <;> exact hP.pure _

/-- What holds of the look-up and of the submission of a root holds of a checkpoint. -/
theorem commit (hP : Sequential P)
    (hlookup : ∀ block address, P _ (chain.whitelisted block address))
    (hsubmit : ∀ s ∈ submitter, ∀ root, P _ (s.submit root)) (h : Merkle.Digest) (o : Oracle)
    (slot : Slot) : P _ (o.commit h chain submitter slot) := by
  unfold Oracle.commit
  split
  · exact hP.pure _
  · refine hP.bind (hP.submission hlookup hsubmit o _) fun submitted => ?_
    rcases submitted with _ | _ | _
    all_goals exact hP.pure _

end Sequential

end RewardPool
