import RewardPool.Proofs.Judgements

/-!
A history of the chain gives one answer to every question about slots, blocks and validators, and
never fails. A real chain is governed by a history if each of its calls either gives that answer or
fails. What a reconciliation comes to is then settled by the history: if no call failed on the way,
it is what the history alone would have made of the slot.
-/
namespace RewardPool

structure History where
  proposer : Slot → ValidatorIndex
  block : Slot → Option ProposedBlock
  receipts : BlockNumber → List Hash → Header × List Receipt
  subscriptions : BlockNumber → BlockNumber → List Subscription
  unsubscriptions : BlockNumber → BlockNumber → List Unsubscription
  validator : ValidatorIndex → Slot → Option Identity

namespace History

variable {σ ε : Type}

/-- The history as a chain that never fails. What is no part of a history is never asked while a
slot is reconciled. -/
def chain {m : Type → Type} [Monad m] (H : History) : Chain ε m where
  finalizedSlot := return .ok 0
  block slot := return .ok (H.block slot)
  proposer slot := return .ok (H.proposer slot)
  receipts number hashes := return .ok (H.receipts number hashes)
  subscriptions first last := return .ok (H.subscriptions first last)
  unsubscriptions first last := return .ok (H.unsubscriptions first last)
  whitelisted _ _ := return .ok false
  validator i slot := return .ok (H.validator i slot)

/-- The ledger after a slot of the history. -/
def reconcile (H : History) (config : Config) (l : Ledger) (slot : Slot) :
    Except (Failure Empty) Ledger :=
  ((Reconcile.slot (m := Id) config H.chain l slot).run.run).map (·.1)

/-- All that a slot of the history comes to. -/
def settle (H : History) (config : Config) (l : Ledger) (slot : Slot) :
    Except (Failure Empty) (Ledger × SlotReport) :=
  (Reconcile.slot (m := Id) config H.chain l slot).run.run

theorem reconcile_eq (H : History) (config : Config) (l : Ledger) (slot : Slot) :
    H.reconcile config l slot = (H.settle config l slot).map (·.1) :=
  rfl

/-- Each call of the chain gives the answer of the history, or fails. -/
structure Governs (H : History) (chain : Chain ε (StateM σ)) : Prop where
  block : ∀ slot, Says (chain.block slot) (H.block slot)
  proposer : ∀ slot, Says (chain.proposer slot) (H.proposer slot)
  receipts : ∀ number hashes, Says (chain.receipts number hashes) (H.receipts number hashes)
  subscriptions : ∀ first last, Says (chain.subscriptions first last) (H.subscriptions first last)
  unsubscriptions : ∀ first last,
    Says (chain.unsubscriptions first last) (H.unsubscriptions first last)
  validator : ∀ i slot, Says (chain.validator i slot) (H.validator i slot)

theorem governs_chain (H : History) : H.Governs (H.chain : Chain ε (StateM σ)) where
  block slot := says_pure (H.block slot)
  proposer slot := says_pure (H.proposer slot)
  receipts number hashes := says_pure (H.receipts number hashes)
  subscriptions first last := says_pure (H.subscriptions first last)
  unsubscriptions first last := says_pure (H.unsubscriptions first last)
  validator i slot := says_pure (H.validator i slot)

end History

/-- By a judgement, each call of the chain gives the answer of the history, or fails. -/
structure Judgement.Grants {ε : Type} {m : Type → Type} [Monad m] (J : Judgement m) (H : History)
    (chain : Chain ε m) : Prop where
  block : ∀ slot, J.Holds (chain.block slot) (IsAnswer (H.block slot))
  proposer : ∀ slot, J.Holds (chain.proposer slot) (IsAnswer (H.proposer slot))
  receipts : ∀ number hashes,
    J.Holds (chain.receipts number hashes) (IsAnswer (H.receipts number hashes))
  subscriptions : ∀ first last,
    J.Holds (chain.subscriptions first last) (IsAnswer (H.subscriptions first last))
  unsubscriptions : ∀ first last,
    J.Holds (chain.unsubscriptions first last) (IsAnswer (H.unsubscriptions first last))
  validator : ∀ i slot, J.Holds (chain.validator i slot) (IsAnswer (H.validator i slot))

theorem History.Governs.grants {σ ε : Type} {H : History} {chain : Chain ε (StateM σ)}
    (hH : H.Governs chain) : Judgement.returning.Grants H chain where
  block slot _ hr _ hb := (hH.block slot).eq (hb ▸ hr)
  proposer slot _ hr _ hb := (hH.proposer slot).eq (hb ▸ hr)
  receipts number hashes _ hr _ hb := (hH.receipts number hashes).eq (hb ▸ hr)
  subscriptions first last _ hr _ hb := (hH.subscriptions first last).eq (hb ▸ hr)
  unsubscriptions first last _ hr _ hb := (hH.unsubscriptions first last).eq (hb ▸ hr)
  validator i slot _ hr _ hb := (hH.validator i slot).eq (hb ▸ hr)

namespace Reconcile

variable {ε α β : Type} {m : Type → Type} [Monad m] {J : Judgement m}

/-- The same result or the same fault as without failures from outside, unless a call failed. -/
def Echoes (y : Except (Failure Empty) α) (r : Except (Failure ε) α) : Prop :=
  (∃ e, r = .error (.provider e)) ∨ (∃ a, r = .ok a ∧ y = .ok a) ∨
    ∃ f, r = .error (.fault f) ∧ y = .error (.fault f)

/-- A step agrees with a step that cannot fail from outside. -/
def Agrees (J : Judgement m) (x : Step ε m α) (y : Step Empty Id α) : Prop :=
  J.Holds x.run (Echoes y.run.run)

theorem agrees_bind {x : Step ε m α} {y : Step Empty Id α} {f : α → Step ε m β}
    {g : α → Step Empty Id β} (hx : Agrees J x y) (hf : ∀ a, Agrees J (f a) (g a)) :
    Agrees J (x >>= f) (y >>= g) := by
  unfold Agrees
  rw [ExceptT.run_bind, ExceptT.run_bind, Id.run_bind]
  refine J.holds_bind hx fun r hr => ?_
  rcases hr with ⟨e, rfl⟩ | ⟨a, rfl, hy⟩ | ⟨fault, rfl, hy⟩
  · exact J.holds_pure (.inl ⟨e, rfl⟩)
  · rw [hy]
    exact hf a
  · rw [hy]
    exact J.holds_pure (.inr (.inr ⟨fault, rfl, rfl⟩))

theorem agrees_ask {question : m (Except ε α)} {a : α} (h : J.Holds question (IsAnswer a)) :
    Agrees J (ask question) (ask (pure (.ok a))) := by
  refine J.holds_bind h fun answer hanswer => ?_
  cases answer with
  | ok b => exact J.holds_pure (.inr (.inl ⟨b, rfl, by rw [hanswer b rfl]; rfl⟩))
  | error e => exact J.holds_pure (.inl ⟨e, rfl⟩)

/-- Unless a call of the chain fails, a slot comes to what the history makes of it. -/
theorem slot_agrees [LawfulMonad m] {H : History} {chain : Chain ε m} (hJ : J.Grants H chain)
    (config : Config) (l : Ledger) (slot : Slot) :
    J.Holds (Reconcile.slot config chain l slot).run (Echoes (H.settle config l slot)) := by
  have hagrees : Compositional chain H.chain fun _ x y => Agrees J x y :=
    { pure := fun a => J.holds_pure (.inr (.inl ⟨a, rfl, rfl⟩))
      fault := fun f => J.holds_pure (.inr (.inr ⟨f, rfl, rfl⟩))
      bind := agrees_bind
      proposer := fun slot => agrees_ask (hJ.proposer slot)
      block := fun slot => agrees_ask (hJ.block slot)
      receipts := fun number hashes => agrees_ask (hJ.receipts number hashes)
      subscriptions := fun first last => agrees_ask (hJ.subscriptions first last)
      unsubscriptions := fun first last => agrees_ask (hJ.unsubscriptions first last)
      validator := fun i slot => agrees_ask (hJ.validator i slot) }
  exact hagrees.slot config l slot

end Reconcile

namespace History

variable {σ ε : Type} {H : History} {chain : Chain ε (StateM σ)} {config : Config} {l l' : Ledger}
variable {slot : Slot}

theorem reconcile_of_succeeds (hH : H.Governs chain) {report : SlotReport}
    (h : Reconcile.Succeeds (Reconcile.slot config chain l slot) (l', report)) :
    H.reconcile config l slot = .ok l' := by
  rcases Reconcile.slot_agrees hH.grants config l slot _ h with ⟨e, he⟩ | ⟨a, ha, hy⟩ | ⟨f, hf, -⟩
  · exact absurd he (by simp)
  · rw [reconcile_eq, hy, ← Except.ok.inj ha]
    rfl
  · exact absurd hf (by simp)

/-- A failed slot met a fault of the history, or a failure of the chain. -/
theorem reconcile_of_fails (hH : H.Governs chain) {failure : Failure ε}
    (h : Returns (Reconcile.slot config chain l slot).run (.error failure)) :
    (∃ e, failure = .provider e) ∨
      ∃ f, failure = .fault f ∧ H.reconcile config l slot = .error (.fault f) := by
  rcases Reconcile.slot_agrees hH.grants config l slot _ h with ⟨e, he⟩ | ⟨a, ha, -⟩ | ⟨f, hf, hy⟩
  · exact .inl ⟨e, Except.error.inj he⟩
  · exact absurd ha (by simp)
  · rw [reconcile_eq, hy]
    exact .inr ⟨f, Except.error.inj hf, rfl⟩

end History

end RewardPool
