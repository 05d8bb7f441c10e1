import RewardPool.Proofs.BlockIncome
import RewardPool.Proofs.Hearings
import RewardPool.Proofs.Tips

/-!
What the classification of a block comes to. A transfer to the pool is a payment of the builder, or a
donation, or worth nothing, and the first two kinds make up all that came in. The only question to
the chain is for the receipts, and it is asked only if the pool is the fee recipient and there are fees
to account for. The reward of every other block is a matter of the block alone.
-/
namespace RewardPool

namespace ProposedBlock

/-- The transactions to the pool that the fee recipient sent. -/
def payments (b : ProposedBlock) (pool : Address) : List Transaction :=
  b.transactions.filter fun t => t.recipient = some pool ∧ t.sender = b.feeRecipient

/-- The transactions to the pool that anyone else sent and that are worth something. -/
def gifts (b : ProposedBlock) (pool : Address) : List Transaction :=
  b.transactions.filter fun t => t.recipient = some pool ∧ t.sender ≠ b.feeRecipient ∧ 0 < t.value

/-- What the fee recipient sent to the pool. -/
def paid (b : ProposedBlock) (pool : Address) : Wei := ((b.payments pool).map (·.value)).sum

/-- The hashes of the transactions, in order. -/
abbrev hashes (b : ProposedBlock) : List Hash := b.transactions.map (·.hash)

/-- The pool is the fee recipient, and there are transactions that may have paid fees. -/
def PaysFees (b : ProposedBlock) (pool : Address) : Prop :=
  b.feeRecipient = pool ∧ b.transactions ≠ []

instance (b : ProposedBlock) (pool : Address) : Decidable (b.PaysFees pool) :=
  inferInstanceAs (Decidable (_ ∧ _))

/-- The reward tells of all transfers to the pool, and its kind and amount follow from them, from the
fee recipient and from the tip. -/
structure Accounts (b : ProposedBlock) (pool : Address) (tip : Wei) (r : BlockReward) : Prop where
  donations : r.donations = (b.gifts pool).map fun t =>
    { sender := t.sender, amount := t.value, block := b.number, transaction := t.hash }
  unpaid : r.kind = none ↔ b.feeRecipient ≠ pool ∧ b.payments pool = []
  builder : b.paid pool ≠ 0 → r.kind = some .mev ∧ r.amount = b.paid pool
  fees : b.paid pool = 0 → b.feeRecipient = pool → r.kind = some .vanilla ∧ r.amount = tip
  worthless : b.paid pool = 0 → b.feeRecipient ≠ pool →
    r.amount = 0 ∧ (b.payments pool ≠ [] → r.kind = some .mev)
  balance : b.paid pool + (r.donations.map (·.amount)).sum =
    ((b.transactions.filter (·.recipient = some pool)).map (·.value)).sum

variable (b : ProposedBlock) (pool : Address)

theorem builderTransfers_eq : b.builderTransfers pool = b.payments pool := by
  unfold builderTransfers transfersTo payments
  rw [List.filter_filter]
  refine List.filter_congr fun t _ => ?_
  rw [← Bool.decide_and]
  exact decide_eq_decide.mpr and_comm

theorem donationsTo_eq :
    b.donationsTo pool = (b.gifts pool).map fun t =>
      { sender := t.sender, amount := t.value, block := b.number, transaction := t.hash } := by
  unfold donationsTo transfersTo gifts
  rw [List.filter_filter]
  congr 1
  refine List.filter_congr fun t _ => ?_
  rw [← Bool.decide_and]
  exact decide_eq_decide.mpr and_comm

theorem paid_of_payments_nil (hnil : b.payments pool = []) : b.paid pool = 0 := by
  rw [paid, hnil]
  rfl

theorem needsReceipts_iff : b.needsReceipts pool = true ↔ b.PaysFees pool := by
  simp [needsReceipts, PaysFees]

theorem mevTotal_eq : (b.transfers pool).mevTotal = b.paid pool := by
  rw [mevTotal_transfers, builderTransfers_eq]
  rfl

theorem mevMatches_pos : 0 < (b.transfers pool).mevMatches ↔ b.payments pool ≠ [] := by
  rw [← b.builderTransfers_eq pool]
  exact List.length_pos_iff

theorem rewardWithTip_cases (tip : Wei) {r : BlockReward} (hr : b.rewardWithTip pool tip = r) :
    (b.paid pool ≠ 0 ∧ r.kind = some .mev ∧ r.amount = b.paid pool) ∨
      (b.paid pool = 0 ∧ b.feeRecipient = pool ∧ r.kind = some .vanilla ∧ r.amount = tip) ∨
      (b.paid pool = 0 ∧ b.feeRecipient ≠ pool ∧ b.payments pool ≠ [] ∧
        r.kind = some .mev ∧ r.amount = 0) ∨
      (b.feeRecipient ≠ pool ∧ b.payments pool = [] ∧ r.kind = none ∧ r.amount = 0) := by
  have hpositive : 0 < b.paid pool ↔ b.paid pool ≠ 0 := BitVec.pos_iff_ne_zero _
  unfold rewardWithTip at hr
  simp only [mevTotal_eq, mevMatches_pos, hpositive] at hr
  by_cases hpaid : b.paid pool = 0
  · rw [if_neg (not_not.mpr hpaid)] at hr
    by_cases hpool : b.feeRecipient = pool
    · rw [if_pos hpool] at hr
      exact .inr (.inl ⟨hpaid, hpool, by rw [← hr], by rw [← hr]⟩)
    · rw [if_neg hpool] at hr
      by_cases hnil : b.payments pool = []
      · rw [if_neg (not_not.mpr hnil)] at hr
        exact .inr (.inr (.inr ⟨hpool, hnil, by rw [← hr], by rw [← hr]⟩))
      · rw [if_pos hnil] at hr
        exact .inr (.inr (.inl ⟨hpaid, hpool, hnil, by rw [← hr], by rw [← hr]⟩))
  · rw [if_pos hpaid] at hr
    exact .inl ⟨hpaid, by rw [← hr], by rw [← hr]⟩

theorem accounts_rewardWithTip (tip : Wei) : b.Accounts pool tip (b.rewardWithTip pool tip) := by
  have hdonations := b.donations_rewardWithTip pool tip
  have hbalance := b.sum_transfersTo pool
  rw [mevTotal_eq, ← hdonations] at hbalance
  have hgifts := hdonations.trans (b.donationsTo_eq pool)
  rcases b.rewardWithTip_cases pool tip rfl with ⟨hpaid, hkind, hamount⟩ |
    ⟨hpaid, hpool, hkind, hamount⟩ | ⟨hpaid, hpool, hsome, hkind, hamount⟩ |
    ⟨hpool, hnil, hkind, hamount⟩
  · exact
      { donations := hgifts
        unpaid := by simpa [hkind] using fun _ hnil => hpaid (b.paid_of_payments_nil pool hnil)
        builder := fun _ => ⟨hkind, hamount⟩
        fees := fun hzero => absurd hzero hpaid
        worthless := fun hzero => absurd hzero hpaid
        balance := hbalance.symm }
  · exact
      { donations := hgifts
        unpaid := by simp [hkind, hpool]
        builder := fun hpositive => absurd hpaid hpositive
        fees := fun _ _ => ⟨hkind, hamount⟩
        worthless := fun _ hother => absurd hpool hother
        balance := hbalance.symm }
  · exact
      { donations := hgifts
        unpaid := by simp [hkind, hsome]
        builder := fun hpositive => absurd hpaid hpositive
        fees := fun _ hown => absurd hown hpool
        worthless := fun _ _ => ⟨hamount, fun _ => hkind⟩
        balance := hbalance.symm }
  · exact
      { donations := hgifts
        unpaid := by simp [hkind, hpool, hnil]
        builder := fun hpositive => absurd (b.paid_of_payments_nil pool hnil) hpositive
        fees := fun _ hown => absurd hown hpool
        worthless := fun _ _ => ⟨hamount, fun hsome => absurd hnil hsome⟩
        balance := hbalance.symm }

end ProposedBlock

/-- A question to the chain. -/
inductive Question where
  | finalizedSlot
  | block (slot : Slot)
  | proposer (slot : Slot)
  | receipts (number : BlockNumber) (hashes : List Hash)
  | subscriptions (first last : BlockNumber)
  | unsubscriptions (first last : BlockNumber)
  | whitelisted (block : BlockNumber) (address : Address)
  | validator (i : ValidatorIndex) (slot : Slot)
deriving DecidableEq

namespace Chain

variable {σ ε α : Type}

/-- Records a question, whatever comes of it. -/
def log (q : Question) (question : StateM σ α) : StateM (Chronicled σ Question) α :=
  Chronicled.recording question fun _ => [q]

/-- A chain that records what it is asked. -/
def questioned (c : Chain ε (StateM σ)) : Chain ε (StateM (Chronicled σ Question)) where
  finalizedSlot := log .finalizedSlot c.finalizedSlot
  block slot := log (.block slot) (c.block slot)
  proposer slot := log (.proposer slot) (c.proposer slot)
  receipts number hashes := log (.receipts number hashes) (c.receipts number hashes)
  subscriptions first last := log (.subscriptions first last) (c.subscriptions first last)
  unsubscriptions first last := log (.unsubscriptions first last) (c.unsubscriptions first last)
  whitelisted block address := log (.whitelisted block address) (c.whitelisted block address)
  validator i slot := log (.validator i slot) (c.validator i slot)

end Chain

namespace Reconcile

variable {σ ε : Type} {m : Type → Type} [Monad m] {b : ProposedBlock} {pool : Address}

/-- What the receipts of a block make of it. -/
def rewardFrom (b : ProposedBlock) (pool : Address) :
    Except ε (Header × List Receipt) → Except (Failure ε) BlockReward
  | .error e => .error (.provider e)
  | .ok (header, receipts) =>
    match header.tip b.transactions receipts with
    | .error f => .error (.fault f)
    | .ok tip => .ok (b.rewardWithTip pool tip)

theorem classify_of_not_paysFees (hfees : ¬ b.PaysFees pool) (chain : Chain ε m) :
    classify chain pool b = pure (b.rewardWithTip pool 0) := by
  unfold classify
  exact if_neg (mt (b.needsReceipts_iff pool).mp hfees)

theorem run_classify_of_paysFees (hfees : b.PaysFees pool) {chain : Chain ε (StateM σ)} {w w' : σ}
    {answer : Except ε (Header × List Receipt)}
    (hanswer : (chain.receipts b.number b.hashes).run w = (answer, w')) :
    (classify chain pool b).run.run w = (rewardFrom b pool answer, w') := by
  unfold classify
  rw [if_pos ((b.needsReceipts_iff pool).mpr hfees), ExceptT.run_bind]
  cases answer with
  | error e =>
    have hasked : (ask (chain.receipts b.number b.hashes)).run.run w =
        (.error (.provider e), w') := run_bind_eq hanswer
    rw [run_bind_eq hasked]
    rfl
  | ok found =>
    obtain ⟨header, receipts⟩ := found
    have hasked : (ask (chain.receipts b.number b.hashes)).run.run w =
        (.ok (header, receipts), w') := run_bind_eq hanswer
    rw [run_bind_eq hasked]
    unfold rewardFrom
    dsimp only
    cases header.tip b.transactions receipts with
    | error f => rfl
    | ok tip => rfl

/-- All that the classification of a block may come to in a world, the world it leaves behind, and what
it asks on the way. -/
inductive Classified (chain : Chain ε (StateM σ)) (pool : Address) (b : ProposedBlock) (w : σ) :
    Except (Failure ε) BlockReward → σ → List Question → Prop
  | unasked {reward : BlockReward} (hfees : ¬ b.PaysFees pool) (hreward : b.Accounts pool 0 reward) :
      Classified chain pool b w (.ok reward) w []
  | refused {e : ε} {w' : σ} (hfees : b.PaysFees pool)
      (hanswer : (chain.receipts b.number b.hashes).run w = (.error e, w')) :
      Classified chain pool b w (.error (.provider e)) w' [.receipts b.number b.hashes]
  | untold {header : Header} {receipts : List Receipt} {f : Fault} {w' : σ} (hfees : b.PaysFees pool)
      (hanswer : (chain.receipts b.number b.hashes).run w = (.ok (header, receipts), w'))
      (htip : header.tip b.transactions receipts = .error f) :
      Classified chain pool b w (.error (.fault f)) w' [.receipts b.number b.hashes]
  | told {header : Header} {receipts : List Receipt} {tip : Wei} {reward : BlockReward} {w' : σ}
      (hfees : b.PaysFees pool)
      (hanswer : (chain.receipts b.number b.hashes).run w = (.ok (header, receipts), w'))
      (htip : header.tip b.transactions receipts = .ok tip) (hreward : b.Accounts pool tip reward) :
      Classified chain pool b w (.ok reward) w' [.receipts b.number b.hashes]

theorem classified_of_answer (hfees : b.PaysFees pool) {chain : Chain ε (StateM σ)} {w w' : σ}
    {answer : Except ε (Header × List Receipt)}
    (hanswer : (chain.receipts b.number b.hashes).run w = (answer, w')) :
    Classified chain pool b w (rewardFrom b pool answer) w' [.receipts b.number b.hashes] := by
  rcases answer with e | ⟨header, receipts⟩
  · exact .refused hfees hanswer
  · cases htip : header.tip b.transactions receipts with
    | error f =>
      simp only [rewardFrom, htip]
      exact .untold hfees hanswer htip
    | ok tip =>
      simp only [rewardFrom, htip]
      exact .told hfees hanswer htip (b.accounts_rewardWithTip pool tip)

/-- A classification that succeeds accounts for every transfer to the pool. It asks for the receipts
of the block if the pool is the fee recipient and the block has transactions, and for nothing else, and
it fails only by the answer. Every other block has the same reward wherever it is looked at. -/
theorem classification_accounts_for_transfers (b : ProposedBlock) (pool : Address) :
    (∀ {σ ε : Type} (chain : Chain ε (StateM σ)) (w : σ) (record : List Question),
      ∃ result w' questions, (classify chain pool b).run.run w = (result, w') ∧
        (classify chain.questioned pool b).run.run ⟨w, record⟩ =
          (result, ⟨w', record ++ questions⟩) ∧
        Classified chain pool b w result w' questions) ∧
    (¬ b.PaysFees pool → ∃ reward, ∀ {σ ε : Type} (chain : Chain ε (StateM σ)) (w : σ),
      (classify chain pool b).run.run w = (.ok reward, w)) := by
  refine ⟨fun {σ ε} chain w record => ?_, fun hfees => ⟨b.rewardWithTip pool 0, ?_⟩⟩
  · by_cases hfees : b.PaysFees pool
    · obtain ⟨⟨answer, w'⟩, hanswer⟩ :
          ∃ done, (chain.receipts b.number b.hashes).run w = done := ⟨_, rfl⟩
      have hlogged : (chain.questioned.receipts b.number b.hashes).run ⟨w, record⟩ =
          (answer, ⟨w', record ++ [.receipts b.number b.hashes]⟩) :=
        Chronicled.run_recording hanswer fun _ => [Question.receipts b.number b.hashes]
      exact ⟨_, w', _, run_classify_of_paysFees hfees hanswer,
        run_classify_of_paysFees hfees hlogged, classified_of_answer hfees hanswer⟩
    · refine ⟨.ok (b.rewardWithTip pool 0), w, [], ?_, ?_,
        .unasked hfees (b.accounts_rewardWithTip pool 0)⟩
      · rw [classify_of_not_paysFees hfees]
        rfl
      · rw [classify_of_not_paysFees hfees, List.append_nil]
        rfl
  · intro σ ε chain w
    rw [classify_of_not_paysFees hfees]
    rfl

end Reconcile

/-! The fees of one block went to the pool, and another only has a transfer to it. -/
namespace FeeBlock

def block : ProposedBlock where
  slot := 101
  proposer := 9
  number := 50
  feeRecipient := .fill 0xaa
  transactions := ThreeFees.transactions

def history : History :=
  { SubscribeCall.history with receipts := fun _ _ => (ThreeFees.header, ThreeFees.receipts) }

theorem only_fees_are_asked_for :
    (block.PaysFees (.fill 0xaa) ∧
      ∃ reward, (Reconcile.classify (history.chain : Chain Empty (StateM Unit)).questioned
          (.fill 0xaa) block).run.run ⟨(), []⟩ =
        (.ok reward, ⟨(), [.receipts 50 [.fill 1, .fill 2, .fill 3]]⟩) ∧
        reward.kind = some .vanilla ∧ reward.amount = 722000 ∧ reward.donations = []) ∧
    (¬ SubscribeCall.block.PaysFees (.fill 0xaa) ∧
      ∃ reward, ∀ {σ ε : Type} (chain : Chain ε (StateM σ)) (w : σ),
        (Reconcile.classify chain (.fill 0xaa) SubscribeCall.block).run.run w = (.ok reward, w)) := by
  have hfees : block.PaysFees (.fill 0xaa) := by decide
  have hother : ¬ SubscribeCall.block.PaysFees (.fill 0xaa) := by decide
  obtain ⟨hruns, -⟩ := Reconcile.classification_accounts_for_transfers block (.fill 0xaa)
  obtain ⟨-, hsame⟩ := Reconcile.classification_accounts_for_transfers SubscribeCall.block (.fill 0xaa)
  refine ⟨⟨hfees, ?_⟩, hother, hsame hother⟩
  obtain ⟨result, w', questions, -, hasked, hclassified⟩ :=
    hruns (history.chain : Chain Empty (StateM Unit)) () []
  have htip : ThreeFees.header.tip block.transactions ThreeFees.receipts = .ok 722000 := by
    decide
  cases hclassified with
  | unasked hnone => exact absurd hfees hnone
  | @refused e => exact e.elim
  | untold _ hanswer hfault =>
    obtain ⟨rfl, rfl⟩ := Prod.mk.inj (Except.ok.inj (Prod.mk.inj hanswer).1)
    exact absurd (htip.symm.trans hfault) (by simp)
  | @told header receipts tip reward _ _ hanswer hvalue hreward =>
    obtain ⟨rfl, rfl⟩ := Prod.mk.inj (Except.ok.inj (Prod.mk.inj hanswer).1)
    obtain rfl := Except.ok.inj (htip.symm.trans hvalue)
    obtain ⟨hkind, hamount⟩ := hreward.fees (by decide) (by decide)
    refine ⟨reward, hasked, hkind, hamount, hreward.donations.trans ?_⟩
    decide

end FeeBlock

end RewardPool
