import RewardPool.Proofs.Lifts
import RewardPool.Proofs.Noting

/-!
A network whose answers are those of a history. A read that is repeated until it succeeds brings back
what one attempt may bring back, and the duties that are kept between reads name the proposers of the
history as long as each document of duties does. So a supervisor that follows the chain through the
network is governed by the history, in whatever world it runs.
-/
namespace RewardPool

open Merkle (Digest)

/-- The duties that are kept name no proposer but that of the history. -/
def DutyCache.Right (H : History) (c : DutyCache) : Prop :=
  ∀ slot i, c.proposer? slot = some i → i = H.proposer slot

theorem DutyCache.right_empty (H : History) : DutyCache.empty.Right H := by
  intro slot i h
  exact absurd h (by simp [proposer?, empty])

/-- A result that has a property, unless it is an error. -/
def IfOk {ε α : Type} (R : α → Prop) (r : Except ε α) : Prop := ∀ a, r = .ok a → R a

namespace Judgement

variable {κ ε δ α : Type} {m m' : Type → Type} [Monad m] [Monad m'] {J : Judgement m}
variable {H : History} {R : α → Prop}

/-- By a judgement, what is read through the nodes is what the history has, if it is read at all. -/
structure Informs (J : Judgement m) (H : History) (n : Network m) : Prop where
  block : ∀ slot, J.Holds (n.blockOf slot) (IsAnswer (H.block slot))
  duties : ∀ epoch,
    J.Holds (n.beacon.duties epoch) (IfOk fun ds => (DutyCache.ofDuties epoch ds).Right H)
  receipts : ∀ number hashes,
    J.Holds (n.receiptsOf number hashes) (IsAnswer (H.receipts number hashes))
  subscriptions : ∀ first last,
    J.Holds (n.contract.subscriptions first last) (IsAnswer (H.subscriptions first last))
  unsubscriptions : ∀ first last,
    J.Holds (n.contract.unsubscriptions first last) (IsAnswer (H.unsubscriptions first last))
  validator : ∀ i slot, J.Holds (n.beacon.validator i slot) (IsAnswer (H.validator i slot))
  finalizedSlot : J.Passes n.beacon.finalizedSlot
  isMember : ∀ a block, J.Passes (n.contract.isMember a block)
  updateRoot : ∀ root, J.Passes (n.contract.updateRoot root)
  stopped : J.Passes n.clock.stopped
  pause : ∀ seconds, J.Passes (n.clock.pause seconds)

/-- The judgement of what goes on between reads: the duties that are kept stay right. -/
def online (J : Judgement m) (H : History) : Judgement (Online m) :=
  J.option.state (DutyCache.Right H)

variable {n : Network m}

theorem online_holds {x : m α} (hx : J.Holds x R) : (J.online H).Holds (Network.online x) R :=
  holds_stateLift (holds_optionLift hx)

theorem ifOk_mapError {answer : m (Except ε α)} (hanswer : J.Holds answer (IfOk R)) (f : ε → δ) :
    J.Holds (do return (← answer).mapError f) (IfOk R) := by
  refine J.holds_bind hanswer fun r hr => J.holds_pure ?_
  cases r with
  | ok a => exact fun b hb => Except.ok.inj hb ▸ hr a rfl
  | error e => exact nofun

/-- A read that is repeated brings back what one attempt may bring back. -/
theorem tryFrom_holds {p : RetryPolicy} {clock : Clock m} {name : String}
    {operation : m (Except ε α)} (hop : J.Holds operation (IfOk R))
    (hpause : ∀ seconds, J.Passes (clock.pause seconds)) (budget attempt : Nat) :
    J.option.Holds (p.tryFrom clock name operation budget attempt) (IfOk R) := by
  induction budget generalizing attempt with
  | zero => exact J.holds_pure nofun
  | succ budget ih =>
    refine J.option.holds_bind (holds_optionLift hop) fun r hr => ?_
    cases r with
    | ok a => exact J.option.holds_pure fun b hb => Except.ok.inj hb ▸ hr a rfl
    | error e =>
      dsimp only
      split
      · exact J.option.holds_pure nofun
      · refine J.option.holds_bind (holds_optionLift (hpause _)) fun paused _ => ?_
        split
        · exact ih (attempt + 1)
        · exact J.option.holds_pure nofun

theorem insist_holds (hJ : J.Informs H n) (name : String) {read : m (Except NetworkError α)}
    (hread : J.Holds read (IfOk R)) : (J.online H).Holds (n.insist name read) (IfOk R) :=
  holds_stateLift (tryFrom_holds hread hJ.pause _ _)

/-- The proposer of a slot is that of the history if the duties that are kept are right. -/
theorem beaconProposer_holds (hJ : J.Informs H n) {c : DutyCache} (hc : c.Right H) (slot : Slot) :
    J.Holds (n.beacon.proposer c slot) (IfOk fun r => r.1 = H.proposer slot ∧ r.2.Right H) := by
  unfold BeaconNode.proposer
  split
  · rename_i i hi
    exact J.holds_pure fun r hr => Except.ok.inj hr ▸ ⟨hc slot i hi, hc⟩
  · refine J.holds_bind (hJ.duties _) fun r hr => ?_
    cases r with
    | error e => exact J.holds_pure nofun
    | ok ds =>
      have hright := hr ds rfl
      dsimp only
      split
      · rename_i i hi
        exact J.holds_pure fun r hr => Except.ok.inj hr ▸ ⟨hright slot i hi, hright⟩
      · exact J.holds_pure nofun

theorem proposer_holds (hJ : J.Informs H n) (slot : Slot) :
    (J.online H).Holds (n.proposer slot) (IsAnswer (H.proposer slot)) := by
  refine (J.online H).holds_bind holds_get fun c hc => ?_
  have hread := insist_holds hJ "proposal_duty"
    (ifOk_mapError (beaconProposer_holds hJ hc slot) NetworkError.beacon)
  refine (J.online H).holds_bind hread fun r hr => ?_
  rcases r with e | ⟨i, duties⟩
  · exact (J.online H).holds_pure nofun
  · obtain ⟨hi, hduties⟩ := hr _ rfl
    refine (J.online H).holds_bind (passes_set hduties) fun _ _ => ?_
    exact (J.online H).holds_pure fun j hj => (Except.ok.inj hj).symm.trans hi

theorem Informs.grants (hJ : J.Informs H n) : (J.online H).Grants H n.chain where
  block slot := insist_holds hJ _ (hJ.block slot)
  proposer slot := proposer_holds hJ slot
  receipts number hashes := insist_holds hJ _ (hJ.receipts number hashes)
  subscriptions first last := insist_holds hJ _ (ifOk_mapError (hJ.subscriptions first last) _)
  unsubscriptions first last := insist_holds hJ _ (ifOk_mapError (hJ.unsubscriptions first last) _)
  validator i slot := insist_holds hJ _ (ifOk_mapError (hJ.validator i slot) _)

theorem insist_passes [LawfulMonad m] (hJ : J.Informs H n) (name : String)
    {read : m (Except NetworkError α)} (hread : J.Passes read) :
    (J.online H).Passes (n.insist name read) :=
  passes_of_holds (insist_holds (R := fun _ => True) hJ name (mono hread fun _ _ _ _ => trivial))

theorem Informs.sends [LawfulMonad m] (hJ : J.Informs H n) :
    (J.online H).Sends n.chain n.submitter? where
  whitelisted block address :=
    insist_passes hJ _ (passes_bind (hJ.isMember address block) fun _ => J.passes_pure _)
  submit s hs root := by
    obtain ⟨t, ht, rfl⟩ := Option.map_eq_some_iff.mp hs
    obtain ⟨w, -, rfl⟩ := Option.map_eq_some_iff.mp ht
    exact online_holds (passes_bind (hJ.updateRoot root) fun _ => J.passes_pure _)

/-- What is said of the reads of a network is said of them where they are lifted. -/
theorem Informs.lift [LawfulMonad m] [LawfulMonad m'] {J' : Judgement m'} (φ : Lifting m m')
    (hφ : ∀ {α : Type} (x : m α) (R : α → Prop), J.Holds x R → J'.Holds (φ.map x) R)
    (hJ : J.Informs H n) : J'.Informs H (φ.network n) where
  block slot := φ.blockOf n slot ▸ hφ _ _ (hJ.block slot)
  duties epoch := φ.duties n.beacon epoch ▸ hφ _ _ (hJ.duties epoch)
  receipts number hashes := φ.receiptsOf n number hashes ▸ hφ _ _ (hJ.receipts number hashes)
  subscriptions first last :=
    φ.subscriptions n.contract first last ▸ hφ _ _ (hJ.subscriptions first last)
  unsubscriptions first last :=
    φ.unsubscriptions n.contract first last ▸ hφ _ _ (hJ.unsubscriptions first last)
  validator i slot := φ.validator n.beacon i slot ▸ hφ _ _ (hJ.validator i slot)
  finalizedSlot := φ.finalizedSlot n.beacon ▸ hφ _ _ hJ.finalizedSlot
  isMember a block := φ.isMember n.contract a block ▸ hφ _ _ (hJ.isMember a block)
  updateRoot root := φ.updateRoot n.contract root ▸ hφ _ _ (hJ.updateRoot root)
  stopped := hφ _ _ hJ.stopped
  pause seconds := hφ _ _ (hJ.pause seconds)

end Judgement

namespace Program

variable {m : Type → Type} [Monad m] [LawfulMonad m] {J : Judgement m} {H : History} {h : Digest}
variable {host : Host m} {n : Network m} {store : Store m} {config : Config} {o : Oracle}
variable {note : Oracle.Call NetworkFailure → m Unit}

/-- What a run asks of its store and of what it notes. -/
structure Stores (J : Judgement m) (H : History) (h : Digest) (config : Config) (store : Store m)
    (note : Oracle.Call NetworkFailure → m Unit) : Prop where
  saveCheckpoint : ∀ c, J.Passes (store.saveCheckpoint c).run
  saveLedger : ∀ n l, H.Replayed config n l → J.Passes (store.saveLedger l).run
  note : ∀ call, (call.settles = true → H.Accounts h config call) → J.Passes (note call)

theorem supports (hn : J.Informs H n) (hclock : host.clock = n.clock)
    (hs : Stores J H h config store note) :
    Supervisor.Supports (J.online H) H h config (around host n store)
      fun call => Network.online (note call) := by
  have honline : (around host n store).store = (Lifting.online m).store store := rfl
  constructor
  · exact hn.grants
  · exact hn.sends
  · exact Judgement.insist_passes hn _
      (Judgement.passes_bind hn.finalizedSlot fun _ => J.passes_pure _)
  · exact Judgement.online_holds (hclock ▸ hn.stopped)
  · exact fun seconds => Judgement.online_holds (hclock ▸ hn.pause seconds)
  · intro c
    rw [honline, Lifting.saveCheckpoint]
    exact Judgement.online_holds (hs.saveCheckpoint c)
  · intro k l hl
    rw [honline, Lifting.saveLedger]
    exact Judgement.online_holds (hs.saveLedger k l hl)
  · exact fun call hcall => Judgement.online_holds (hs.note call hcall)

theorem follow_passes (hn : J.Informs H n) (hclock : host.clock = n.clock)
    (hs : Stores J H h config store note) (ho : Supervisor.OnTrack H config o) (budget : Nat) :
    J.Passes (follow (noting h note) host n store o budget) := by
  have hrun := Supervisor.runBy_passes (supports (h := h) hn hclock hs) ho budget
    .empty (DutyCache.right_empty H)
  exact J.holds_bind hrun fun _ _ => J.passes_pure _

end Program

end RewardPool
