import Mathlib.Algebra.BigOperators.Group.List.Basic
import RewardPool.Proofs.LedgerSteps

/-!
Elementary moves of a ledger: a validator is tracked, marked, noted, paid out, credited with a
collateral or stripped of what it waits for, an amount is split, something is logged, a slot is
closed. Each move does one thing to the balances or to the logs, and a course of moves is one after
the other. So whatever has to be shown of all that happens to a ledger is shown of nine moves.
-/
namespace RewardPool

/-- The logs of a ledger, which are only ever appended to. -/
structure Logs where
  subscriptions : List Subscription
  unsubscriptions : List Unsubscription
  donations : List Donation
  poolBlocks : List BlockRecord

namespace Logs

def append (a b : Logs) : Logs where
  subscriptions := a.subscriptions ++ b.subscriptions
  unsubscriptions := a.unsubscriptions ++ b.unsubscriptions
  donations := a.donations ++ b.donations
  poolBlocks := a.poolBlocks ++ b.poolBlocks

def ofBlocks (records : List BlockRecord) : Logs := ⟨[], [], [], records⟩

def empty : Logs := ⟨[], [], [], []⟩

@[simp] theorem append_empty (a : Logs) : a.append empty = a := by
  simp [append, empty]

@[simp] theorem empty_append (a : Logs) : empty.append a = a := by
  simp [append, empty]

theorem append_assoc (a b c : Logs) : (a.append b).append c = a.append (b.append c) := by
  simp [append]

/-- All amounts that logs record, as a plain number. -/
def plain (logs : Logs) : Nat :=
  (logs.poolBlocks.map (·.reward.toNat)).sum + (logs.donations.map (·.amount.toNat)).sum +
    (logs.subscriptions.map (·.collateral.toNat)).sum

theorem plain_append (a b : Logs) : (a.append b).plain = a.plain + b.plain := by
  simp only [plain, append, List.map_append, List.sum_append]
  omega

end Logs

/-- One elementary change of a ledger. -/
inductive Move where
  | track (i : ValidatorIndex) (address : Address) (pubkey : Pubkey)
  | mark (i : ValidatorIndex) (s : Status)
  | note (i : ValidatorIndex) (r : BlockRecord)
  | payOut (i : ValidatorIndex)
  | deposit (i : ValidatorIndex) (amount : Wei)
  | forfeit (i : ValidatorIndex)
  | split (amount : Wei)
  | log (new : Logs)
  | close (slot : Slot) (block : Option BlockNumber)

namespace Move

/-- What a move brings in. -/
def inflow : Move → Nat
  | .split amount | .deposit _ amount => amount.toNat
  | .track .. | .mark .. | .note .. | .payOut _ | .forfeit _ | .log _ | .close .. => 0

/-- What a move adds to the logs. -/
def logged : Move → Logs
  | .log new => new
  | .track .. | .mark .. | .note .. | .payOut _ | .deposit .. | .forfeit _ | .split _
  | .close .. => .empty

end Move

/-- Puts a record into the list of its kind. -/
def Validator.noted (v : Validator) (r : BlockRecord) : Validator :=
  match r.kind with
  | .okPoolProposal => { v with proposed := v.proposed ++ [r] }
  | .missedProposal => { v with missed := v.missed ++ [r] }
  | .wrongFeeRecipient => { v with wrongFee := v.wrongFee ++ [r] }
  | .okPoolProposalBannedValidator => v

theorem Validator.noted_balances (v : Validator) (r : BlockRecord) :
    (v.noted r).pending = v.pending ∧ (v.noted r).accumulated = v.accumulated ∧
      (v.noted r).collateral = v.collateral := by
  unfold noted
  split <;> exact ⟨rfl, rfl, rfl⟩

namespace Ledger

def logs (l : Ledger) : Logs := ⟨l.subscriptions, l.unsubscriptions, l.donations, l.poolBlocks⟩

/-- What a validator waits for, nothing if it is not tracked. -/
def pendingOf (l : Ledger) (i : ValidatorIndex) : Wei := ((l.find? i).map (·.pending)).getD 0

theorem pendingOf_eq {l : Ledger} {i : ValidatorIndex} {v : Validator} (hv : l.find? i = some v) :
    l.pendingOf i = v.pending := by
  simp [pendingOf, hv]

def move (l : Ledger) : Move → Ledger
  | .track i address pubkey =>
    { l with validators := l.validators.insert i (.fresh address pubkey) }
  | .mark i s => l.update i fun v => { v with status := s }
  | .note i r => l.update i fun v => v.noted r
  | .payOut i =>
    l.update i fun v => { v with accumulated := v.accumulated + v.pending, pending := 0 }
  | .deposit i amount =>
    l.update i fun v =>
      { v with
        collateral := v.collateral + amount
        accumulated := v.accumulated + amount }
  | .forfeit i => (l.withoutPending i).distribute (l.pendingOf i)
  | .split amount => l.distribute amount
  | .log new =>
    { l with
      subscriptions := l.subscriptions ++ new.subscriptions
      unsubscriptions := l.unsubscriptions ++ new.unsubscriptions
      donations := l.donations ++ new.donations
      poolBlocks := l.poolBlocks ++ new.poolBlocks }
  | .close slot block => { l with latestSlot := some slot, latestBlock := block.or l.latestBlock }

/-- When a move is made: only validators that are not there yet are tracked, only ones that are
there are changed, and a status follows from the one before it. -/
def Allows (l : Ledger) : Move → Prop
  | .track i _ _ => l.find? i = none
  | .mark i s => ∃ v e, l.find? i = some v ∧ v.status.next? e = some s
  | .note i _ | .payOut i | .deposit i _ | .forfeit i => ∃ v, l.find? i = some v
  | .split _ | .log _ | .close .. => True

theorem feePercent_move (l : Ledger) (m : Move) : (l.move m).feePercent = l.feePercent := by
  cases m <;> rfl

theorem logs_move (l : Ledger) (m : Move) : (l.move m).logs = l.logs.append m.logged := by
  cases m with
  | log new => rfl
  | _ => exact (Logs.append_empty _).symm

end Ledger

/-- A list of moves that leads from one ledger to another, each of them passing a test. -/
inductive Course (P : Ledger → Move → Prop) : Ledger → List Move → Ledger → Prop
  | nil (l : Ledger) : Course P l [] l
  | cons {l l' : Ledger} {m : Move} {rest : List Move} (hm : P l m)
      (hrest : Course P (l.move m) rest l') : Course P l (m :: rest) l'

namespace Course

variable {P : Ledger → Move → Prop} {l m l' : Ledger} {first rest : List Move}

theorem append (hfirst : Course P l first m) (hrest : Course P m rest l') :
    Course P l (first ++ rest) l' := by
  induction hfirst with
  | nil l => exact hrest
  | cons hm _ ih => exact .cons hm (ih hrest)

/-- A relation that each move of a course respects relates its two ends. -/
theorem relates {R : Ledger → Ledger → Prop} (hrefl : ∀ l, R l l)
    (htrans : ∀ {a b c}, R a b → R b c → R a c) (hstep : ∀ l m, P l m → R l (l.move m))
    (hcourse : Course P l rest l') : R l l' := by
  induction hcourse with
  | nil l => exact hrefl l
  | cons hm _ ih => exact htrans (hstep _ _ hm) ih

end Course

namespace Ledger

variable {l m l' : Ledger}

/-- Allowed moves lead from a ledger to another one, bring so much in and add so much to the logs. -/
def Moved (l l' : Ledger) (inflow : Nat) (new : Logs) : Prop :=
  ∃ moves, Course Allows l moves l' ∧ (moves.map (·.inflow)).sum = inflow ∧
    l'.logs = l.logs.append new

theorem Moved.refl (l : Ledger) : Moved l l 0 .empty := ⟨[], .nil l, rfl, by simp⟩

theorem Moved.trans {a a' : Nat} {new new' : Logs} (hfirst : Moved l m a new)
    (hrest : Moved m l' a' new') : Moved l l' (a + a') (new.append new') := by
  obtain ⟨first, hcourse, hinflow, hlogs⟩ := hfirst
  obtain ⟨rest, hcourse', hinflow', hlogs'⟩ := hrest
  refine ⟨first ++ rest, hcourse.append hcourse', ?_, ?_⟩
  · rw [List.map_append, List.sum_append, hinflow, hinflow']
  · rw [hlogs', hlogs, Logs.append_assoc]

theorem moved_move {a : Move} (ha : l.Allows a) : Moved l (l.move a) a.inflow a.logged :=
  ⟨[a], .cons ha (.nil _), by simp, l.logs_move a⟩

theorem logs_of_moved {n : Nat} {new : Logs} (h : Moved l l' n new) :
    l'.logs = l.logs.append new := by
  obtain ⟨moves, -, -, hlogs⟩ := h
  exact hlogs

/-- The logs record what the moves log. -/
theorem plain_of_moved {n : Nat} {new : Logs} (h : Moved l l' n new) :
    l'.logs.plain = l.logs.plain + new.plain := by
  rw [logs_of_moved h, Logs.plain_append]

end Ledger

end RewardPool
