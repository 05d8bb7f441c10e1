import RewardPool.Proofs.Forms
import RewardPool.Proofs.Hearings
import RewardPool.Proofs.MapEntries

/-!
Lookups of proposers on one client, which keeps the duties of the epoch that it read last. The document
of an epoch may name any slots, in any order and more than once, but it is taken not to change; a
request for it may fail at any time. What is kept is then nothing, or the document of some epoch, and
a slot is looked up in it only if it is the document of its own epoch. So no lookup can tell whether the
duties were kept or read.
-/
namespace RewardPool

/-- The proposer of a slot by a list of duties. Of several duties for one slot the last one counts. -/
def Duty.proposerIn? (duties : List Duty) (slot : Slot) : Option ValidatorIndex :=
  ((duties.filter (·.slot = slot)).getLast?).map (·.validator)

namespace DutyCache

/-- What is kept is nothing, or the duties of some epoch as they were assigned. -/
def Keeps (assigned : UInt64 → List Duty) (c : DutyCache) : Prop :=
  c = .empty ∨ ∃ epoch, c = .ofDuties epoch (assigned epoch)

variable {assigned : UInt64 → List Duty} {c : DutyCache} {slot : Slot}

/-- What a slot comes to once its duties were asked for, and what is kept then. -/
def answer (c : DutyCache) (slot : Slot) :
    Except BeaconError (List Duty) → Except BeaconError ValidatorIndex × DutyCache
  | .error e => (.error e, c)
  | .ok duties =>
    match (ofDuties (epochOf slot) duties).proposer? slot with
    | some i => (.ok i, ofDuties (epochOf slot) duties)
    | none => (.error (.noDuty slot), c)

end DutyCache

/-- The address of the duties of an epoch. -/
def BeaconNode.dutiesUrl {m : Type → Type} (n : BeaconNode m) (epoch : UInt64) : String :=
  n.base ++ ("/eth/v1/validator/duties/proposer/" ++ Numeral.word epoch)

/-- A lookup on a client: the world and the duties that it found, what came of it, the documents that
it asked for, and the duties that it left. -/
structure Lookup (σ : Type) where
  slot : Slot
  world : σ
  kept : DutyCache
  result : Except BeaconError ValidatorIndex
  requests : List String
  left : DutyCache

namespace Lookup

variable {σ : Type}

def Succeeds (call : Lookup σ) : Prop := ∃ i, call.result = .ok i

/-- All that a lookup can come to on a node that has the given duties for the epoch of the slot. -/
inductive Accounted (n : BeaconNode (StateM σ)) (duties : List Duty) : Lookup σ → Prop
  | kept {slot : Slot} {world : σ} {kept : DutyCache} {i : ValidatorIndex}
      (hepoch : kept.epoch = some (epochOf slot)) (hi : Duty.proposerIn? duties slot = some i) :
      Accounted n duties ⟨slot, world, kept, .ok i, [], kept⟩
  | read {slot : Slot} {world after : σ} {kept : DutyCache} {i : ValidatorIndex}
      (hread : (n.duties (epochOf slot)).run world = (.ok duties, after))
      (hi : Duty.proposerIn? duties slot = some i) :
      Accounted n duties
        ⟨slot, world, kept, .ok i, [n.dutiesUrl (epochOf slot)], .ofDuties (epochOf slot) duties⟩
  | unlisted {slot : Slot} {world after : σ} {kept : DutyCache}
      (hread : (n.duties (epochOf slot)).run world = (.ok duties, after))
      (hnone : ∀ d ∈ duties, d.slot ≠ slot) :
      Accounted n duties
        ⟨slot, world, kept, .error (.noDuty slot), [n.dutiesUrl (epochOf slot)], kept⟩
  | refused {slot : Slot} {world after : σ} {kept : DutyCache} {e : BeaconError}
      (hrefused : (n.duties (epochOf slot)).run world = (.error e, after)) :
      Accounted n duties ⟨slot, world, kept, .error e, [n.dutiesUrl (epochOf slot)], kept⟩

variable {n : BeaconNode (StateM σ)} {duties : List Duty} {assigned : UInt64 → List Duty}
variable {call : Lookup σ}

end Lookup

namespace BeaconNode

variable {m : Type → Type} [Monad m] {σ : Type}

/-- A lookup on a client. The duties in which the proposer was found are kept for the lookups to come. -/
def lookUp (n : BeaconNode m) (slot : Slot) :
    StateT DutyCache m (Except BeaconError ValidatorIndex) := do
  match ← n.proposer (← getThe DutyCache) slot with
  | .error e => return .error e
  | .ok (i, duties) =>
    set duties
    return .ok i

/-- A node that records the documents it is asked for. -/
def recorded (n : BeaconNode (StateM σ)) : BeaconNode (StateM (Chronicled σ String)) where
  base := n.base
  fetch url := do
    Chronicled.note url
    (Chronicled.aside σ String).map (n.fetch url)

section Lookup

variable [LawfulMonad m] {n : BeaconNode m} {c : DutyCache} {slot : Slot}

theorem run_lookUp : (n.lookUp slot).run c = do
    match ← n.proposer c slot with
    | .error e => return (.error e, c)
    | .ok (i, duties) => return (.ok i, duties) := by
  show Pure.pure (c, c) >>= _ = _
  rw [pure_bind]
  show (n.proposer c slot >>= fun r => Pure.pure (r, c)) >>= _ = _
  rw [bind_assoc]
  refine bind_congr fun r => ?_
  rw [pure_bind]
  rcases r with e | ⟨i, duties⟩
  · rfl
  · exact pure_bind (PUnit.unit, duties) _

end Lookup

section Observed

variable {n : BeaconNode (StateM σ)} {slot : Slot} {kept : DutyCache} {world after : σ}

end Observed

section Session

variable {n : BeaconNode (StateM σ)} {assigned : UInt64 → List Duty} {slots : List Slot}
variable {kept : DutyCache} {world : σ}

end Session

end BeaconNode

/-! The node cannot be reached at first. Then it has one document for the third epoch, which names a slot
twice and a slot of the fourth epoch besides, and another one for the fourth epoch. -/
namespace TwoEpochs

def third : List Duty := [⟨640, 64⟩, ⟨650, 65⟩, ⟨651, 65⟩, ⟨961, 96⟩]

def fourth : List Duty := [⟨960, 96⟩]

def entry (d : Duty) : Json :=
  .record [("validator_index", .string (Numeral.word d.validator)),
    ("slot", .string (Numeral.word d.slot))]

def document (duties : List Duty) : Json := .record [("data", .array (duties.map entry))]

def dutiesAt (url : String) : List Duty :=
  if url = "/eth/v1/validator/duties/proposer/2" then third else fourth

/-- The world counts the requests. -/
def node : BeaconNode (StateM Nat) where
  base := ""
  fetch url := fun requests =>
    (if requests = 0 then .unreachable else .answered 200 (document (dutiesAt url)).compact,
      requests + 1)

def assigned (epoch : UInt64) : List Duty := dutiesAt (node.dutiesUrl epoch)

end TwoEpochs

end RewardPool
