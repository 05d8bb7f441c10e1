import RewardPool.Block
import RewardPool.Config
import RewardPool.Json.Form

/-!
Reads of the consensus chain from the documents of a beacon node. A document that the node does not
have is no error by itself: a slot may have no block, and a state may lack a validator. The duties of
an epoch are one document for all of its slots, so the last one read is kept. The cache is an
argument and a result here, and a lookup that fails returns none, so a failure leaves it as it was.
-/
namespace RewardPool

inductive Reply where
  | unreachable
  | answered (status : Nat) (body : String)

inductive BeaconError where
  | unreachable (url : String)
  | refused (url : String)
  | unexpected (url : String)
  | noFinalizedHeader
  | noPayload (slot : Slot)
  | noDuties (epoch : UInt64)
  | noDuty (slot : Slot)
deriving DecidableEq

def BeaconError.message : BeaconError → String
  | unreachable url => "GET " ++ url ++ " failed"
  | refused url => "GET " ++ url ++ " returned an error"
  | unexpected url => "GET " ++ url ++ " returned an unexpected body"
  | noFinalizedHeader => "beacon node has no finalized header"
  | noPayload slot => "block at slot " ++ Numeral.word slot ++ " has no execution payload"
  | noDuties epoch => "no proposer duties for epoch " ++ Numeral.word epoch
  | noDuty slot => "no proposer duty for slot " ++ Numeral.word slot

/-- The part of a beacon block that leads to its execution block. -/
structure BeaconBlock where
  slot : Slot
  proposer : ValidatorIndex
  number : BlockNumber
  hash : Hash
  feeRecipient : Address
deriving DecidableEq

structure Duty where
  validator : ValidatorIndex
  slot : Slot
deriving DecidableEq

/-- The proposers of the epoch that was looked up last. -/
structure DutyCache where
  epoch : Option UInt64
  proposers : SortedMap Slot ValidatorIndex

/-- The address in withdrawal credentials of a kind that has one. -/
def withdrawalAddress? (credentials : Hash) : Option Address :=
  match credentials.toBytes with
  | kind :: _ => if kind = 1 ∨ kind = 2 then some (.ofNat credentials.toNat) else none
  | [] => none

def epochOf (slot : Slot) : UInt64 := slot / slotsPerEpoch

namespace Json

def spelledWord? (j : Json) : Option UInt64 := do
  let digits ← j.text?
  Numeral.signed? digits.toList >>= Numeral.word64?

end Json

namespace Duty

def ofJson? (j : Json) : Option Duty := do
  match ← j.record? ["validator_index", "slot"] with
  | [some validator, some slot] =>
    return { validator := ← validator.spelledWord?, slot := ← slot.spelledWord? }
  | _ => none

end Duty

namespace BeaconBlock

/-- The execution payload of a block body, which may lack one. -/
def payload? (j : Json) : Option (Option (BlockNumber × Hash × Address)) := do
  match ← j.record? ["execution_payload"] with
  | [none] | [some .null] => return none
  | [some payload] =>
    match ← payload.record? ["fee_recipient", "block_number", "block_hash"] with
    | [some feeRecipient, some number, some hash] =>
      return some (← number.spelledWord?, ← ofJson? hash, ← ofJson? feeRecipient)
    | _ => none
  | _ => none

/-- A block, or only its slot if it has no execution payload. -/
def ofMessage? (j : Json) : Option (Option BeaconBlock) := do
  match ← j.record? ["slot", "proposer_index", "body"] with
  | [some slot, some proposer, some body] =>
    let slot ← slot.spelledWord?
    let proposer ← proposer.spelledWord?
    let payload ← payload? body
    return payload.map fun (number, hash, feeRecipient) =>
      { slot, proposer, number, hash, feeRecipient }
  | _ => none

end BeaconBlock

namespace Identity

def ofState? (j : Json) : Option Identity := do
  match ← j.record? ["index", "validator"] with
  | [some index, some data] =>
    match ← data.record? ["pubkey", "withdrawal_credentials"] with
    | [some pubkey, some credentials] =>
      return { index := ← index.spelledWord?, pubkey := ← JsonForm.ofJson? pubkey,
               withdrawalAddress := withdrawalAddress? (← JsonForm.ofJson? credentials) }
    | _ => none
  | _ => none

end Identity

namespace DutyCache

def empty : DutyCache := ⟨none, .empty⟩

def ofDuties (epoch : UInt64) (duties : List Duty) : DutyCache :=
  ⟨some epoch, .ofList (duties.map fun d => (d.slot, d.validator))⟩

/-- The proposer of a slot, if its epoch is the one that is kept. -/
def proposer? (c : DutyCache) (slot : Slot) : Option ValidatorIndex :=
  if c.epoch = some (epochOf slot) then c.proposers.find? slot else none

end DutyCache

structure BeaconNode (m : Type → Type) where
  base : String
  fetch : String → m Reply

namespace BeaconNode

variable {α : Type} {m : Type → Type} [Monad m]

/-- A node by its address, with or without slashes at the end. -/
def ofUrl (url : String) (fetch : String → m Reply) : BeaconNode m :=
  ⟨String.ofList (url.toList.reverse.dropWhile (· = '/')).reverse, fetch⟩

/-- Reads a document, which every answer wraps in a field of its own. -/
def get (n : BeaconNode m) (path : String) (read : Json → Option α) :
    m (Except BeaconError (Option α)) := do
  let url := n.base ++ path
  match ← n.fetch url with
  | .unreachable => return .error (.unreachable url)
  | .answered status body =>
    if status = 404 then return .ok none
    else if 400 ≤ status ∧ status < 600 then return .error (.refused url)
    else
      match Json.parseWithGaps? body >>= Json.inside? "data" read with
      | some a => return .ok (some a)
      | none => return .error (.unexpected url)

def finalizedSlot (n : BeaconNode m) : m (Except BeaconError Slot) := do
  let read := Json.inside? "header" <| Json.inside? "message" <| Json.inside? "slot" Json.spelledWord?
  match ← n.get "/eth/v1/beacon/headers/finalized" read with
  | .error e => return .error e
  | .ok none => return .error .noFinalizedHeader
  | .ok (some slot) => return .ok slot

/-- The block of a slot, or nothing if the slot was missed. -/
def block (n : BeaconNode m) (slot : Slot) : m (Except BeaconError (Option BeaconBlock)) := do
  let path := "/eth/v2/beacon/blocks/" ++ Numeral.word slot
  match ← n.get path (Json.inside? "message" BeaconBlock.ofMessage?) with
  | .error e => return .error e
  | .ok none => return .ok none
  | .ok (some none) => return .error (.noPayload slot)
  | .ok (some (some b)) => return .ok (some b)

def duties (n : BeaconNode m) (epoch : UInt64) : m (Except BeaconError (List Duty)) := do
  let path := "/eth/v1/validator/duties/proposer/" ++ Numeral.word epoch
  match ← n.get path fun j => j.array? >>= List.mapM Duty.ofJson? with
  | .error e => return .error e
  | .ok none => return .error (.noDuties epoch)
  | .ok (some duties) => return .ok duties

/-- The proposer of a slot, and the duties that are kept from then on. -/
def proposer (n : BeaconNode m) (c : DutyCache) (slot : Slot) :
    m (Except BeaconError (ValidatorIndex × DutyCache)) := do
  match c.proposer? slot with
  | some i => return .ok (i, c)
  | none =>
    match ← n.duties (epochOf slot) with
    | .error e => return .error e
    | .ok duties =>
      let c := DutyCache.ofDuties (epochOf slot) duties
      match c.proposer? slot with
      | some i => return .ok (i, c)
      | none => return .error (.noDuty slot)

/-- A validator in the state at a slot, if that state knows it. -/
def validator (n : BeaconNode m) (i : ValidatorIndex) (slot : Slot) :
    m (Except BeaconError (Option Identity)) :=
  n.get ("/eth/v1/beacon/states/" ++ Numeral.word slot ++ "/validators/" ++ Numeral.word i)
    Identity.ofState?

end BeaconNode

end RewardPool
