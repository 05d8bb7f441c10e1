import RewardPool.Block

/-!
Why a slot was not processed. A fault means that the ledger can no longer be trusted to agree with
other oracles, so the oracle halts; the other failures come from outside and may pass. The type of
what the outside world reports is a parameter.
-/
namespace RewardPool

/-- Contradictions between the ledger and the chain, or within the chain's answers. -/
inductive Fault where
  | invalidTransition (validator : ValidatorIndex) (status : Status) (event : Event)
  | unknownValidator (validator : ValidatorIndex)
  | receiptCount (block : BlockNumber) (transactions receipts : Nat)
  | receiptOrder (block : BlockNumber) (transaction receipt : Hash)
  | missingBaseFee (block : BlockNumber)
  | negativeTip (block : BlockNumber) (collected burned : Wei)
  | unsupportedTransaction (hash : Hash) (type : UInt8)
  | proposerMismatch (slot : Slot) (duty proposer : ValidatorIndex)
  | slotOutOfOrder (expected got : Slot)
deriving DecidableEq

/-- A root that could not be submitted, or whose submitter could not be looked up. -/
inductive SubmissionFailure (ε : Type) where
  | lookup (cause : ε)
  | refused (cause : ε)

/-- Everything that keeps a slot from being processed. An aborted slot ends the program where it
stands. -/
inductive Failure (ε : Type) where
  | fault (fault : Fault)
  | provider (cause : ε)
  | submission (failure : SubmissionFailure ε)
  | aborted

namespace Fault

def message : Fault → String
  | invalidTransition validator status event =>
    "validator " ++ Numeral.word validator ++ " in status " ++ status.name ++ " cannot handle event "
      ++ event.name
  | unknownValidator validator =>
    "validator " ++ Numeral.word validator ++ " is not tracked by the oracle"
  | receiptCount block transactions receipts =>
    "block " ++ Numeral.word block ++ " has " ++ Numeral.decimal transactions ++ " transactions but "
      ++ Numeral.decimal receipts ++ " receipts"
  | receiptOrder block transaction receipt =>
    "block " ++ Numeral.word block ++ ": receipt " ++ receipt.text ++ " does not belong to transaction "
      ++ transaction.text
  | missingBaseFee block =>
    "block " ++ Numeral.word block ++ " has no base fee, cannot reconstruct the proposer tip"
  | negativeTip block collected burned =>
    "block " ++ Numeral.word block ++ ": burned fees " ++ Wei.decimal burned ++ " exceed collected fees "
      ++ Wei.decimal collected
  | unsupportedTransaction hash type =>
    "transaction " ++ hash.text ++ " has unsupported type " ++ Numeral.decimal type.toNat
  | proposerMismatch slot duty proposer =>
    "slot " ++ Numeral.word slot ++ ": block proposed by " ++ Numeral.word proposer ++ " but duty belongs to "
      ++ Numeral.word duty
  | slotOutOfOrder expected got =>
    "slot " ++ Numeral.word got ++ " processed out of order, expected " ++ Numeral.word expected

end Fault

namespace SubmissionFailure

variable {ε : Type}

def message (describe : ε → String) : SubmissionFailure ε → String
  | lookup _ => "whitelist lookup failed"
  | refused cause => describe cause

end SubmissionFailure

namespace Failure

variable {ε : Type}

def message (describe : ε → String) : Failure ε → String
  | fault f => f.message
  | provider cause => "chain data provider failed: " ++ describe cause
  | submission failure => "merkle root submission failed: " ++ failure.message describe
  | aborted => "the slot was abandoned"

/-- Faults stop the oracle; the other failures may be tried again. -/
def isFault : Failure ε → Bool
  | fault _ => true
  | provider _ | submission _ | aborted => false

end Failure

end RewardPool
