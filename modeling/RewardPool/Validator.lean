import RewardPool.Bytes

/-!
Validators of the pool: the statuses a validator goes through, the events that move it from one to
the next, the policies that say which statuses share in rewards, and what the pool keeps about one
validator. A banned validator takes no event, so a ban is for good.
-/
namespace RewardPool

abbrev Slot := UInt64
abbrev BlockNumber := UInt64
abbrev ValidatorIndex := UInt64

inductive Status where
  | active
  | yellowCard
  | redCard
  | notSubscribed
  | banned
  | untracked
deriving DecidableEq

inductive Event where
  | proposalOk
  | proposalMissed
  | proposalWrongFee
  | manualSubscription
  | autoSubscription
  | unsubscribe
deriving DecidableEq

/-- How the reward of a block reached the pool: as its fee recipient, or by a transfer from its
builder. -/
inductive RewardKind where
  | vanilla
  | mev
deriving DecidableEq

/-- What a block, or a missing one, meant to the pool. -/
inductive BlockKind where
  | okPoolProposal
  | missedProposal
  | wrongFeeRecipient
  | okPoolProposalBannedValidator
deriving DecidableEq

/-- Which validators share in the rewards of the pool. -/
inductive Eligibility where
  | activeOnly
  | activeAndYellowCard
deriving DecidableEq

namespace Status

def all : List Status := [active, yellowCard, redCard, notSubscribed, banned, untracked]

def name : Status → String
  | active => "active"
  | yellowCard => "yellow_card"
  | redCard => "red_card"
  | notSubscribed => "not_subscribed"
  | banned => "banned"
  | untracked => "untracked"

/-- The proposals of a subscribed validator are watched. -/
def isSubscribed : Status → Bool
  | active | yellowCard | redCard => true
  | notSubscribed | banned | untracked => false

/-- The status after an event, if the status takes the event at all. -/
def next? : Status → Event → Option Status
  | active, .proposalOk => some active
  | active, .proposalMissed => some yellowCard
  | yellowCard, .proposalOk => some active
  | yellowCard, .proposalMissed => some redCard
  | redCard, .proposalOk => some yellowCard
  | redCard, .proposalMissed => some redCard
  | active, .proposalWrongFee | yellowCard, .proposalWrongFee | redCard, .proposalWrongFee =>
    some banned
  | active, .unsubscribe | yellowCard, .unsubscribe | redCard, .unsubscribe => some notSubscribed
  | notSubscribed, .manualSubscription | notSubscribed, .autoSubscription => some active
  | untracked, .manualSubscription | untracked, .autoSubscription => some active
  | _, _ => none

end Status

namespace Event

def all : List Event :=
  [proposalOk, proposalMissed, proposalWrongFee, manualSubscription, autoSubscription, unsubscribe]

def name : Event → String
  | proposalOk => "proposal_ok"
  | proposalMissed => "proposal_missed"
  | proposalWrongFee => "proposal_wrong_fee"
  | manualSubscription => "manual_subscription"
  | autoSubscription => "auto_subscription"
  | unsubscribe => "unsubscribe"

end Event

namespace RewardKind

def all : List RewardKind := [vanilla, mev]

def name : RewardKind → String
  | vanilla => "vanilla"
  | mev => "mev"

end RewardKind

namespace BlockKind

def all : List BlockKind :=
  [okPoolProposal, missedProposal, wrongFeeRecipient, okPoolProposalBannedValidator]

def name : BlockKind → String
  | okPoolProposal => "ok_pool_proposal"
  | missedProposal => "missed_proposal"
  | wrongFeeRecipient => "wrong_fee_recipient"
  | okPoolProposalBannedValidator => "ok_pool_proposal_banned_validator"

end BlockKind

namespace Eligibility

def all : List Eligibility := [activeOnly, activeAndYellowCard]

def name : Eligibility → String
  | activeOnly => "active_only"
  | activeAndYellowCard => "active_and_yellow_card"

def admits : Eligibility → Status → Bool
  | _, .active => true
  | activeAndYellowCard, .yellowCard => true
  | _, _ => false

/-- Reads a policy by its name or by its short name. -/
def ofText? (text : String) : Option Eligibility :=
  if text = "active_only" ∨ text = "active" then some activeOnly
  else if text = "active_and_yellow_card" ∨ text = "active_yellow" then some activeAndYellowCard
  else none

/-- What is said of a text that names no policy. -/
def unknownMessage (text : String) : String := "unknown eligibility policy '" ++ text ++ "'"

end Eligibility

/-- One block, or missing block, as it is held against or to the credit of its proposer. -/
structure BlockRecord where
  slot : Slot
  validator : ValidatorIndex
  number : Option BlockNumber
  reward : Wei
  rewardKind : Option RewardKind
  kind : BlockKind
deriving DecidableEq

/-- What the pool keeps about one validator. The accumulated balance can be claimed; the pending one
waits for the validator's next proposal. -/
structure Validator where
  status : Status
  accumulated : Wei
  pending : Wei
  collateral : Wei
  withdrawalAddress : Address
  pubkey : Pubkey
  proposed : List BlockRecord
  missed : List BlockRecord
  wrongFee : List BlockRecord
deriving DecidableEq

/-- A validator that nothing has happened to. -/
def Validator.fresh (address : Address) (pubkey : Pubkey) : Validator where
  status := .untracked
  accumulated := 0
  pending := 0
  collateral := 0
  withdrawalAddress := address
  pubkey := pubkey
  proposed := []
  missed := []
  wrongFee := []

end RewardPool
