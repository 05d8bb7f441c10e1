import RewardPool.Json.Interchange
import RewardPool.Main
import RewardPool.Rehearsal.Nodes
import RewardPool.Proofs.LedgerSteps
import RewardPool.Proofs.Answers
import RewardPool.Proofs.SlotAccounts
import RewardPool.Proofs.Conservation
import RewardPool.Proofs.Histories
import RewardPool.Proofs.BlockIncome
import RewardPool.Proofs.ByteStrings
import RewardPool.Proofs.ClaimBinding
import RewardPool.Proofs.Observations
import RewardPool.Proofs.Files
import RewardPool.Proofs.Watching
import RewardPool.Proofs.Replay
import RewardPool.Proofs.Atomicity
import RewardPool.Proofs.Moves
import RewardPool.Proofs.Solvency
import RewardPool.Proofs.Growth
import RewardPool.Proofs.Checkpoints
import RewardPool.Proofs.Submissions
import RewardPool.Proofs.Instances
import RewardPool.Proofs.Spelling
import RewardPool.Proofs.Rendering
import RewardPool.Proofs.Forms
import RewardPool.Proofs.Shelves
import RewardPool.Proofs.Perils
import RewardPool.Proofs.Saves
import RewardPool.Proofs.Lifts
import RewardPool.Proofs.Uninterrupted
import RewardPool.Proofs.Noting
import RewardPool.Proofs.Networks
import RewardPool.Proofs.Startup
import RewardPool.Proofs.Pairings
import RewardPool.Proofs.Notes
import RewardPool.Proofs.Restarts
import RewardPool.Proofs.Progress
import RewardPool.Proofs.Lifecycles
import RewardPool.Proofs.Handovers
import RewardPool.Proofs.Digits
import RewardPool.Proofs.TextForms
import RewardPool.Proofs.RoundTrips
import RewardPool.Proofs.BlockRecords
import RewardPool.Proofs.Roots
import RewardPool.Proofs.PayoutAddresses
import RewardPool.Proofs.Frames
import RewardPool.Proofs.Mirrors
import RewardPool.Proofs.Tips
import RewardPool.Proofs.Classification
import RewardPool.Proofs.Bystanders
import RewardPool.Proofs.TreeHeights
import RewardPool.Proofs.Leaves
import RewardPool.Proofs.Proposers
import RewardPool.Proofs.Subscriptions
import RewardPool.Proofs.Duties
import RewardPool.Proofs.Attempts
import RewardPool.Proofs.EventOrder
