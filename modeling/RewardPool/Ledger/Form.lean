import RewardPool.Block.Form
import RewardPool.Ledger
import RewardPool.Validator.Form

/-! JSON forms of the ledger and of the configuration it was built with. -/
namespace RewardPool

open Json (need? may?)

namespace Config

def toJson (c : Config) : Json :=
  .record
    [("pool_address", JsonForm.toJson c.poolAddress),
     ("deployed_slot", JsonForm.toJson c.deployedSlot),
     ("deployed_block", JsonForm.toJson c.deployedBlock),
     ("checkpoint_size", JsonForm.toJson c.checkpointSize),
     ("pool_fee_percent", JsonForm.toJson c.feePercent),
     ("pool_fee_address", JsonForm.toJson c.feeAddress),
     ("collateral", JsonForm.toJson c.collateral), ("eligibility", JsonForm.toJson c.eligibility)]

def ofJson? (j : Json) : Option Config := do
  match ← j.record?
    ["pool_address", "deployed_slot", "deployed_block", "checkpoint_size", "pool_fee_percent",
     "pool_fee_address", "collateral", "eligibility"] with
  | [pool, slot, block, size, percent, address, collateral, eligibility] =>
    return { poolAddress := ← need? pool, deployedSlot := ← need? slot,
             deployedBlock := ← need? block, checkpointSize := ← need? size,
             feePercent := ← need? percent, feeAddress := ← need? address,
             collateral := ← need? collateral, eligibility := ← need? eligibility }
  | _ => none

end Config

instance : JsonForm Config := ⟨Config.toJson, Config.ofJson?⟩

namespace Ledger

def toJson (l : Ledger) : Json :=
  .record
    [("validators", JsonForm.toJson l.validators),
     ("pool_accumulated_fees", JsonForm.toJson l.poolFees),
     ("pool_fee_percent", JsonForm.toJson l.feePercent),
     ("pool_fee_address", JsonForm.toJson l.feeAddress),
     ("eligibility", JsonForm.toJson l.eligibility),
     ("latest_processed_slot", JsonForm.toJson l.latestSlot),
     ("latest_processed_block", JsonForm.toJson l.latestBlock),
     ("subscriptions", JsonForm.toJson l.subscriptions),
     ("unsubscriptions", JsonForm.toJson l.unsubscriptions),
     ("donations", JsonForm.toJson l.donations), ("pool_blocks", JsonForm.toJson l.poolBlocks)]

def ofJson? (j : Json) : Option Ledger := do
  match ← j.record?
    ["validators", "pool_accumulated_fees", "pool_fee_percent", "pool_fee_address", "eligibility",
     "latest_processed_slot", "latest_processed_block", "subscriptions", "unsubscriptions",
     "donations", "pool_blocks"] with
  | [validators, fees, percent, address, eligibility, slot, block, subscriptions, unsubscriptions,
     donations, poolBlocks] =>
    return { validators := ← need? validators, poolFees := ← need? fees,
             feePercent := ← need? percent, feeAddress := ← need? address,
             eligibility := ← need? eligibility, latestSlot := ← may? slot,
             latestBlock := ← may? block, subscriptions := ← need? subscriptions,
             unsubscriptions := ← need? unsubscriptions, donations := ← need? donations,
             poolBlocks := ← need? poolBlocks }
  | _ => none

end Ledger

instance : JsonForm Ledger := ⟨Ledger.toJson, Ledger.ofJson?⟩

end RewardPool
