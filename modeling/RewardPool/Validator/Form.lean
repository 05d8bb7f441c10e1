import RewardPool.Json.Form
import RewardPool.Validator

/-! JSON forms of validators and of what is kept about them. -/
namespace RewardPool

open Json (need? may?)

instance : JsonForm Status where
  toJson s := .string s.name
  ofJson? := Json.choice? Status.all Status.name

instance : JsonForm Event where
  toJson e := .string e.name
  ofJson? := Json.choice? Event.all Event.name

instance : JsonForm RewardKind where
  toJson k := .string k.name
  ofJson? := Json.choice? RewardKind.all RewardKind.name

instance : JsonForm BlockKind where
  toJson k := .string k.name
  ofJson? := Json.choice? BlockKind.all BlockKind.name

instance : JsonForm Eligibility where
  toJson e := .string e.name
  ofJson? := Json.choice? Eligibility.all Eligibility.name

namespace BlockRecord

def toJson (r : BlockRecord) : Json :=
  .record
    [("slot", JsonForm.toJson r.slot), ("validator_index", JsonForm.toJson r.validator),
     ("block_number", JsonForm.toJson r.number), ("reward", JsonForm.toJson r.reward),
     ("reward_type", JsonForm.toJson r.rewardKind), ("block_type", JsonForm.toJson r.kind)]

def ofJson? (j : Json) : Option BlockRecord := do
  match ← j.record?
    ["slot", "validator_index", "block_number", "reward", "reward_type", "block_type"] with
  | [slot, validator, number, reward, rewardKind, kind] =>
    return { slot := ← need? slot, validator := ← need? validator, number := ← may? number,
             reward := ← need? reward, rewardKind := ← may? rewardKind, kind := ← need? kind }
  | _ => none

end BlockRecord

instance : JsonForm BlockRecord := ⟨BlockRecord.toJson, BlockRecord.ofJson?⟩

namespace Validator

def toJson (v : Validator) : Json :=
  .record
    [("status", JsonForm.toJson v.status), ("accumulated_rewards", JsonForm.toJson v.accumulated),
     ("pending_rewards", JsonForm.toJson v.pending), ("collateral", JsonForm.toJson v.collateral),
     ("withdrawal_address", JsonForm.toJson v.withdrawalAddress),
     ("pubkey", JsonForm.toJson v.pubkey), ("proposed_blocks", JsonForm.toJson v.proposed),
     ("missed_blocks", JsonForm.toJson v.missed), ("wrong_fee_blocks", JsonForm.toJson v.wrongFee)]

def ofJson? (j : Json) : Option Validator := do
  match ← j.record?
    ["status", "accumulated_rewards", "pending_rewards", "collateral", "withdrawal_address",
     "pubkey", "proposed_blocks", "missed_blocks", "wrong_fee_blocks"] with
  | [status, accumulated, pending, collateral, address, pubkey, proposed, missed, wrongFee] =>
    return { status := ← need? status, accumulated := ← need? accumulated,
             pending := ← need? pending, collateral := ← need? collateral,
             withdrawalAddress := ← need? address, pubkey := ← need? pubkey,
             proposed := ← need? proposed, missed := ← need? missed,
             wrongFee := ← need? wrongFee }
  | _ => none

end Validator

instance : JsonForm Validator := ⟨Validator.toJson, Validator.ofJson?⟩

end RewardPool
