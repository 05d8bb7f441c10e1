import RewardPool.Checkpoint
import RewardPool.Json.Form

/-! JSON forms of checkpoints, their trees and the claims against them. -/
namespace RewardPool

open Json (need? may?)

namespace Leaf

def toJson (leaf : Leaf) : Json :=
  .record
    [("withdrawal_address", JsonForm.toJson leaf.address),
     ("accumulated_balance", JsonForm.toJson leaf.balance)]

def ofJson? (j : Json) : Option Leaf := do
  match ← j.record? ["withdrawal_address", "accumulated_balance"] with
  | [address, balance] => return { address := ← need? address, balance := ← need? balance }
  | _ => none

end Leaf

instance : JsonForm Leaf := ⟨Leaf.toJson, Leaf.ofJson?⟩

namespace ClaimTree

def toJson (t : ClaimTree) : Json :=
  .record
    [("root", JsonForm.toJson t.root), ("leaves", JsonForm.toJson t.leaves),
     ("proofs", JsonForm.toJson t.proofs)]

def ofJson? (j : Json) : Option ClaimTree := do
  match ← j.record? ["root", "leaves", "proofs"] with
  | [root, leaves, proofs] =>
    return { root := ← need? root, leaves := ← need? leaves, proofs := ← need? proofs }
  | _ => none

end ClaimTree

instance : JsonForm ClaimTree := ⟨ClaimTree.toJson, ClaimTree.ofJson?⟩

namespace Checkpoint

def toJson (c : Checkpoint) : Json :=
  .record
    [("slot", JsonForm.toJson c.slot), ("block_number", JsonForm.toJson c.block),
     ("merkle_root", JsonForm.toJson c.root), ("leaves", JsonForm.toJson c.leaves),
     ("proofs", JsonForm.toJson c.proofs), ("tx_hash", JsonForm.toJson c.transaction)]

def ofJson? (j : Json) : Option Checkpoint := do
  match ← j.record? ["slot", "block_number", "merkle_root", "leaves", "proofs", "tx_hash"] with
  | [slot, block, root, leaves, proofs, transaction] =>
    return { slot := ← need? slot, block := ← may? block, root := ← need? root,
             leaves := ← need? leaves, proofs := ← need? proofs, transaction := ← may? transaction }
  | _ => none

end Checkpoint

instance : JsonForm Checkpoint := ⟨Checkpoint.toJson, Checkpoint.ofJson?⟩

namespace Claim

def toJson (c : Claim) : Json :=
  .record
    [("withdrawal_address", JsonForm.toJson c.address), ("merkle_root", JsonForm.toJson c.root),
     ("checkpoint_slot", JsonForm.toJson c.slot),
     ("accumulated_balance", JsonForm.toJson c.accumulated),
     ("claimed_balance", JsonForm.toJson c.claimed), ("claimable", JsonForm.toJson c.claimable),
     ("proof", JsonForm.toJson c.proof)]

def ofJson? (j : Json) : Option Claim := do
  match ← j.record?
    ["withdrawal_address", "merkle_root", "checkpoint_slot", "accumulated_balance",
     "claimed_balance", "claimable", "proof"] with
  | [address, root, slot, accumulated, claimed, claimable, proof] =>
    return { address := ← need? address, root := ← need? root, slot := ← need? slot,
             accumulated := ← need? accumulated, claimed := ← need? claimed,
             claimable := ← need? claimable, proof := ← need? proof }
  | _ => none

end Claim

instance : JsonForm Claim := ⟨Claim.toJson, Claim.ofJson?⟩

end RewardPool
