import RewardPool.Block
import RewardPool.Json.Form

/-! JSON forms of what is read from the chain. -/
namespace RewardPool

open Json (need? may?)

instance : JsonForm TransactionKind where
  toJson k := .string k.name
  ofJson? := Json.choice? TransactionKind.all TransactionKind.name

namespace Transaction

def toJson (t : Transaction) : Json :=
  .record
    [("hash", JsonForm.toJson t.hash), ("tx_type", JsonForm.toJson t.type),
     ("from", JsonForm.toJson t.sender), ("to", JsonForm.toJson t.recipient),
     ("value", JsonForm.toJson t.value), ("gas_price", JsonForm.toJson t.gasPrice),
     ("max_fee_per_gas", JsonForm.toJson t.feeCap),
     ("max_priority_fee_per_gas", JsonForm.toJson t.tipCap)]

def ofJson? (j : Json) : Option Transaction := do
  match ← j.record?
    ["hash", "tx_type", "from", "to", "value", "gas_price", "max_fee_per_gas",
     "max_priority_fee_per_gas"] with
  | [hash, type, sender, recipient, value, gasPrice, feeCap, tipCap] =>
    return { hash := ← need? hash, type := ← need? type, sender := ← need? sender,
             recipient := ← may? recipient, value := ← need? value, gasPrice := ← may? gasPrice,
             feeCap := ← need? feeCap, tipCap := ← may? tipCap }
  | _ => none

end Transaction

instance : JsonForm Transaction := ⟨Transaction.toJson, Transaction.ofJson?⟩

namespace ProposedBlock

def toJson (b : ProposedBlock) : Json :=
  .record
    [("slot", JsonForm.toJson b.slot), ("proposer_index", JsonForm.toJson b.proposer),
     ("block_number", JsonForm.toJson b.number), ("fee_recipient", JsonForm.toJson b.feeRecipient),
     ("transactions", JsonForm.toJson b.transactions)]

def ofJson? (j : Json) : Option ProposedBlock := do
  match ← j.record?
    ["slot", "proposer_index", "block_number", "fee_recipient", "transactions"] with
  | [slot, proposer, number, feeRecipient, transactions] =>
    return { slot := ← need? slot, proposer := ← need? proposer, number := ← need? number,
             feeRecipient := ← need? feeRecipient, transactions := ← need? transactions }
  | _ => none

end ProposedBlock

instance : JsonForm ProposedBlock := ⟨ProposedBlock.toJson, ProposedBlock.ofJson?⟩

namespace Header

def toJson (h : Header) : Json :=
  .record
    [("number", JsonForm.toJson h.number), ("base_fee_per_gas", JsonForm.toJson h.baseFee),
     ("gas_used", JsonForm.toJson h.gasUsed)]

def ofJson? (j : Json) : Option Header := do
  match ← j.record? ["number", "base_fee_per_gas", "gas_used"] with
  | [number, baseFee, gasUsed] =>
    return { number := ← need? number, baseFee := ← may? baseFee, gasUsed := ← need? gasUsed }
  | _ => none

end Header

instance : JsonForm Header := ⟨Header.toJson, Header.ofJson?⟩

namespace Receipt

def toJson (r : Receipt) : Json :=
  .record [("tx_hash", JsonForm.toJson r.hash), ("gas_used", JsonForm.toJson r.gasUsed)]

def ofJson? (j : Json) : Option Receipt := do
  match ← j.record? ["tx_hash", "gas_used"] with
  | [hash, gasUsed] => return { hash := ← need? hash, gasUsed := ← need? gasUsed }
  | _ => none

end Receipt

instance : JsonForm Receipt := ⟨Receipt.toJson, Receipt.ofJson?⟩

namespace Identity

def toJson (i : Identity) : Json :=
  .record
    [("index", JsonForm.toJson i.index), ("pubkey", JsonForm.toJson i.pubkey),
     ("withdrawal_address", JsonForm.toJson i.withdrawalAddress)]

def ofJson? (j : Json) : Option Identity := do
  match ← j.record? ["index", "pubkey", "withdrawal_address"] with
  | [index, pubkey, address] =>
    return { index := ← need? index, pubkey := ← need? pubkey,
             withdrawalAddress := ← may? address }
  | _ => none

end Identity

instance : JsonForm Identity := ⟨Identity.toJson, Identity.ofJson?⟩

namespace Subscription

def toJson (s : Subscription) : Json :=
  .record
    [("validator_index", JsonForm.toJson s.validator), ("sender", JsonForm.toJson s.sender),
     ("collateral", JsonForm.toJson s.collateral), ("block_number", JsonForm.toJson s.block),
     ("log_index", JsonForm.toJson s.logIndex), ("tx_hash", JsonForm.toJson s.transaction)]

def ofJson? (j : Json) : Option Subscription := do
  match ← j.record?
    ["validator_index", "sender", "collateral", "block_number", "log_index", "tx_hash"] with
  | [validator, sender, collateral, block, logIndex, transaction] =>
    return { validator := ← need? validator, sender := ← need? sender,
             collateral := ← need? collateral, block := ← need? block,
             logIndex := ← need? logIndex, transaction := ← need? transaction }
  | _ => none

end Subscription

instance : JsonForm Subscription := ⟨Subscription.toJson, Subscription.ofJson?⟩

namespace Unsubscription

def toJson (u : Unsubscription) : Json :=
  .record
    [("validator_index", JsonForm.toJson u.validator), ("sender", JsonForm.toJson u.sender),
     ("block_number", JsonForm.toJson u.block), ("log_index", JsonForm.toJson u.logIndex),
     ("tx_hash", JsonForm.toJson u.transaction)]

def ofJson? (j : Json) : Option Unsubscription := do
  match ← j.record? ["validator_index", "sender", "block_number", "log_index", "tx_hash"] with
  | [validator, sender, block, logIndex, transaction] =>
    return { validator := ← need? validator, sender := ← need? sender, block := ← need? block,
             logIndex := ← need? logIndex, transaction := ← need? transaction }
  | _ => none

end Unsubscription

instance : JsonForm Unsubscription := ⟨Unsubscription.toJson, Unsubscription.ofJson?⟩

namespace Donation

def toJson (d : Donation) : Json :=
  .record
    [("sender", JsonForm.toJson d.sender), ("amount", JsonForm.toJson d.amount),
     ("block_number", JsonForm.toJson d.block), ("tx_hash", JsonForm.toJson d.transaction)]

def ofJson? (j : Json) : Option Donation := do
  match ← j.record? ["sender", "amount", "block_number", "tx_hash"] with
  | [sender, amount, block, transaction] =>
    return { sender := ← need? sender, amount := ← need? amount, block := ← need? block,
             transaction := ← need? transaction }
  | _ => none

end Donation

instance : JsonForm Donation := ⟨Donation.toJson, Donation.ofJson?⟩

end RewardPool
