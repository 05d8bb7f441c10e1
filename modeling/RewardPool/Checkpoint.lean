import RewardPool.Ledger
import RewardPool.Merkle

/-!
What a ledger owes, by address, and the tree that commits to it. Each withdrawal address has one
leaf, whatever the status of its validators, and the pool's fees belong to the fee address. A
checkpoint keeps the tree of one slot together with the proofs it takes to claim against its root.
-/
namespace RewardPool

open Merkle (Digest)

structure Leaf where
  address : Address
  balance : Wei
deriving DecidableEq

def Leaf.hash (h : Digest) (leaf : Leaf) : Hash := Merkle.leafHash h leaf.address leaf.balance

structure ClaimTree where
  root : Hash
  leaves : SortedMap Address Leaf
  proofs : SortedMap Address (List Hash)

/-- A tree needs two leaves. -/
inductive TreeOutcome where
  | built (tree : ClaimTree)
  | notEnoughData (leaves : List Leaf)

/-- The snapshot of a checkpoint slot, and the transaction that brought its root on the chain. -/
structure Checkpoint where
  slot : Slot
  block : Option BlockNumber
  root : Hash
  leaves : SortedMap Address Leaf
  proofs : SortedMap Address (List Hash)
  transaction : Option Hash

structure Claim where
  address : Address
  root : Hash
  slot : Slot
  accumulated : Wei
  claimed : Wei
  claimable : Wei
  proof : List Hash
deriving DecidableEq

namespace Ledger

/-- Adds an amount to the balance of an address, which starts at zero. -/
def addBalance (balances : SortedMap Address Wei) (address : Address) (amount : Wei) :
    SortedMap Address Wei :=
  balances.insert address ((balances.find? address).getD 0 + amount)

/-- The claimable balance of each withdrawal address and of the fee address. -/
def balances (l : Ledger) : SortedMap Address Wei :=
  let owed := l.validators.values.foldl (fun m v => addBalance m v.withdrawalAddress v.accumulated)
    .empty
  addBalance owed l.feeAddress l.poolFees

/-- One leaf for each address, in the order of addresses. -/
def leaves (l : Ledger) : List Leaf := l.balances.entries.map fun e => ⟨e.1, e.2⟩

def claimTree (h : Digest) (l : Ledger) : TreeOutcome :=
  let leaves := l.leaves
  if leaves.length < 2 then .notEnoughData leaves
  else
    match Merkle.Tree.ofLeaves? h (leaves.map (Leaf.hash h)) with
    | none => .notEnoughData leaves
    | some tree =>
      .built
        { root := tree.root
          leaves := .ofList (leaves.map fun leaf => (leaf.address, leaf))
          proofs := .ofList (leaves.zipIdx.map fun (leaf, i) =>
            (leaf.address, (tree.proof? i).getD [])) }

end Ledger

namespace TreeOutcome

def hasEnoughData : TreeOutcome → Bool
  | built _ => true
  | notEnoughData _ => false

def root? : TreeOutcome → Option Hash
  | built tree => some tree.root
  | notEnoughData _ => none

end TreeOutcome

namespace Checkpoint

def ofTree (slot : Slot) (block : Option BlockNumber) (tree : ClaimTree) : Checkpoint where
  slot := slot
  block := block
  root := tree.root
  leaves := tree.leaves
  proofs := tree.proofs
  transaction := none

/-- Whether the proof kept for an address leads from its leaf to the root. -/
def verify (h : Digest) (c : Checkpoint) (address : Address) : Bool :=
  match c.leaves.find? address, c.proofs.find? address with
  | some leaf, some proof => Merkle.verify h proof c.root (leaf.hash h)
  | _, _ => false

def claimOf (c : Checkpoint) (leaf : Leaf) (address : Address) (claimed : Wei) : Claim where
  address := address
  root := c.root
  slot := c.slot
  accumulated := leaf.balance
  claimed := claimed
  claimable := Wei.monus leaf.balance claimed
  proof := (c.proofs.find? address).getD []

variable {ε : Type} {m : Type → Type} [Monad m]

/-- The claim of an address. How much was paid out is asked only for an address with a leaf. -/
def claim (c : Checkpoint) (address : Address) (claimedBalance : Address → m (Except ε Wei)) :
    m (Except ε (Option Claim)) := do
  match c.leaves.find? address with
  | none => return .ok none
  | some leaf =>
    match ← claimedBalance address with
    | .error e => return .error e
    | .ok claimed => return .ok (some (c.claimOf leaf address claimed))

end Checkpoint

end RewardPool
