import RewardPool.Proofs.Payouts
import RewardPool.Proofs.ProofPaths

/-!
The tree that commits to a ledger. It is built of one leaf for each address, in the order of the
addresses, and the proof kept for an address is the way up from its leaf. So whoever has a leaf can
verify it and claim it against the root, and nobody else can.
-/
namespace RewardPool

open Merkle (Digest)

namespace Ledger

variable {l : Ledger} {a : Address}

/-- The tree over all leaves of a ledger, with the way up from each of them. -/
def commitment (h : Digest) (l : Ledger) : ClaimTree :=
  let levels := Merkle.levelsFrom h (l.leaves.map (Leaf.hash h))
  { root := (⟨levels⟩ : Merkle.Tree).root
    leaves := .ofList (l.leaves.map fun leaf => (leaf.address, leaf))
    proofs := .ofList (l.leaves.zipIdx.map fun (leaf, i) =>
      (leaf.address, Merkle.siblings levels i)) }

/-- The claim tree is the one over all leaves, if there are two. -/
theorem claimTree_eq (h : Digest) (l : Ledger) :
    l.claimTree h =
      if l.leaves.length < 2 then .notEnoughData l.leaves else .built (l.commitment h) := by
  unfold claimTree
  dsimp only
  split
  · rfl
  · rename_i htwo
    have hne : l.leaves ≠ [] := List.ne_nil_of_length_pos (by omega)
    have htree : Merkle.Tree.ofLeaves? h (l.leaves.map (Leaf.hash h)) =
        some ⟨Merkle.levelsFrom h (l.leaves.map (Leaf.hash h))⟩ := by
      simp [Merkle.Tree.ofLeaves?, hne]
    -- every position is one of a leaf, so the bound in `proof?` never strikes
    have hproofs : ∀ e ∈ l.leaves.zipIdx,
        (((⟨Merkle.levelsFrom h (l.leaves.map (Leaf.hash h))⟩ : Merkle.Tree).proof? e.2).getD []) =
          Merkle.siblings (Merkle.levelsFrom h (l.leaves.map (Leaf.hash h))) e.2 := by
      intro e he
      have hlt : e.2 < l.leaves.length := (List.mem_zipIdx' he).1
      unfold Merkle.Tree.proof?
      rw [Merkle.leaves_levelsFrom, List.length_map, if_pos hlt, Option.getD_some]
    rw [htree]
    unfold commitment
    dsimp only
    congr 2
    exact congrArg SortedMap.ofList (List.map_congr_left fun e he => by rw [hproofs e he])

theorem claimTree_eq_built_iff {h : Digest} {tree : ClaimTree} :
    l.claimTree h = .built tree ↔ 2 ≤ l.leaves.length ∧ tree = l.commitment h := by
  rw [claimTree_eq]
  split
  · rename_i hfew
    simp [hfew]
  · rename_i htwo
    simp [Nat.not_lt.mp htwo, eq_comm]

theorem claimTree_eq_notEnoughData_iff {h : Digest} {leaves : List Leaf} :
    l.claimTree h = .notEnoughData leaves ↔ l.leaves.length < 2 ∧ leaves = l.leaves := by
  rw [claimTree_eq]
  split
  · rename_i hfew
    simp [hfew, eq_comm]
  · rename_i htwo
    simp [htwo]

theorem leaves_commitment (h : Digest) (l : Ledger) :
    (l.commitment h).leaves = l.balances.map fun a balance => ⟨a, balance⟩ := by
  have hentries : (l.leaves.map fun leaf => (leaf.address, leaf)) =
      (l.balances.map fun a balance => (⟨a, balance⟩ : Leaf)).entries := by
    simp [leaves, SortedMap.map, Function.comp_def]
  refine SortedMap.ext ?_
  unfold commitment
  dsimp only
  rw [hentries]
  exact SortedMap.entries_ofList (SortedMap.sorted _)

theorem find?_leaves_commitment (h : Digest) (l : Ledger) (a : Address) :
    (l.commitment h).leaves.find? a =
      if a ∈ l.payments.map (·.1) then some ⟨a, l.owed a⟩ else none := by
  rw [leaves_commitment, SortedMap.find?_map, find?_balances]
  split <;> rfl

theorem values_leaves_commitment (h : Digest) (l : Ledger) :
    (l.commitment h).leaves.values = l.leaves := by
  rw [leaves_commitment]
  simp [SortedMap.values, SortedMap.map, leaves, Function.comp_def]

theorem entries_leaves_commitment (h : Digest) (l : Ledger) :
    (l.commitment h).leaves.entries = l.leaves.map fun leaf => (leaf.address, leaf) := by
  rw [leaves_commitment]
  simp [SortedMap.map, leaves, Function.comp_def]

theorem address_of_leaf {h : Digest} {leaf : Leaf}
    (hleaf : (l.commitment h).leaves.find? a = some leaf) : leaf.address = a := by
  rw [find?_leaves_commitment] at hleaf
  split at hleaf
  · rw [← Option.some.inj hleaf]
  · exact absurd hleaf (by simp)

theorem addresses_proofs (h : Digest) (l : Ledger) :
    l.leaves.map (·.address) = (l.leaves.zipIdx.map fun (leaf, i) =>
      (leaf.address, Merkle.siblings (Merkle.levelsFrom h (l.leaves.map (Leaf.hash h))) i)).map
        (·.1) := by
  conv_lhs => rw [← List.zipIdx_map_fst 0 l.leaves]
  rw [List.map_map, List.map_map]
  rfl

/-- There is a proof for each leaf and for nothing else. -/
theorem keys_proofs_commitment (h : Digest) (l : Ledger) :
    (l.commitment h).proofs.keys = (l.commitment h).leaves.keys := by
  have hleaves : (l.commitment h).leaves.keys = l.leaves.map (·.address) := by
    unfold SortedMap.keys
    rw [entries_leaves_commitment, List.map_map]
    rfl
  have hsorted : ((l.commitment h).leaves.keys).Pairwise
      fun a b => Ranked.rank a < Ranked.rank b :=
    List.pairwise_map.mpr (l.commitment h).leaves.sorted
  rw [hleaves, addresses_proofs h] at hsorted ⊢
  exact SortedMap.keys_ofList hsorted

/-- The proof kept for an address leads from its leaf to the root. -/
theorem proof_of_leaf {h : Digest} {leaf : Leaf}
    (hleaf : (l.commitment h).leaves.find? a = some leaf) :
    ∃ proof, (l.commitment h).proofs.find? a = some proof ∧
      Merkle.verify h proof (l.commitment h).root (Merkle.leafHash h a leaf.balance) = true := by
  have hentry : (a, leaf) ∈ l.leaves.map fun leaf => (leaf.address, leaf) := by
    rw [← entries_leaves_commitment h]
    exact SortedMap.find?_eq_some_iff.mp hleaf
  obtain ⟨leaf, hmem, heq⟩ := List.mem_map.mp hentry
  obtain ⟨rfl, rfl⟩ := Prod.mk.inj heq
  obtain ⟨i, hi⟩ := List.mem_iff_getElem?.mp hmem
  have hnode : (l.leaves.map (Leaf.hash h))[i]? = some (leaf.hash h) := by simp [hi]
  refine ⟨_, SortedMap.find?_ofList_of_mem ?_ ?_, Merkle.verify_siblings hnode⟩
  · rw [← addresses_proofs]
    exact l.nodup_leaf_addresses
  · exact List.mem_map.mpr ⟨(leaf, i), List.mk_mem_zipIdx_iff_getElem?.mpr hi, rfl⟩

end Ledger

namespace Checkpoint

theorem claim_of_leaf {ε τ : Type} {c : Checkpoint} {a : Address} {leaf : Leaf}
    (hleaf : c.leaves.find? a = some leaf) {read : Address → StateM τ (Except ε Wei)}
    {claimed : Wei} {v v' : τ} (hread : (read a).run v = (.ok claimed, v')) :
    (c.claim a read).run v = (.ok (some (c.claimOf leaf a claimed)), v') := by
  unfold claim
  rw [hleaf]
  dsimp only
  rw [StateT.run_bind, hread]
  rfl

end Checkpoint

end RewardPool
