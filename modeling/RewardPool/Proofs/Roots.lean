import RewardPool.Proofs.ClaimBinding

/-!
A root stands for one list of leaves. Two trees with the same root need not have the same shape, so
they are not compared level by level: the way up from a leaf of the one tree is a proof against the
root of the other, where it has to start at a leaf too. So each tree has the leaves of the other one,
and the order of the addresses leaves no choice for their list.
-/
namespace RewardPool

namespace Merkle

variable {h : Digest} {level : List Hash} {i : Nat} {x : Hash}

theorem pairString_comm (a b : Hash) : pairString a b = pairString b a := by
  unfold pairString
  by_cases hab : a.bits ≤ b.bits
  · by_cases hba : b.bits ≤ a.bits
    · have hbits : a.bits = b.bits := BitVec.le_antisymm hab hba
      have heq : a = b := congrArg FixedBytes.mk hbits
      rw [heq]
    · rw [if_pos hab, if_neg hba]
  · have hba : b.bits ≤ a.bits := BitVec.le_of_lt (BitVec.not_le.mp hab)
    rw [if_neg hab, if_pos hba]

theorem proofStrings_append (h : Digest) (node : Hash) (lower upper : List Hash) :
    proofStrings h node (lower ++ upper) =
      proofStrings h node lower ++ proofStrings h (lower.foldl (pairHash h) node) upper := by
  induction lower generalizing node with
  | nil => simp [proofStrings]
  | cons s rest ih => simp [proofStrings, ih]

/-- A node and its sibling are hashed together on the way to the next level. -/
theorem proofStrings_sibling_subset (hx : level[i]? = some x) :
    proofStrings h x level[sibling i]?.toList ⊆ levelStrings level := by
  fun_induction levelStrings level generalizing i with
  | case1 a b rest ih =>
    rcases i with _ | _ | i
    · obtain rfl : a = x := by simpa using hx
      simp [sibling, proofStrings]
    · obtain rfl : b = x := by simpa using hx
      simp [sibling, proofStrings, pairString_comm a b]
    · have hrest := ih (i := i) (by simpa using hx)
      rw [sibling_add_two]
      intro s hs
      exact List.mem_cons_of_mem _ (hrest (by simpa using hs))
  | case2 a =>
    -- the last node of an odd level is hashed with nothing
    obtain rfl : i = 0 := by
      cases i with
      | zero => rfl
      | succ i => simp at hx
    simp [sibling, proofStrings]
  | case3 => simp at hx

/-- The way up from a leaf hashes nothing that was not hashed for the tree. -/
theorem proofStrings_siblings_subset (hx : level[i]? = some x) :
    proofStrings h x (siblings (levelsFrom h level) i) ⊆ treeStrings h level := by
  unfold treeStrings
  fun_induction levelsFrom h level generalizing i x with
  | case1 level hsingle => simp [siblings, proofStrings]
  | case2 level hmany ih =>
    have habove := ih (getElem?_levelUp (h := h) hx)
    have hbeside := proofStrings_sibling_subset (h := h) hx
    rw [siblings_cons (levelsFrom_ne_nil h _), proofStrings_append, List.flatMap_cons]
    apply List.append_subset.mpr
    constructor
    · exact List.Subset.trans hbeside (List.subset_append_left _ _)
    · exact List.Subset.trans habove (List.subset_append_right _ _)

end Merkle

namespace Ledger

open Merkle (Digest leafString)

variable {h : Digest} {l l' : Ledger} {strings : List (List UInt8)} {leaf : Leaf}

theorem leafLike_of_mem (hstrings : l.claimStrings h ⊆ strings) (hleaf : leaf ∈ l.leaves) :
    Merkle.LeafLike strings (leafString leaf.address leaf.balance) := by
  refine ⟨hstrings ?_, Merkle.length_leafString _ _⟩
  exact List.mem_append_left _ (List.mem_map_of_mem hleaf)

/-- A leaf of a tree is a leaf of every other tree with the same root. -/
theorem leaf_mem_of_root_eq (hfree : CollisionFree h strings) (hl : l.claimStrings h ⊆ strings)
    (hl' : l'.claimStrings h ⊆ strings) (hne : l'.leaves ≠ [])
    (hroot : (l.commitment h).root = (l'.commitment h).root) (hleaf : leaf ∈ l.leaves) :
    leaf ∈ l'.leaves := by
  obtain ⟨i, hi⟩ := List.mem_iff_getElem?.mp hleaf
  have hnode : (l.leaves.map (Leaf.hash h))[i]? = some (leaf.hash h) := by simp [hi]
  have hverify : Merkle.verify h (Merkle.siblings (Merkle.levelsFrom h _) i) (l.commitment h).root
      (leaf.hash h) = true := Merkle.verify_siblings hnode
  rw [hroot] at hverify
  have hhashed := Merkle.proofStrings_siblings_subset hnode (h := h)
  have hlike := leafLike_of_mem hl hleaf
  -- the way up in the one tree leads to the root of the other
  have hmem : leaf.hash h ∈ l'.leaves.map (Leaf.hash h) := by
    apply Merkle.leaf_mem_of_verify hfree hlike
    · intro x hx
      obtain ⟨other, hother, rfl⟩ := List.mem_map.mp hx
      exact ⟨_, leafLike_of_mem hl' hother, rfl⟩
    · simpa using hne
    · exact fun s hs => hl' (List.mem_append_right _ hs)
    · exact fun s hs => hl (List.mem_append_right _ (hhashed hs))
    · exact hverify
  obtain ⟨other, hother, hhash⟩ := List.mem_map.mp hmem
  have hsame := hfree _ (leafLike_of_mem hl' hother).1 _ hlike.1 hhash
  obtain ⟨haddress, hbalance⟩ := Merkle.leafString_injective hsame
  have heq : other = leaf := by
    cases other
    cases leaf
    simp_all
  exact heq ▸ hother

theorem mem_leaves_iff : leaf ∈ l.leaves ↔ l.balances.find? leaf.address = some leaf.balance := by
  rw [SortedMap.find?_eq_some_iff]
  unfold leaves
  constructor
  · intro hleaf
    obtain ⟨e, he, rfl⟩ := List.mem_map.mp hleaf
    exact he
  · intro hentry
    exact List.mem_map.mpr ⟨_, hentry, rfl⟩

/-- Leaves are in the order of their addresses, so which ones there are tells the balances. -/
theorem balances_eq_of_mem_leaves (h : ∀ leaf, leaf ∈ l.leaves ↔ leaf ∈ l'.leaves) :
    l.balances = l'.balances := by
  apply SortedMap.ext_find?
  intro a
  apply Option.ext
  intro balance
  have hleaf := h ⟨a, balance⟩
  rwa [mem_leaves_iff, mem_leaves_iff] at hleaf

theorem leaves_eq_of_balances (h : l.balances = l'.balances) : l.leaves = l'.leaves := by
  unfold leaves
  rw [h]

theorem commitment_congr (heq : l.leaves = l'.leaves) : l.commitment h = l'.commitment h := by
  unfold commitment
  rw [heq]

/-- Two trees have one root exactly if they have the same leaves, as long as no two of the strings
that were hashed for them collide. Then they are one tree, with one balance for every address. -/
theorem root_eq_iff_leaves_eq {tree tree' : ClaimTree} (hbuilt : l.claimTree h = .built tree)
    (hbuilt' : l'.claimTree h = .built tree')
    (hfree : CollisionFree h (l.claimStrings h ++ l'.claimStrings h)) :
    (tree.root = tree'.root ↔ l.leaves = l'.leaves) ∧
      (tree.root = tree'.root → tree = tree' ∧ l.balances = l'.balances) := by
  obtain ⟨htwo, rfl⟩ := claimTree_eq_built_iff.mp hbuilt
  obtain ⟨htwo', rfl⟩ := claimTree_eq_built_iff.mp hbuilt'
  have hne : l.leaves ≠ [] := List.ne_nil_of_length_pos (by omega)
  have hne' : l'.leaves ≠ [] := List.ne_nil_of_length_pos (by omega)
  have hl := List.subset_append_left (l.claimStrings h) (l'.claimStrings h)
  have hl' := List.subset_append_right (l.claimStrings h) (l'.claimStrings h)
  have hbalances : (l.commitment h).root = (l'.commitment h).root → l.balances = l'.balances := by
    intro hroot
    apply balances_eq_of_mem_leaves
    intro leaf
    constructor
    · exact leaf_mem_of_root_eq hfree hl hl' hne' hroot
    · exact leaf_mem_of_root_eq hfree hl' hl hne hroot.symm
  constructor
  · constructor
    · exact fun hroot => leaves_eq_of_balances (hbalances hroot)
    · exact fun hleaves => congrArg ClaimTree.root (commitment_congr hleaves)
  · intro hroot
    exact ⟨commitment_congr (leaves_eq_of_balances (hbalances hroot)), hbalances hroot⟩

end Ledger

/-! A second validator has a leaf of its own, and the fees are promoted over one level. -/
namespace TwoLeaves

open Merkle (leafHash leafString pairString)

def newcomer : Address := .fill 0x20

def widerLedger : Ledger :=
  { ledger with
    validators := ledger.validators.insert 1 { Validator.fresh newcomer .zero with accumulated := 3 } }

def newcomerHash : Hash :=
  .ofNat 0xc0e9ac6c94b3f01bf3513c44d62bc7bf61afc675e250977ac8bed0f4735131c7

def validatorsHash : Hash :=
  .ofNat 0xf9f4bd7739238751226f21065dec42bbbec91e04d9235b457e8d74d0bf43bbba

def widerRootHash : Hash :=
  .ofNat 0x260f2fc7c4424625beee64dbacdb74937bf3741d6dccfa67b3f36134c6c062e8

theorem wider_digests :
    Keccak.digest (leafString newcomer 3) = newcomerHash ∧
      Keccak.digest (pairString accountHash newcomerHash) = validatorsHash ∧
      Keccak.digest (pairString validatorsHash feeHash) = widerRootHash :=
  ⟨by decide +kernel, by decide +kernel, by decide +kernel⟩

theorem wider_levels :
    Merkle.levelsFrom Keccak.digest [accountHash, newcomerHash, feeHash] =
      [[accountHash, newcomerHash, feeHash], [validatorsHash, feeHash], [widerRootHash]] := by
  simp [Merkle.levelsFrom, Merkle.levelUp, Merkle.pairHash_eq, wider_digests]

theorem wider_leaf_hashes :
    widerLedger.leaves.map (Leaf.hash Keccak.digest) = [accountHash, newcomerHash, feeHash] := by
  rw [← digests.1, ← wider_digests.1, ← digests.2.1]
  rfl

theorem wider_claimStrings_eq :
    widerLedger.claimStrings Keccak.digest =
      [leafString account 7, leafString newcomer 3, leafString feeAddress 5,
        pairString accountHash newcomerHash, pairString validatorsHash feeHash] := by
  unfold Ledger.claimStrings Merkle.treeStrings
  rw [wider_leaf_hashes, wider_levels]
  rfl

theorem collisionFree_both :
    CollisionFree Keccak.digest
      (ledger.claimStrings Keccak.digest ++ widerLedger.claimStrings Keccak.digest) := by
  have hdigests : ([leafString account 7, leafString newcomer 3, leafString feeAddress 5,
      pairString accountHash feeHash, pairString accountHash newcomerHash,
      pairString validatorsHash feeHash].map Keccak.digest) =
        [accountHash, newcomerHash, feeHash, rootHash, validatorsHash, widerRootHash] := by
    simp only [List.map_cons, List.map_nil, digests, wider_digests]
  refine collisionFree_of_nodup ?_ (hdigests ▸ (by decide :
    [accountHash, newcomerHash, feeHash, rootHash, validatorsHash, widerRootHash].Nodup))
  rw [claimStrings_eq, wider_claimStrings_eq]
  simp

theorem roots_of_two_and_three_leaves :
    ∃ tree tree', ledger.claimTree Keccak.digest = .built tree ∧
      widerLedger.claimTree Keccak.digest = .built tree' ∧
      CollisionFree Keccak.digest
        (ledger.claimStrings Keccak.digest ++ widerLedger.claimStrings Keccak.digest) ∧
      (tree.root = tree'.root ↔ ledger.leaves = widerLedger.leaves) ∧ tree.root ≠ tree'.root := by
  obtain ⟨proofs, hbuilt⟩ :=
    Ledger.claimTree_of_two Keccak.digest (l := ledger) (by decide)
  obtain ⟨proofs', hbuilt'⟩ :=
    Ledger.claimTree_of_two Keccak.digest (l := widerLedger) (by decide)
  have hroots := (Ledger.root_eq_iff_leaves_eq hbuilt hbuilt' collisionFree_both).1
  have hne : ledger.leaves ≠ widerLedger.leaves := by decide
  exact ⟨_, _, hbuilt, hbuilt', collisionFree_both, hroots, fun heq => hne (hroots.mp heq)⟩

end TwoLeaves

end RewardPool
