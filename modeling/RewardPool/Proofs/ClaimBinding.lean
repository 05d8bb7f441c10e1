import RewardPool.Keccak
import RewardPool.Proofs.ByteStrings
import RewardPool.Proofs.Commitments

/-!
A root binds the balances under it. A proof that leads to the root passes, read from its end,
through nodes of the tree: where the hash function confuses no two of the strings that were hashed,
the pair that made a node is the pair that the proof hashed. So the walk from the root down ends at
a leaf. It cannot end above one, because a leaf hashes 52 bytes and a pair of nodes 64.
-/
namespace RewardPool

/-- No two of the strings have one hash. -/
def CollisionFree (h : Merkle.Digest) (strings : List (List UInt8)) : Prop :=
  ∀ x ∈ strings, ∀ y ∈ strings, h x = h y → x = y

theorem collisionFree_of_nodup {h : Merkle.Digest} {strings distinct : List (List UInt8)}
    (hsub : strings ⊆ distinct) (hdistinct : (distinct.map h).Nodup) : CollisionFree h strings :=
  fun _ hx _ hy heq => List.inj_on_of_nodup_map hdistinct (hsub hx) (hsub hy) heq

namespace Merkle

/-- The string of which `leafHash` takes the hash. -/
def leafString (address : Address) (balance : Wei) : List UInt8 :=
  address.toBytes ++ Wei.toBytes balance

/-- The string of which `pairHash` takes the hash. -/
def pairString (a b : Hash) : List UInt8 :=
  if a.bits ≤ b.bits then a.toBytes ++ b.toBytes else b.toBytes ++ a.toBytes

/-- The strings that are hashed on the way from one level to the next. -/
def levelStrings : List Hash → List (List UInt8)
  | a :: b :: rest => pairString a b :: levelStrings rest
  | [_] => []
  | [] => []

/-- The strings that are hashed while a tree grows from its leaf hashes. -/
def treeStrings (h : Digest) (leaves : List Hash) : List (List UInt8) :=
  (levelsFrom h leaves).flatMap levelStrings

/-- The strings that are hashed while a proof is followed from a node. -/
def proofStrings (h : Digest) : Hash → List Hash → List (List UInt8)
  | _, [] => []
  | node, sibling :: rest =>
    pairString node sibling :: proofStrings h (pairHash h node sibling) rest

variable {h : Digest} {strings : List (List UInt8)}

theorem pairHash_eq (h : Digest) (a b : Hash) : pairHash h a b = h (pairString a b) := by
  unfold pairHash pairString
  split <;> rfl

theorem length_leafString (address : Address) (balance : Wei) :
    (leafString address balance).length = 52 := by
  simp [leafString, FixedBytes.length_toBytes, Wei.length_toBytes]

theorem length_pairString (a b : Hash) : (pairString a b).length = 64 := by
  unfold pairString
  split <;> simp [FixedBytes.length_toBytes]

theorem leafString_injective {a a' : Address} {w w' : Wei}
    (heq : leafString a w = leafString a' w') : a = a' ∧ w = w' := by
  have hlength : a.toBytes.length = a'.toBytes.length := by simp [FixedBytes.length_toBytes]
  obtain ⟨ha, hw⟩ := List.append_inj heq hlength
  exact ⟨FixedBytes.toBytes_injective ha, Wei.toBytes_injective hw⟩

theorem append_toBytes_injective {a b c d : Hash}
    (heq : a.toBytes ++ b.toBytes = c.toBytes ++ d.toBytes) : a = c ∧ b = d := by
  have hlength : a.toBytes.length = c.toBytes.length := by simp [FixedBytes.length_toBytes]
  obtain ⟨hac, hbd⟩ := List.append_inj heq hlength
  exact ⟨FixedBytes.toBytes_injective hac, FixedBytes.toBytes_injective hbd⟩

/-- The string of a pair tells the two nodes, though not which came first. -/
theorem pairString_cases {a b c d : Hash} (heq : pairString a b = pairString c d) :
    a = c ∨ a = d := by
  unfold pairString at heq
  split at heq <;> split at heq
  · exact .inl (append_toBytes_injective heq).1
  · exact .inr (append_toBytes_injective heq).1
  · exact .inr (append_toBytes_injective heq).2
  · exact .inl (append_toBytes_injective heq).2

/-- A node of the next level was promoted, or it is the hash of two nodes below. -/
theorem mem_levelUp {x : Hash} {level : List Hash} (hx : x ∈ levelUp h level) :
    x ∈ level ∨ ∃ a ∈ level, ∃ b ∈ level,
      pairString a b ∈ levelStrings level ∧ x = h (pairString a b) := by
  fun_induction levelUp h level with
  | case1 a b rest ih =>
    rcases List.mem_cons.mp hx with rfl | hx
    · exact .inr ⟨a, by simp, b, by simp, by simp [levelStrings], pairHash_eq h a b⟩
    · rcases ih hx with hmem | ⟨c, hc, d, hd, hstring, heq⟩
      · exact .inl (by simp [hmem])
      · exact .inr ⟨c, by simp [hc], d, by simp [hd], by simp [levelStrings, hstring], heq⟩
  | case2 a => exact .inl hx
  | case3 => exact .inl hx

theorem proofStrings_concat (h : Digest) (leaf sibling : Hash) (proof : List Hash) :
    proofStrings h leaf (proof ++ [sibling]) =
      proofStrings h leaf proof ++ [pairString (proof.foldl (pairHash h) leaf) sibling] := by
  induction proof generalizing leaf with
  | nil => rfl
  | cons s rest ih => simp [proofStrings, ih]

/-- Every proof from a leaf string that reaches one of the nodes starts at one of the leaves. -/
def Grounded (h : Digest) (strings : List (List UInt8)) (leaf : List UInt8)
    (leaves nodes : List Hash) : Prop :=
  ∀ proof : List Hash, proofStrings h (h leaf) proof ⊆ strings →
    proof.foldl (pairHash h) (h leaf) ∈ nodes → h leaf ∈ leaves

/-- A string that is hashed as a leaf: one of those in question, and too short for a pair. -/
def LeafLike (strings : List (List UInt8)) (leaf : List UInt8) : Prop :=
  leaf ∈ strings ∧ leaf.length = 52

theorem LeafLike.ne_pair {leaf : List UInt8} (hleaf : LeafLike strings leaf)
    (hfree : CollisionFree h strings) {a b : Hash} (hpair : pairString a b ∈ strings) :
    h leaf ≠ h (pairString a b) := by
  intro heq
  have hlength := congrArg List.length (hfree _ hleaf.1 _ hpair heq)
  rw [hleaf.2, length_pairString] at hlength
  omega

variable {leaf : List UInt8} {leaves level : List Hash}

theorem grounded_leaves (hfree : CollisionFree h strings)
    (hleaves : ∀ x ∈ leaves, ∃ s, LeafLike strings s ∧ x = h s) :
    Grounded h strings leaf leaves leaves := by
  intro proof hproof hmem
  rcases List.eq_nil_or_concat' proof with rfl | ⟨lower, sibling, rfl⟩
  · exact hmem
  -- A last step would hash a pair where a leaf was hashed.
  · obtain ⟨s, hs, heq⟩ := hleaves _ hmem
    rw [proofStrings_concat] at hproof
    rw [List.foldl_concat, pairHash_eq] at heq
    exact absurd heq.symm (hs.ne_pair hfree (hproof (by simp)))

theorem grounded_levelUp (hfree : CollisionFree h strings) (hleaf : LeafLike strings leaf)
    (hlevel : levelStrings level ⊆ strings) (hgrounded : Grounded h strings leaf leaves level) :
    Grounded h strings leaf leaves (levelUp h level) := by
  intro proof hproof hmem
  rcases mem_levelUp hmem with hpromoted | ⟨a, ha, b, hb, hstring, heq⟩
  · exact hgrounded proof hproof hpromoted
  · rcases List.eq_nil_or_concat' proof with rfl | ⟨lower, sibling, rfl⟩
    · exact absurd heq (hleaf.ne_pair hfree (hlevel hstring))
    · rw [proofStrings_concat] at hproof
      rw [List.foldl_concat, pairHash_eq] at heq
      -- Both strings were hashed, so the proof hashed the very pair that made the node.
      have hsame := hfree _ (hproof (by simp)) _ (hlevel hstring) heq
      have hlower : proofStrings h (h leaf) lower ⊆ strings :=
        List.Subset.trans (List.subset_append_left _ _) hproof
      rcases pairString_cases hsame with hnode | hnode
      · exact hgrounded lower hlower (hnode ▸ ha)
      · exact hgrounded lower hlower (hnode ▸ hb)

theorem grounded_levelsFrom (hfree : CollisionFree h strings) (hleaf : LeafLike strings leaf)
    (hstrings : treeStrings h level ⊆ strings) (hgrounded : Grounded h strings leaf leaves level) :
    ∀ nodes ∈ levelsFrom h level, Grounded h strings leaf leaves nodes := by
  unfold treeStrings at hstrings
  fun_induction levelsFrom h level with
  | case1 level hsingle =>
    intro nodes hnodes
    rwa [List.mem_singleton.mp hnodes]
  | case2 level hmore ih =>
    rw [List.flatMap_cons, List.append_subset] at hstrings
    intro nodes hnodes
    rcases List.mem_cons.mp hnodes with rfl | hnodes
    · exact hgrounded
    · exact ih hstrings.2 (grounded_levelUp hfree hleaf hstrings.1 hgrounded) nodes hnodes

theorem levelUp_ne_nil (hlevel : level ≠ []) : levelUp h level ≠ [] := by
  fun_cases levelUp h level with
  | case1 a b rest => simp
  | case2 a => simp
  | case3 => exact absurd rfl hlevel

theorem root_mem_levelsFrom (h : Digest) (hlevel : level ≠ []) :
    ∃ top ∈ levelsFrom h level, (⟨levelsFrom h level⟩ : Tree).root ∈ top := by
  fun_induction levelsFrom h level with
  | case1 level hsingle =>
    obtain ⟨a, rest, rfl⟩ := List.exists_cons_of_ne_nil hlevel
    exact ⟨_, List.mem_singleton_self _, by simp [Tree.root]⟩
  | case2 level hmore ih =>
    obtain ⟨top, htop, hroot⟩ := ih (levelUp_ne_nil hlevel)
    refine ⟨top, List.mem_cons_of_mem _ htop, ?_⟩
    rwa [root_cons (levelsFrom_ne_nil h _)]

/-- A proof that leads from a leaf string to the root of a tree starts at one of its leaves. -/
theorem leaf_mem_of_verify (hfree : CollisionFree h strings) (hleaf : LeafLike strings leaf)
    (hleaves : ∀ x ∈ leaves, ∃ s, LeafLike strings s ∧ x = h s) (hne : leaves ≠ [])
    (htree : treeStrings h leaves ⊆ strings) {proof : List Hash}
    (hproof : proofStrings h (h leaf) proof ⊆ strings)
    (hverify : verify h proof (⟨levelsFrom h leaves⟩ : Tree).root (h leaf) = true) :
    h leaf ∈ leaves := by
  obtain ⟨top, htop, hroot⟩ := root_mem_levelsFrom h hne
  have hgrounded := grounded_levelsFrom hfree hleaf htree (grounded_leaves hfree hleaves) top htop
  refine hgrounded proof hproof ?_
  rwa [of_decide_eq_true hverify]

end Merkle

namespace Ledger

open Merkle (Digest leafString treeStrings proofStrings)

/-- The strings that are hashed while the claim tree of a ledger is built. -/
def claimStrings (h : Digest) (l : Ledger) : List (List UInt8) :=
  l.leaves.map (fun leaf => leafString leaf.address leaf.balance) ++
    treeStrings h (l.leaves.map (Leaf.hash h))

theorem claimTree_of_two (h : Digest) {l : Ledger} (htwo : 2 ≤ l.leaves.length) :
    ∃ proofs, l.claimTree h = .built
      { root := (⟨Merkle.levelsFrom h (l.leaves.map (Leaf.hash h))⟩ : Merkle.Tree).root
        leaves := .ofList (l.leaves.map fun leaf => (leaf.address, leaf))
        proofs } := by
  exact ⟨_, claimTree_eq_built_iff.mpr ⟨htwo, rfl⟩⟩

/-- A tree that is built keeps every leaf under its address and commits to all their hashes. -/
theorem claimTree_eq_built {h : Digest} {l : Ledger} {tree : ClaimTree}
    (hbuilt : l.claimTree h = .built tree) :
    l.leaves ≠ [] ∧
      tree.root = (⟨Merkle.levelsFrom h (l.leaves.map (Leaf.hash h))⟩ : Merkle.Tree).root ∧
      ∀ leaf ∈ l.leaves, tree.leaves.find? leaf.address = some leaf := by
  obtain ⟨htwo, rfl⟩ := claimTree_eq_built_iff.mp hbuilt
  refine ⟨List.ne_nil_of_length_pos (by omega), rfl, fun leaf hleaf => ?_⟩
  refine SortedMap.find?_ofList_of_mem ?_ (List.mem_map_of_mem hleaf)
  simpa [Function.comp_def] using l.nodup_leaf_addresses

/-- A proof of any length against the root of a ledger's tree proves a balance that the tree has,
unless it exhibits a collision with what was hashed for the tree. -/
theorem verified_claim_has_leaf {h : Digest} {l : Ledger} {tree : ClaimTree}
    (hbuilt : l.claimTree h = .built tree) {address : Address} {balance : Wei} {proof : List Hash}
    (hfree : CollisionFree h (l.claimStrings h ++ leafString address balance ::
      proofStrings h (Merkle.leafHash h address balance) proof))
    (hverify : Merkle.verify h proof tree.root (Merkle.leafHash h address balance) = true) :
    tree.leaves.find? address = some ⟨address, balance⟩ := by
  obtain ⟨hne, hroot, hleaves⟩ := claimTree_eq_built hbuilt
  rw [hroot] at hverify
  have hlike : Merkle.LeafLike (l.claimStrings h ++ leafString address balance ::
      proofStrings h (Merkle.leafHash h address balance) proof) (leafString address balance) :=
    ⟨by simp, Merkle.length_leafString address balance⟩
  have hmem : h (leafString address balance) ∈ l.leaves.map (Leaf.hash h) := by
    refine Merkle.leaf_mem_of_verify hfree hlike ?_ (by simpa using hne) ?_ ?_ hverify
    · intro x hx
      obtain ⟨leaf, hleaf, rfl⟩ := List.mem_map.mp hx
      refine ⟨leafString leaf.address leaf.balance, ⟨?_, Merkle.length_leafString _ _⟩, rfl⟩
      exact List.mem_append_left _ (List.mem_append_left _ (List.mem_map_of_mem hleaf))
    · exact fun s hs => List.mem_append_left _ (List.mem_append_right _ hs)
    · exact fun s hs => List.mem_append_right _ (List.mem_cons_of_mem _ hs)
  obtain ⟨leaf, hleaf, hhash⟩ := List.mem_map.mp hmem
  have hsame : leafString leaf.address leaf.balance = leafString address balance := by
    refine hfree _ ?_ _ (by simp) hhash
    exact List.mem_append_left _ (List.mem_append_left _ (List.mem_map_of_mem hleaf))
  obtain ⟨rfl, rfl⟩ := Merkle.leafString_injective hsame
  exact hleaves leaf hleaf

end Ledger

/-! One validator and the pool itself have something to claim. -/
namespace TwoLeaves

open Merkle (leafHash leafString pairString)

def account : Address := .fill 0x10

def feeAddress : Address := .fill 0xfe

def ledger : Ledger where
  validators := .insert .empty 0 { Validator.fresh account .zero with accumulated := 7 }
  poolFees := 5
  feePercent := 0
  feeAddress := feeAddress
  eligibility := .activeOnly
  latestSlot := none
  latestBlock := none
  subscriptions := []
  unsubscriptions := []
  donations := []
  poolBlocks := []

def accountHash : Hash :=
  .ofNat 0x2fe132d3de2f4fc0c61e3a34804667ab5fbfef01b5e42a1c864b71426e849ea2

def feeHash : Hash :=
  .ofNat 0x5045530d448c3e286ee37b9f35dfaf5422cf3d2dbb3e812ba8143313932a63e8

def rootHash : Hash :=
  .ofNat 0x1bcd5d29fe4a9d10a71e39990079f05983b26ad59b53f2faa352933e7e6b0cf9

theorem digests :
    Keccak.digest (leafString account 7) = accountHash ∧
      Keccak.digest (leafString feeAddress 5) = feeHash ∧
      Keccak.digest (pairString accountHash feeHash) = rootHash :=
  ⟨by decide +kernel, by decide +kernel, by decide +kernel⟩

theorem levels :
    Merkle.levelsFrom Keccak.digest [accountHash, feeHash] =
      [[accountHash, feeHash], [rootHash]] := by
  simp [Merkle.levelsFrom, Merkle.levelUp, Merkle.pairHash_eq, digests]

theorem leaf_hashes : ledger.leaves.map (Leaf.hash Keccak.digest) = [accountHash, feeHash] := by
  rw [← digests.1, ← digests.2.1]
  rfl

theorem leafHash_account : leafHash Keccak.digest account 7 = accountHash := digests.1

theorem claimStrings_eq :
    ledger.claimStrings Keccak.digest =
      [leafString account 7, leafString feeAddress 5, pairString accountHash feeHash] := by
  unfold Ledger.claimStrings Merkle.treeStrings
  rw [leaf_hashes, levels]
  rfl

theorem collisionFree_strings :
    CollisionFree Keccak.digest (ledger.claimStrings Keccak.digest ++ leafString account 7 ::
      Merkle.proofStrings Keccak.digest (leafHash Keccak.digest account 7) [feeHash]) := by
  have hdigests : (ledger.claimStrings Keccak.digest).map Keccak.digest =
      [accountHash, feeHash, rootHash] := by
    simp only [claimStrings_eq, List.map_cons, List.map_nil, digests]
  refine collisionFree_of_nodup ?_ (hdigests ▸ (by decide :
    [accountHash, feeHash, rootHash].Nodup))
  rw [leafHash_account, claimStrings_eq]
  simp [Merkle.proofStrings]

theorem verified_claim_of_account :
    ∃ tree, ledger.claimTree Keccak.digest = .built tree ∧
      CollisionFree Keccak.digest (ledger.claimStrings Keccak.digest ++ leafString account 7 ::
        Merkle.proofStrings Keccak.digest (leafHash Keccak.digest account 7) [feeHash]) ∧
      Merkle.verify Keccak.digest [feeHash] tree.root (leafHash Keccak.digest account 7) = true ∧
      tree.leaves.find? account = some ⟨account, 7⟩ := by
  obtain ⟨proofs, hbuilt⟩ :=
    Ledger.claimTree_of_two Keccak.digest (l := ledger) (by decide)
  have hverify : Merkle.verify Keccak.digest [feeHash]
      (⟨Merkle.levelsFrom Keccak.digest (ledger.leaves.map (Leaf.hash Keccak.digest))⟩ :
        Merkle.Tree).root (leafHash Keccak.digest account 7) = true := by
    rw [leaf_hashes, levels, leafHash_account]
    simp [Merkle.verify, Merkle.Tree.root, Merkle.pairHash_eq, digests]
  exact ⟨_, hbuilt, collisionFree_strings, hverify,
    Ledger.verified_claim_has_leaf hbuilt collisionFree_strings hverify⟩

end TwoLeaves

end RewardPool
