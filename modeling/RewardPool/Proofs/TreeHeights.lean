import Mathlib.Data.Nat.Log
import RewardPool.Keccak
import RewardPool.Proofs.ProofPaths

/-!
How high a tree is. A level has half as many nodes as the one below it, rounded up, so there are as
many levels above the leaves as their number can be halved in this way before one is left. A proof
takes one sibling from each level below the root at most. Every leaf of a tree of any size then has a
proof, which is no longer than the logarithm of the number of leaves, and it leads to the root under
any hash function.
-/
namespace RewardPool

namespace Merkle

theorem length_levelUp (h : Digest) (level : List Hash) :
    (levelUp h level).length = (level.length + 1) / 2 := by
  fun_induction levelUp h level with
  | case1 a b rest ih =>
    simp only [List.length_cons]
    omega
  | case2 a => simp
  | case3 => simp

/-- Above the leaves there are as many levels as the logarithm of their number says. -/
theorem length_levelsFrom (h : Digest) (level : List Hash) :
    (levelsFrom h level).length = Nat.clog 2 level.length + 1 := by
  fun_induction levelsFrom h level with
  | case1 level hsingle => simp [Nat.clog_of_right_le_one hsingle]
  | case2 level hmany ih =>
    have hhalved : Nat.clog 2 level.length = Nat.clog 2 ((level.length + 1) / 2) + 1 :=
      Nat.clog_of_two_le (by omega) (by omega)
    rw [List.length_cons, ih, length_levelUp, hhalved]

theorem length_siblings_lt {levels : List (List Hash)} (hne : levels ≠ []) (i : Nat) :
    (siblings levels i).length < levels.length := by
  fun_induction siblings levels i with
  | case1 => exact absurd rfl hne
  | case2 => simp
  | case3 level rest i hrest ih =>
    have hone : (level[sibling i]?.toList).length ≤ 1 := by
      cases level[sibling i]? <;> simp
    have hrec := ih hrest
    rw [List.length_append, List.length_cons]
    omega

/-- Whatever the hash function is, a tree over some leaves proves each of them to its root, by no more
siblings than the logarithm of their number, and it has no proof for any other position. -/
theorem tree_proves_its_leaves (h : Digest) {leaves : List Hash} (hne : leaves ≠ []) :
    ∃ t, Tree.ofLeaves? h leaves = some t ∧ t.leaves = leaves ∧
      (∀ i (hi : i < leaves.length), ∃ proof, t.proof? i = some proof ∧
        verify h proof t.root leaves[i] = true ∧ proof.length ≤ Nat.clog 2 leaves.length) ∧
      ∀ i, leaves.length ≤ i → t.proof? i = none := by
  have htree : Tree.ofLeaves? h leaves = some ⟨levelsFrom h leaves⟩ := by
    simp [Tree.ofLeaves?, hne]
  have hleaves := leaves_levelsFrom h leaves
  refine ⟨_, htree, hleaves, fun i hi => ?_, fun i hi => ?_⟩
  · have hlength := length_siblings_lt (levelsFrom_ne_nil h leaves) i
    rw [length_levelsFrom] at hlength
    refine ⟨siblings (levelsFrom h leaves) i, ?_, ?_, Nat.le_of_lt_succ hlength⟩
    · rw [Tree.proof?, hleaves, if_pos hi]
    · exact verify_siblings (List.getElem?_eq_getElem hi)
  · rw [Tree.proof?, hleaves, if_neg (Nat.not_lt.mpr hi)]

end Merkle

/-! Of five leaves the last one is promoted twice, and two of the others are the same. -/
namespace FiveLeaves

def leaves : List Hash := [.fill 3, .fill 1, .fill 3, .fill 2, .fill 9]

theorem promoted_leaf_is_proved :
    leaves ≠ [] ∧ ∃ t proof, Merkle.Tree.ofLeaves? Keccak.digest leaves = some t ∧
      t.proof? 4 = some proof ∧ Merkle.verify Keccak.digest proof t.root (.fill 9) = true ∧
      proof.length ≤ 3 ∧ t.proof? 5 = none := by
  have hne : leaves ≠ [] := List.cons_ne_nil _ _
  have hheight : Nat.clog 2 leaves.length = 3 := by decide
  obtain ⟨t, htree, -, hproofs, hnone⟩ := Merkle.tree_proves_its_leaves Keccak.digest hne
  obtain ⟨proof, hproof, hverify, hlength⟩ := hproofs 4 (by decide)
  rw [hheight] at hlength
  exact ⟨hne, t, proof, htree, hproof, hverify, hlength, hnone 5 (by decide)⟩

end FiveLeaves

end RewardPool
