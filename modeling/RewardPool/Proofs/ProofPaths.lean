import Mathlib.Data.BitVec
import RewardPool.Merkle

/-!
The way up from a leaf. One level up, the node above a position is the hash of the node there and of
its sibling, or the node itself if it has none, and it does not matter which of the two is named
first. So the siblings of a position, hashed in their order, lead from its leaf to the root, for
trees of any size and for any hash function.
-/
namespace RewardPool.Merkle

variable {h : Digest} {level : List Hash} {i : Nat} {x : Hash}

theorem levelsFrom_ne_nil (h : Digest) (level : List Hash) : levelsFrom h level ≠ [] := by
  unfold levelsFrom
  split <;> simp

theorem leaves_levelsFrom (h : Digest) (level : List Hash) :
    (⟨levelsFrom h level⟩ : Tree).leaves = level := by
  unfold levelsFrom Tree.leaves
  split <;> rfl

theorem root_cons {levels : List (List Hash)} (hne : levels ≠ []) (level : List Hash) :
    (⟨level :: levels⟩ : Tree).root = (⟨levels⟩ : Tree).root := by
  unfold Tree.root
  rw [List.getLast?_cons_of_ne_nil hne]

theorem siblings_cons {levels : List (List Hash)} (hne : levels ≠ []) (level : List Hash)
    (i : Nat) :
    siblings (level :: levels) i = level[sibling i]?.toList ++ siblings levels (i / 2) := by
  obtain ⟨next, rest, rfl⟩ := List.exists_cons_of_ne_nil hne
  rfl

theorem pairHash_comm (h : Digest) (a b : Hash) : pairHash h a b = pairHash h b a := by
  unfold pairHash
  by_cases hab : a.bits ≤ b.bits
  · by_cases hba : b.bits ≤ a.bits
    · have hbits : a.bits = b.bits := BitVec.le_antisymm hab hba
      have heq : a = b := congrArg FixedBytes.mk hbits
      rw [heq]
    · rw [if_pos hab, if_neg hba]
  · have hba : b.bits ≤ a.bits := BitVec.le_of_lt (BitVec.not_le.mp hab)
    rw [if_neg hab, if_pos hba]

theorem sibling_add_two (i : Nat) : sibling (i + 2) = sibling i + 2 := by
  have hmod : (i + 2) % 2 = i % 2 := Nat.add_mod_right i 2
  unfold sibling
  rw [hmod]
  split
  · rfl
  · omega

/-- The node above a position: its own node, hashed with its sibling if there is one. -/
theorem getElem?_levelUp (hx : level[i]? = some x) :
    (levelUp h level)[i / 2]? = some (level[sibling i]?.toList.foldl (pairHash h) x) := by
  fun_induction levelUp h level generalizing i with
  | case1 a b rest ih =>
    rcases i with _ | _ | i
    · obtain rfl : a = x := by simpa using hx
      rfl
    · obtain rfl : b = x := by simpa using hx
      have hcomm := pairHash_comm h a b
      simpa [sibling] using hcomm
    · have habove : (i + 2) / 2 = i / 2 + 1 := by omega
      have hrest := ih (i := i) (by simpa using hx)
      rw [habove, sibling_add_two]
      simpa using hrest
  | case2 a =>
    -- the last node of an odd level has no sibling and stands for itself
    obtain ⟨rfl, rfl⟩ : i = 0 ∧ a = x := by
      cases i with
      | zero => simpa using hx
      | succ i => simp at hx
    rfl
  | case3 => simp at hx

/-- The siblings on the way up lead from any node of a level to the root above it. -/
theorem foldl_siblings (hx : level[i]? = some x) :
    (siblings (levelsFrom h level) i).foldl (pairHash h) x =
      (⟨levelsFrom h level⟩ : Tree).root := by
  fun_induction levelsFrom h level generalizing i x with
  | case1 level hsingle =>
    obtain ⟨hi, -⟩ := List.getElem?_eq_some_iff.mp hx
    obtain rfl : i = 0 := by omega
    rw [← List.head?_eq_getElem?] at hx
    simp [siblings, Tree.root, hx]
  | case2 level hmany ih =>
    have habove := ih (getElem?_levelUp (h := h) hx)
    have hne := levelsFrom_ne_nil h (levelUp h level)
    rw [siblings_cons hne, List.foldl_append, habove, root_cons hne]

/-- The siblings of a leaf are a proof for it. -/
theorem verify_siblings (hx : level[i]? = some x) :
    verify h (siblings (levelsFrom h level) i) (⟨levelsFrom h level⟩ : Tree).root x = true :=
  decide_eq_true (foldl_siblings hx)

end RewardPool.Merkle
