import RewardPool.Bytes

/-!
Binary hash trees whose sibling pairs are hashed in ascending order. A node without a sibling is
promoted to the next level as it is, so its proof skips that level. The hash function is a
parameter: nothing in the construction looks inside it.
-/
namespace RewardPool.Merkle

abbrev Digest := List UInt8 → Hash

/-- The leaf of an address: its bytes and then those of its balance, hashed together. -/
def leafHash (h : Digest) (address : Address) (balance : Wei) : Hash :=
  h (address.toBytes ++ Wei.toBytes balance)

/-- The parent of two siblings, the smaller one first. -/
def pairHash (h : Digest) (a b : Hash) : Hash :=
  if a.bits ≤ b.bits then h (a.toBytes ++ b.toBytes) else h (b.toBytes ++ a.toBytes)

def levelUp (h : Digest) : List Hash → List Hash
  | a :: b :: rest => pairHash h a b :: levelUp h rest
  | [a] => [a]
  | [] => []

theorem levelUp_length_le (h : Digest) (level : List Hash) :
    2 * (levelUp h level).length ≤ level.length + 1 := by
  fun_induction levelUp h level with
  | case1 a b rest ih =>
    simp only [List.length_cons]
    omega
  | case2 a => simp
  | case3 => simp

/-- A level and all levels above it, up to the one with a single node. -/
def levelsFrom (h : Digest) (level : List Hash) : List (List Hash) :=
  if level.length ≤ 1 then [level] else level :: levelsFrom h (levelUp h level)
termination_by level.length
decreasing_by
  have := levelUp_length_le h level
  omega

/-- A tree as its levels, the leaves first. -/
structure Tree where
  levels : List (List Hash)
deriving DecidableEq

def sibling (i : Nat) : Nat := if i % 2 = 0 then i + 1 else i - 1

/-- The siblings on the way from a position up to the last level. -/
def siblings : List (List Hash) → Nat → List Hash
  | [], _ => []
  | [_], _ => []
  | level :: rest, i => level[sibling i]?.toList ++ siblings rest (i / 2)

namespace Tree

def ofLeaves? (h : Digest) (leaves : List Hash) : Option Tree :=
  if leaves.isEmpty then none else some ⟨levelsFrom h leaves⟩

def leaves (t : Tree) : List Hash := t.levels.headD []

def root (t : Tree) : Hash := ((t.levels.getLast?.bind (·.head?))).getD .zero

def proof? (t : Tree) (i : Nat) : Option (List Hash) :=
  if i < t.leaves.length then some (siblings t.levels i) else none

end Tree

/-- Follows a proof from a leaf and compares where it ends with the root. -/
def verify (h : Digest) (proof : List Hash) (root leaf : Hash) : Bool :=
  proof.foldl (pairHash h) leaf = root

end RewardPool.Merkle
