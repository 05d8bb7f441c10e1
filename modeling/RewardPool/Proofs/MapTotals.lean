import Mathlib.Algebra.BigOperators.Group.List.Basic
import Mathlib.Algebra.Order.BigOperators.Group.Finset
import Mathlib.Algebra.Order.BigOperators.Group.List
import Mathlib.Data.BitVec
import Mathlib.Tactic.Abel
import RewardPool.Proofs.MapEntries

/-!
Sums over the values of a sorted map. Each key occurs once, so a change of one value moves a sum by
the difference of that value alone, and an entry under a new key adds just its own. The sums are
taken in any commutative monoid: wrapping amounts and plain numbers are both instances.
-/
namespace RewardPool.SortedMap

variable {κ α β : Type} [Ranked κ]

variable {M : Type} [AddCommMonoid M]

/-- The sum of a quantity over all values. -/
def total (m : SortedMap κ α) (g : α → M) : M := (m.values.map g).sum

@[simp] theorem total_empty (g : α → M) : (empty : SortedMap κ α).total g = 0 := rfl

theorem total_map (m : SortedMap κ α) (f : α → β) (g : β → M) :
    (m.map fun _ a => f a).total g = m.total fun a => g (f a) := by
  simp [total, Function.comp_def]

theorem total_add (m : SortedMap κ α) (g g' : α → M) :
    (m.total fun a => g a + g' a) = m.total g + m.total g' := by
  simp [total, List.sum_map_add]

/-- An amount given to the values that pass a test is counted once for each of them. -/
theorem total_ite (m : SortedMap κ α) (p : α → Bool) (d : M) :
    (m.total fun a => if p a then d else 0) = m.values.countP p • d := by
  unfold total
  induction m.values with
  | nil => simp
  | cons a rest ih =>
    cases hp : p a
    · simpa [hp] using ih
    · simp [hp, ih, succ_nsmul']

private theorem sum_modified (k : κ) (f : α → α) (g : α → M) {a : α} {entries : List (κ × α)}
    (hsorted : entries.Pairwise fun a b => Ranked.rank a.1 < Ranked.rank b.1)
    (ha : lookup k entries = some a) :
    (entries.map fun e => g (if Ranked.rank e.1 = Ranked.rank k then f e.2 else e.2)).sum + g a =
      (entries.map fun e => g e.2).sum + g (f a) := by
  induction entries with
  | nil => simp [lookup] at ha
  | cons e rest ih =>
    obtain ⟨hfirst, hrest⟩ := List.pairwise_cons.mp hsorted
    by_cases hek : Ranked.rank e.1 = Ranked.rank k
    · obtain rfl : e.2 = a := by simpa [lookup, hek] using ha
      -- the keys behind this one are greater, so no other value is changed
      have hkeep : ∀ e' ∈ rest,
          g (if Ranked.rank e'.1 = Ranked.rank k then f e'.2 else e'.2) = g e'.2 := by
        intro e' he'
        have hlt := hfirst e' he'
        rw [if_neg (by omega)]
      rw [List.map_cons, List.map_congr_left hkeep]
      simp only [List.map_cons, List.sum_cons, hek, if_true]
      abel
    · have hstep := ih hrest (by simpa [lookup, hek] using ha)
      simp only [List.map_cons, List.sum_cons, hek, if_false, add_assoc, hstep]

/-- Changing one value moves the sum from what the value counted for to what it counts for now. -/
theorem total_modify (m : SortedMap κ α) (k : κ) (f : α → α) (g : α → M) {a : α}
    (ha : m.find? k = some a) : (m.modify k f).total g + g a = m.total g + g (f a) := by
  simpa only [total, values, modify, map, List.map_map, Function.comp_def]
    using sum_modified k f g m.sorted ha

/-- A change that leaves the quantity of every value alone leaves the sum alone. -/
theorem total_modify_of_eq (m : SortedMap κ α) (k : κ) {f : α → α} {g : α → M}
    (hf : ∀ a, g (f a) = g a) : (m.modify k f).total g = m.total g := by
  have hkeep : ∀ e : κ × α, g (if Ranked.rank e.1 = Ranked.rank k then f e.2 else e.2) = g e.2 := by
    intro e
    split
    · exact hf e.2
    · rfl
  simp only [total, values, modify, map, List.map_map, Function.comp_def, hkeep]

private theorem sum_placed (k : κ) (a : α) (g : α → M) {entries : List (κ × α)}
    (hk : lookup k entries = none) :
    ((place k a entries).map fun e => g e.2).sum = (entries.map fun e => g e.2).sum + g a := by
  induction entries with
  | nil => simp [place]
  | cons e rest ih =>
    by_cases hek : Ranked.rank e.1 = Ranked.rank k
    · simp [lookup, hek] at hk
    · have hstep := ih (by simpa [lookup, hek] using hk)
      unfold place
      split
      · simp only [List.map_cons, List.sum_cons]
        abel
      · rw [if_neg (Ne.symm hek), List.map_cons, List.sum_cons, hstep, List.map_cons, List.sum_cons,
          add_assoc]

/-- An entry under a key that was not there adds what it counts for. -/
theorem total_insert (m : SortedMap κ α) (k : κ) (a : α) (g : α → M) (hk : m.find? k = none) :
    (m.insert k a).total g = m.total g + g a := by
  simpa only [total, values, insert, List.map_map, Function.comp_def] using sum_placed k a g hk

private theorem sum_replaced (k : κ) (a : α) (g : α → M) {b : α} {entries : List (κ × α)}
    (hsorted : entries.Pairwise fun a b => Ranked.rank a.1 < Ranked.rank b.1)
    (hb : lookup k entries = some b) :
    ((place k a entries).map fun e => g e.2).sum + g b = (entries.map fun e => g e.2).sum + g a := by
  induction entries with
  | nil => simp [lookup] at hb
  | cons e rest ih =>
    obtain ⟨hfirst, hrest⟩ := List.pairwise_cons.mp hsorted
    by_cases hek : Ranked.rank e.1 = Ranked.rank k
    · obtain rfl : e.2 = b := by simpa [lookup, hek] using hb
      unfold place
      rw [if_neg (by omega), if_pos hek.symm]
      simp only [List.map_cons, List.sum_cons]
      abel
    · have hb' : lookup k rest = some b := by simpa [lookup, hek] using hb
      -- the key is further on, so it comes after the first one
      have hlt : Ranked.rank e.1 < Ranked.rank k := hfirst (k, b)
        ((find?_eq_some_iff (m := ⟨rest, hrest⟩)).mp hb')
      have hstep := ih hrest hb'
      unfold place
      rw [if_neg (by omega), if_neg (by omega), List.map_cons, List.sum_cons, List.map_cons,
        List.sum_cons, add_assoc, hstep, add_assoc]

/-- An entry under a key that was there replaces what that one counted for. -/
theorem total_insert_of_some (m : SortedMap κ α) (k : κ) (a : α) (g : α → M) {b : α}
    (hb : m.find? k = some b) : (m.insert k a).total g + g b = m.total g + g a := by
  simpa only [total, values, insert, List.map_map, Function.comp_def]
    using sum_replaced k a g m.sorted hb

theorem total_congr {m : SortedMap κ α} {g g' : α → M} (h : ∀ a ∈ m.values, g a = g' a) :
    m.total g = m.total g' :=
  congrArg List.sum (List.map_congr_left h)

/-- The sum as one over the keys. -/
theorem total_eq_sum_keys [DecidableEq κ] (m : SortedMap κ α) (g : α → M) :
    m.total g = ∑ k ∈ m.keys.toFinset, ((m.find? k).map g).getD 0 := by
  rw [List.sum_toFinset _ m.nodup_keys]
  unfold total values keys
  rw [List.map_map, List.map_map]
  refine congrArg List.sum (List.map_congr_left fun e he => ?_)
  have hfound : m.find? e.1 = some e.2 := find?_eq_some_iff.mpr he
  simp [hfound]

theorem le_total {m : SortedMap κ α} (g : α → Nat) {a : α} (ha : a ∈ m.values) :
    g a ≤ m.total g :=
  List.le_sum_of_mem (List.mem_map_of_mem ha)

/-- If every entry of one map is found in the other and counts for no less there, so does the sum. -/
theorem total_le_total [DecidableEq κ] {m n : SortedMap κ α} {g g' : α → Nat}
    (h : ∀ k a, m.find? k = some a → ∃ b, n.find? k = some b ∧ g a ≤ g' b) :
    m.total g ≤ n.total g' := by
  have hkeys : m.keys.toFinset ⊆ n.keys.toFinset := by
    intro k hk
    obtain ⟨a, ha⟩ := mem_keys_iff.mp (List.mem_toFinset.mp hk)
    obtain ⟨b, hb, -⟩ := h k a ha
    exact List.mem_toFinset.mpr (mem_keys_iff.mpr ⟨b, hb⟩)
  have hcounts : ∀ k ∈ m.keys.toFinset,
      ((m.find? k).map g).getD 0 ≤ ((n.find? k).map g').getD 0 := by
    intro k hk
    obtain ⟨a, ha⟩ := mem_keys_iff.mp (List.mem_toFinset.mp hk)
    obtain ⟨b, hb, hle⟩ := h k a ha
    simpa [ha, hb] using hle
  calc m.total g = ∑ k ∈ m.keys.toFinset, ((m.find? k).map g).getD 0 := total_eq_sum_keys m g
    _ ≤ ∑ k ∈ m.keys.toFinset, ((n.find? k).map g').getD 0 := Finset.sum_le_sum hcounts
    _ ≤ ∑ k ∈ n.keys.toFinset, ((n.find? k).map g').getD 0 := Finset.sum_le_sum_of_subset hkeys
    _ = n.total g' := (total_eq_sum_keys n g').symm

/-- A sum of amounts that fits into an amount is the sum of the numbers. -/
theorem toNat_total {width : Nat} (m : SortedMap κ α) (g : α → BitVec width)
    (hfits : m.total (fun a => (g a).toNat) < 2 ^ width) :
    (m.total g).toNat = m.total fun a => (g a).toNat := by
  unfold total at hfits ⊢
  generalize m.values = amounts at hfits ⊢
  induction amounts with
  | nil => simp
  | cons a rest ih =>
    rw [List.map_cons, List.sum_cons] at hfits ⊢
    have hrest := ih (by omega)
    rw [BitVec.toNat_add, hrest, List.map_cons, List.sum_cons]
    exact Nat.mod_eq_of_lt hfits

end RewardPool.SortedMap
