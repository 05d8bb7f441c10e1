import Mathlib.Data.List.Induction
import Mathlib.Data.List.Nodup
import Mathlib.Data.List.Perm.Subperm
import Mathlib.Data.List.Sort
import RewardPool.SortedMap

/-!
What a sorted map answers after its values were changed, and what a map made of a list answers. The
keys of a map are distinct, and so a list with distinct keys loses nothing in becoming one.
-/
namespace RewardPool.SortedMap

variable {κ α β : Type} [Ranked κ]

theorem rank_eq_iff {j k : κ} : Ranked.rank j = Ranked.rank k ↔ j = k :=
  ⟨Ranked.rank_injective, fun h => h ▸ rfl⟩

theorem lookup_map (k : κ) (f : κ → α → β) (entries : List (κ × α)) :
    lookup k (entries.map fun e => (e.1, f e.1 e.2)) = (lookup k entries).map (f k) := by
  induction entries with
  | nil => rfl
  | cons e rest ih =>
    by_cases hek : Ranked.rank e.1 = Ranked.rank k
    · simp [lookup, rank_eq_iff.mp hek]
    · simpa [lookup, hek] using ih

theorem find?_map (m : SortedMap κ α) (f : κ → α → β) (k : κ) :
    (m.map f).find? k = (m.find? k).map (f k) := lookup_map k f m.entries

theorem find?_modify [DecidableEq κ] (m : SortedMap κ α) (k j : κ) (f : α → α) :
    (m.modify k f).find? j = if j = k then (m.find? j).map f else m.find? j := by
  unfold modify
  rw [find?_map]
  by_cases hjk : j = k
  · simp [hjk]
  · have hrank : Ranked.rank j ≠ Ranked.rank k := mt rank_eq_iff.mp hjk
    simp [hjk, hrank]

@[simp] theorem values_map (m : SortedMap κ α) (f : α → β) :
    (m.map fun _ a => f a).values = m.values.map f := by
  simp [values, map, Function.comp_def]

theorem nodup_keys (m : SortedMap κ α) : m.keys.Nodup := by
  unfold keys
  refine List.pairwise_map.mpr (m.sorted.imp fun {a b} hlt => ?_)
  intro heq
  rw [heq] at hlt
  exact absurd hlt (Nat.lt_irrefl _)

private theorem lookup_eq_some_iff {k : κ} {a : α} {entries : List (κ × α)}
    (hsorted : entries.Pairwise fun a b => Ranked.rank a.1 < Ranked.rank b.1) :
    lookup k entries = some a ↔ (k, a) ∈ entries := by
  induction entries with
  | nil => simp [lookup]
  | cons e rest ih =>
    obtain ⟨j, b⟩ := e
    obtain ⟨hfirst, hrest⟩ := List.pairwise_cons.mp hsorted
    by_cases hjk : Ranked.rank j = Ranked.rank k
    · obtain rfl := rank_eq_iff.mp hjk
      -- the keys behind this one are greater, so the entry is nowhere else
      have hnone : (j, a) ∉ rest := fun hmem => absurd (hfirst _ hmem) (Nat.lt_irrefl _)
      simp [lookup, hnone, eq_comm]
    · have hne : k ≠ j := fun heq => hjk (heq ▸ rfl)
      simp [lookup, hjk, hne, ih hrest]

theorem find?_eq_some_iff {m : SortedMap κ α} {k : κ} {a : α} :
    m.find? k = some a ↔ (k, a) ∈ m.entries := lookup_eq_some_iff m.sorted

/-- A map is told by what it answers. -/
theorem ext_find? {m n : SortedMap κ α} (h : ∀ k, m.find? k = n.find? k) : m = n := by
  have : Std.Irrefl fun a b : κ × α => Ranked.rank a.1 < Ranked.rank b.1 :=
    ⟨fun a => Nat.lt_irrefl _⟩
  have : Std.Antisymm fun a b : κ × α => Ranked.rank a.1 < Ranked.rank b.1 :=
    ⟨fun a b hab hba => absurd (Nat.lt_trans hab hba) (Nat.lt_irrefl _)⟩
  apply ext
  apply List.Pairwise.eq_of_mem_iff m.sorted n.sorted
  rintro ⟨k, a⟩
  rw [← find?_eq_some_iff, ← find?_eq_some_iff, h k]

theorem mem_values_iff {m : SortedMap κ α} {a : α} : a ∈ m.values ↔ ∃ k, m.find? k = some a := by
  simp [values, find?_eq_some_iff]

theorem mem_keys_iff {m : SortedMap κ α} {k : κ} : k ∈ m.keys ↔ ∃ a, m.find? k = some a := by
  simp [keys, find?_eq_some_iff]

/-- A map has no more entries than there are ranks for its keys. -/
theorem size_le_of_rank_lt (m : SortedMap κ α) {bound : Nat}
    (hbound : ∀ k : κ, Ranked.rank k < bound) : m.size ≤ bound := by
  have hnodup : (m.keys.map Ranked.rank).Nodup :=
    m.nodup_keys.map fun j k heq => Ranked.rank_injective heq
  have hrange : m.keys.map Ranked.rank ⊆ List.range bound := by
    intro r hr
    obtain ⟨k, -, rfl⟩ := List.mem_map.mp hr
    exact List.mem_range.mpr (hbound k)
  have hlength := (List.subperm_of_subset hnodup hrange).length_le
  simpa [keys, size] using hlength

private theorem place_last {k : κ} {a : α} {l : List (κ × α)}
    (hlast : ∀ e ∈ l, Ranked.rank e.1 < Ranked.rank k) : place k a l = l ++ [(k, a)] := by
  induction l with
  | nil => rfl
  | cons e rest ih =>
    have hfirst := hlast e List.mem_cons_self
    have hrest := ih fun e' he' => hlast e' (List.mem_cons_of_mem _ he')
    unfold place
    rw [if_neg (by omega), if_neg (by omega), hrest, List.cons_append]

/-- A list that is in the order of its keys is the map made of it. -/
theorem entries_ofList {entries : List (κ × α)}
    (hsorted : entries.Pairwise fun a b => Ranked.rank a.1 < Ranked.rank b.1) :
    (ofList entries).entries = entries := by
  induction entries using List.reverseRecOn with
  | nil => rfl
  | append_singleton first e ih =>
    obtain ⟨hfirst, -, hlast⟩ := List.pairwise_append.mp hsorted
    have hplace : (ofList (first ++ [e])).entries = place e.1 e.2 (ofList first).entries := by
      simp [ofList, insert]
    rw [hplace, ih hfirst]
    exact place_last fun e' he' => hlast e' he' e (List.mem_singleton_self e)

theorem keys_ofList {entries : List (κ × α)}
    (hsorted : (entries.map (·.1)).Pairwise fun j k => Ranked.rank j < Ranked.rank k) :
    (ofList entries).keys = entries.map (·.1) := by
  rw [List.pairwise_map] at hsorted
  unfold keys
  rw [entries_ofList hsorted]

section OfList

variable [DecidableEq κ]

theorem find?_foldl_insert_of_notMem {entries : List (κ × α)} {k : κ}
    (hk : k ∉ entries.map (·.1)) (m : SortedMap κ α) :
    (entries.foldl (fun m e => m.insert e.1 e.2) m).find? k = m.find? k := by
  induction entries generalizing m with
  | nil => rfl
  | cons e rest ih =>
    rw [List.map_cons, List.mem_cons, not_or] at hk
    rw [List.foldl_cons, ih hk.2, find?_insert, if_neg (Ne.symm hk.1)]

theorem find?_foldl_insert_of_mem {entries : List (κ × α)} (hkeys : (entries.map (·.1)).Nodup)
    {k : κ} {a : α} (h : (k, a) ∈ entries) (m : SortedMap κ α) :
    (entries.foldl (fun m e => m.insert e.1 e.2) m).find? k = some a := by
  induction entries generalizing m with
  | nil => simp at h
  | cons e rest ih =>
    rw [List.map_cons, List.nodup_cons] at hkeys
    rw [List.foldl_cons]
    rcases List.mem_cons.mp h with rfl | h
    · rw [find?_foldl_insert_of_notMem hkeys.1, find?_insert, if_pos rfl]
    · exact ih hkeys.2 h _

theorem find?_ofList_of_mem {entries : List (κ × α)} (hkeys : (entries.map (·.1)).Nodup) {k : κ}
    {a : α} (h : (k, a) ∈ entries) : (ofList entries).find? k = some a :=
  find?_foldl_insert_of_mem hkeys h empty

end OfList

end RewardPool.SortedMap
