/-!
Finite maps kept as lists of entries in strictly increasing key order. The order of a key is the
order of a number of its own, so two maps with the same entries are the same map and listing one
needs no choice of order. Main statements: inserting and looking up agree, and inserting keeps the
order.
-/
namespace RewardPool

/-- Keys compared through a number that tells any two of them apart. -/
class Ranked (κ : Type) where
  rank : κ → Nat
  rank_injective : ∀ {a b : κ}, rank a = rank b → a = b

instance : Ranked UInt64 where
  rank := UInt64.toNat
  rank_injective h := UInt64.toNat_inj.mp h

/-- Entries in strictly increasing order of their keys. -/
structure SortedMap (κ α : Type) [Ranked κ] where
  entries : List (κ × α)
  sorted : entries.Pairwise fun a b => Ranked.rank a.1 < Ranked.rank b.1

namespace SortedMap

variable {κ α β : Type} [Ranked κ]

def lookup (k : κ) : List (κ × α) → Option α
  | [] => none
  | (j, a) :: rest => if Ranked.rank j = Ranked.rank k then some a else lookup k rest

/-- Puts an entry at its place in the order; an entry with the same key gives way. -/
def place (k : κ) (a : α) : List (κ × α) → List (κ × α)
  | [] => [(k, a)]
  | (j, b) :: rest =>
    if Ranked.rank k < Ranked.rank j then (k, a) :: (j, b) :: rest
    else if Ranked.rank k = Ranked.rank j then (k, a) :: rest
    else (j, b) :: place k a rest

theorem mem_place {k : κ} {a : α} {e : κ × α} {l : List (κ × α)} (h : e ∈ place k a l) :
    e = (k, a) ∨ e ∈ l := by
  induction l with
  | nil => simpa [place] using h
  | cons hd tl ih =>
    obtain ⟨j, b⟩ := hd
    unfold place at h
    split at h
    · simpa using h
    · split at h
      · rcases List.mem_cons.mp h with h | h
        · exact .inl h
        · exact .inr (List.mem_cons_of_mem _ h)
      · rcases List.mem_cons.mp h with h | h
        · exact .inr (h ▸ List.mem_cons_self)
        · rcases ih h with h | h
          · exact .inl h
          · exact .inr (List.mem_cons_of_mem _ h)

theorem place_sorted (k : κ) (a : α) {l : List (κ × α)}
    (h : l.Pairwise fun a b => Ranked.rank a.1 < Ranked.rank b.1) :
    (place k a l).Pairwise fun a b => Ranked.rank a.1 < Ranked.rank b.1 := by
  induction l with
  | nil => simp [place]
  | cons hd tl ih =>
    obtain ⟨j, b⟩ := hd
    obtain ⟨hall, htl⟩ := List.pairwise_cons.mp h
    unfold place
    split
    · rename_i hlt
      refine List.pairwise_cons.mpr ⟨?_, h⟩
      intro e he
      rcases List.mem_cons.mp he with rfl | he
      · exact hlt
      · exact Nat.lt_trans hlt (hall e he)
    · split
      · rename_i heq
        refine List.pairwise_cons.mpr ⟨?_, htl⟩
        intro e he
        have := hall e he
        simpa [heq] using this
      · rename_i hnlt hne
        refine List.pairwise_cons.mpr ⟨?_, ih htl⟩
        intro e he
        rcases mem_place he with rfl | he
        · show Ranked.rank j < Ranked.rank k
          omega
        · exact hall e he

def empty : SortedMap κ α := ⟨[], .nil⟩

def insert (m : SortedMap κ α) (k : κ) (a : α) : SortedMap κ α :=
  ⟨place k a m.entries, place_sorted k a m.sorted⟩

def find? (m : SortedMap κ α) (k : κ) : Option α := lookup k m.entries

def contains (m : SortedMap κ α) (k : κ) : Bool := (m.find? k).isSome

def keys (m : SortedMap κ α) : List κ := m.entries.map (·.1)

def values (m : SortedMap κ α) : List α := m.entries.map (·.2)

def size (m : SortedMap κ α) : Nat := m.entries.length

/-- Changes every value with a function that may look at the key. -/
def map (f : κ → α → β) (m : SortedMap κ α) : SortedMap κ β :=
  ⟨m.entries.map fun e => (e.1, f e.1 e.2), by
    rw [List.pairwise_map]
    exact m.sorted⟩

/-- Changes the value of one key, if the map has it. -/
def modify (m : SortedMap κ α) (k : κ) (f : α → α) : SortedMap κ α :=
  m.map fun j a => if Ranked.rank j = Ranked.rank k then f a else a

/-- Of several entries with one key the last counts. -/
def ofList (l : List (κ × α)) : SortedMap κ α :=
  l.foldl (fun m e => m.insert e.1 e.2) empty

theorem ext {m n : SortedMap κ α} (h : m.entries = n.entries) : m = n := by
  cases m
  cases n
  cases h
  rfl

theorem lookup_place (k j : κ) (a : α) (l : List (κ × α)) :
    lookup j (place k a l) = if Ranked.rank k = Ranked.rank j then some a else lookup j l := by
  induction l with
  | nil => simp [place, lookup]
  | cons hd tl ih =>
    obtain ⟨i, b⟩ := hd
    unfold place
    split
    · simp [lookup]
    · split
      · rename_i heq
        by_cases hj : Ranked.rank k = Ranked.rank j <;> simp [lookup, ← heq, hj]
      · rename_i hne
        by_cases hj : Ranked.rank k = Ranked.rank j
        · have : Ranked.rank i ≠ Ranked.rank j := by omega
          simp [lookup, this, ih, hj]
        · simp [lookup, ih, hj]

theorem find?_insert [DecidableEq κ] (m : SortedMap κ α) (k j : κ) (a : α) :
    (m.insert k a).find? j = if k = j then some a else m.find? j := by
  have h : (Ranked.rank k = Ranked.rank j) ↔ k = j :=
    ⟨Ranked.rank_injective, fun h => h ▸ rfl⟩
  simp only [find?, insert, lookup_place]
  by_cases hk : k = j
  · simp [hk]
  · simp [hk, mt h.mp hk]

@[simp] theorem find?_empty (k : κ) : (empty : SortedMap κ α).find? k = none := rfl

end SortedMap

end RewardPool
