import RewardPool.Checkpoint
import RewardPool.Proofs.MapTotals

/-!
What a ledger pays to whom. Several validators may be paid at one address, and the fees of the pool
at one of theirs; an address then has one leaf with all of it. So a balance is a sum over the
validators, and the leaves together are all that was accumulated and the fees.
-/
namespace RewardPool.Ledger

variable {l : Ledger} {a : Address}

/-- Amounts with the address that each of them goes to. -/
def payments (l : Ledger) : List (Address × Wei) :=
  l.validators.values.map (fun v => (v.withdrawalAddress, v.accumulated)) ++
    [(l.feeAddress, l.poolFees)]

/-- What an address is owed: the accumulated balances of its validators, and the fees if it is the
fee address. -/
def owed (l : Ledger) (a : Address) : Wei :=
  (l.validators.total fun v => if v.withdrawalAddress = a then v.accumulated else 0) +
    if l.feeAddress = a then l.poolFees else 0

theorem balances_eq_foldl (l : Ledger) :
    l.balances = l.payments.foldl (fun m p => addBalance m p.1 p.2) .empty := by
  rw [payments, List.foldl_append, List.foldl_map]
  rfl

theorem find?_addBalance (m : SortedMap Address Wei) (a b : Address) (amount : Wei) :
    (addBalance m a amount).find? b =
      if a = b then some ((m.find? a).getD 0 + amount) else m.find? b :=
  m.find?_insert a b _

/-- What some payments bring to an address. -/
def paidTo (payments : List (Address × Wei)) (a : Address) : Wei :=
  (payments.map fun p => if p.1 = a then p.2 else 0).sum

theorem paidTo_cons (p : Address × Wei) (rest : List (Address × Wei)) (a : Address) :
    paidTo (p :: rest) a = (if p.1 = a then p.2 else 0) + paidTo rest a :=
  rfl

theorem paidTo_of_notMem {payments : List (Address × Wei)} (ha : a ∉ payments.map (·.1)) :
    paidTo payments a = 0 := by
  refine List.sum_eq_zero fun x hx => ?_
  obtain ⟨p, hp, rfl⟩ := List.mem_map.mp hx
  have hne : p.1 ≠ a := fun heq => ha (heq ▸ List.mem_map_of_mem hp)
  exact if_neg hne

/-- After some payments an address has what it had before and what they brought to it. -/
theorem find?_foldl_addBalance (payments : List (Address × Wei)) (m : SortedMap Address Wei)
    (a : Address) :
    (payments.foldl (fun m p => addBalance m p.1 p.2) m).find? a =
      if a ∈ payments.map (·.1) then some ((m.find? a).getD 0 + paidTo payments a)
      else m.find? a := by
  induction payments generalizing m with
  | nil => simp
  | cons p rest ih =>
    have hpaid : a ∈ (p :: rest).map (·.1) ↔ p.1 = a ∨ a ∈ rest.map (·.1) := by simp [eq_comm]
    simp only [List.foldl_cons, ih, find?_addBalance, paidTo_cons, hpaid]
    by_cases hpa : p.1 = a
    · subst hpa
      -- if nothing more comes to this address, the sum behind it is zero
      by_cases hlater : p.1 ∈ rest.map (·.1)
      · simp [hlater, add_assoc]
      · simp only [hlater, if_true, if_false, or_false, paidTo_of_notMem hlater, add_zero]
    · simp [hpa]

theorem paidTo_payments (l : Ledger) (a : Address) : paidTo l.payments a = l.owed a := by
  unfold paidTo payments owed SortedMap.total
  simp [Function.comp_def]

/-- Each address that is paid has a balance, and it is what the address is owed. -/
theorem find?_balances (l : Ledger) (a : Address) :
    l.balances.find? a = if a ∈ l.payments.map (·.1) then some (l.owed a) else none := by
  rw [balances_eq_foldl, find?_foldl_addBalance, paidTo_payments, SortedMap.find?_empty,
    Option.getD_none, zero_add]

theorem mem_payees_iff :
    a ∈ l.payments.map (·.1) ↔
      (∃ i v, l.find? i = some v ∧ v.withdrawalAddress = a) ∨ l.feeAddress = a := by
  have hvalidators : (∃ v ∈ l.validators.values, v.withdrawalAddress = a) ↔
      ∃ i v, l.find? i = some v ∧ v.withdrawalAddress = a := by
    constructor
    · rintro ⟨v, hv, hva⟩
      obtain ⟨i, hi⟩ := SortedMap.mem_values_iff.mp hv
      exact ⟨i, v, hi, hva⟩
    · rintro ⟨i, v, hi, hva⟩
      exact ⟨v, SortedMap.mem_values_iff.mpr ⟨i, hi⟩, hva⟩
  rw [← hvalidators]
  simp [payments, eq_comm]

/-- What an address is owed as a plain number, as far as all that is owed fits into a word. -/
theorem toNat_owed
    (hfits : l.validators.total (·.accumulated.toNat) + l.poolFees.toNat < 2 ^ 256) :
    (l.owed a).toNat =
      (l.validators.total fun v => if v.withdrawalAddress = a then v.accumulated.toNat else 0) +
        if l.feeAddress = a then l.poolFees.toNat else 0 := by
  have hpart : ∀ v : Validator, (if v.withdrawalAddress = a then v.accumulated else 0).toNat =
      if v.withdrawalAddress = a then v.accumulated.toNat else 0 := by
    intro v
    split <;> rfl
  have hle : (l.validators.total fun v =>
      (if v.withdrawalAddress = a then v.accumulated else 0).toNat) ≤
        l.validators.total (·.accumulated.toNat) := by
    refine SortedMap.total_le_total fun i v hv => ⟨v, hv, ?_⟩
    split
    · exact Nat.le_refl _
    · exact Nat.zero_le _
  have hvalidators := l.validators.toNat_total
    (fun v => if v.withdrawalAddress = a then v.accumulated else 0) (by omega)
  have hpool : (if l.feeAddress = a then l.poolFees else 0).toNat =
      if l.feeAddress = a then l.poolFees.toNat else 0 := by
    split <;> rfl
  have hpool_le : (if l.feeAddress = a then l.poolFees.toNat else 0) ≤ l.poolFees.toNat := by
    split
    · exact Nat.le_refl _
    · exact Nat.zero_le _
  unfold owed
  rw [BitVec.toNat_add_of_lt (by omega), hvalidators, hpool]
  simp only [hpart]

/-- A payment adds what it counts for, if it does so to every balance that is there. -/
theorem total_addBalance {M : Type} [AddCancelCommMonoid M] (m : SortedMap Address Wei) (a : Address)
    (amount : Wei) (g : Wei → M)
    (hadd : ∀ balance ∈ m.values, g (balance + amount) = g balance + g amount) :
    (addBalance m a amount).total g = m.total g + g amount := by
  unfold addBalance
  cases hb : m.find? a with
  | none => rw [SortedMap.total_insert m a _ _ hb, Option.getD_none, zero_add]
  | some balance =>
    have hsum := hadd balance (SortedMap.mem_values_iff.mpr ⟨a, hb⟩)
    have hreplaced := m.total_insert_of_some a (balance + amount) g hb
    rw [hsum, add_comm (g balance), ← add_assoc] at hreplaced
    exact add_right_cancel hreplaced

theorem toNat_addBalance (m : SortedMap Address Wei) (a : Address) (amount : Wei)
    (hfits : m.total (·.toNat) + amount.toNat < 2 ^ 256) :
    (addBalance m a amount).total (·.toNat) = m.total (·.toNat) + amount.toNat := by
  refine total_addBalance m a amount (·.toNat) fun balance hbalance => ?_
  have hle := SortedMap.le_total (fun b : Wei => b.toNat) hbalance
  exact BitVec.toNat_add_of_lt (by omega)

theorem total_foldl_addBalance {payments : List (Address × Wei)} {m : SortedMap Address Wei}
    (hfits : m.total (·.toNat) + (payments.map (·.2.toNat)).sum < 2 ^ 256) :
    (payments.foldl (fun m p => addBalance m p.1 p.2) m).total (·.toNat) =
      m.total (·.toNat) + (payments.map (·.2.toNat)).sum := by
  induction payments generalizing m with
  | nil => rfl
  | cons p rest ih =>
    rw [List.map_cons, List.sum_cons, ← Nat.add_assoc] at hfits ⊢
    have hadd := toNat_addBalance m p.1 p.2 (by omega)
    rw [List.foldl_cons, ih (by rw [hadd]; exact hfits), hadd]

/-- The balances together are what was accumulated and the fees, as far as these fit into a word. -/
theorem total_balances
    (hfits : l.validators.total (·.accumulated.toNat) + l.poolFees.toNat < 2 ^ 256) :
    l.balances.total (·.toNat) =
      l.validators.total (·.accumulated.toNat) + l.poolFees.toNat := by
  have hpayments : (l.payments.map (·.2.toNat)).sum =
      l.validators.total (·.accumulated.toNat) + l.poolFees.toNat := by
    simp [payments, SortedMap.total, Function.comp_def]
  rw [← hpayments] at hfits ⊢
  have htotal := total_foldl_addBalance (m := .empty) (by simpa using hfits)
  rw [balances_eq_foldl, htotal, SortedMap.total_empty, Nat.zero_add]

theorem sum_leaves (l : Ledger) :
    (l.leaves.map (·.balance.toNat)).sum = l.balances.total (·.toNat) := by
  simp [leaves, SortedMap.total, SortedMap.values, Function.comp_def]

theorem mem_leaf_addresses_iff : a ∈ l.leaves.map (·.address) ↔ a ∈ l.payments.map (·.1) := by
  have hkeys : a ∈ l.leaves.map (·.address) ↔ a ∈ l.balances.keys := by
    simp [leaves, SortedMap.keys]
  rw [hkeys, SortedMap.mem_keys_iff, find?_balances]
  split
  · rename_i ha
    simp [ha]
  · rename_i ha
    simp [ha]

theorem nodup_leaf_addresses (l : Ledger) : (l.leaves.map (·.address)).Nodup := by
  have hkeys := l.balances.nodup_keys
  simpa [leaves, SortedMap.keys, Function.comp_def] using hkeys

end RewardPool.Ledger
