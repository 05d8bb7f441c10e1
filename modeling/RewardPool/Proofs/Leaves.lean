import RewardPool.Proofs.Roots

/-!
The leaves of a ledger. There is one for each address that something is paid to, in the order of the
bytes of the addresses, and its balance is all that is paid to the address. Nothing is lost on the way:
the balances add up to what all validators have accumulated and the fees, in arithmetic that wraps. A
single leaf is left if every validator is paid at the fee address. Which validator an amount came from
is of no account, and neither is anything else that the ledger keeps.
-/
namespace RewardPool

namespace Ledger

variable {l l' : Ledger} {a : Address}

/-- The leaves stand in the order of the bytes of their addresses. -/
theorem pairwise_leaves (l : Ledger) :
    l.leaves.Pairwise fun x y => x.address.toBytes < y.address.toBytes := by
  unfold leaves
  rw [List.pairwise_map]
  exact l.balances.sorted.imp fun hlt => FixedBytes.toBytes_lt_iff.mpr hlt

theorem balance_of_leaf {leaf : Leaf} (hleaf : leaf ∈ l.leaves) :
    leaf.balance = l.owed leaf.address := by
  have hfound := mem_leaves_iff.mp hleaf
  rw [find?_balances] at hfound
  split at hfound
  · exact (Option.some.inj hfound).symm
  · exact absurd hfound (by simp)

/-- What an address is owed as a sum over the validators that are paid there. -/
theorem owed_eq_sum (l : Ledger) (a : Address) :
    l.owed a = ((l.validators.values.filter (·.withdrawalAddress = a)).map (·.accumulated)).sum +
      if a = l.feeAddress then l.poolFees else 0 := by
  unfold owed SortedMap.total
  rw [List.sum_map_ite]
  simp [eq_comm]

theorem sum_foldl_addBalance (payments : List (Address × Wei)) (m : SortedMap Address Wei) :
    (payments.foldl (fun m p => addBalance m p.1 p.2) m).total id =
      m.total id + (payments.map (·.2)).sum := by
  induction payments generalizing m with
  | nil => exact (add_zero _).symm
  | cons p rest ih =>
    have hadded := total_addBalance m p.1 p.2 id fun _ _ => rfl
    rw [List.foldl_cons, ih, hadded, List.map_cons, List.sum_cons, add_assoc]
    rfl

/-- The balances add up to all that was accumulated and the fees. -/
theorem sum_balances (l : Ledger) :
    (l.leaves.map (·.balance)).sum = l.totalAccumulated + l.poolFees := by
  have hleaves : (l.leaves.map (·.balance)).sum = l.balances.total id := by
    simp [leaves, SortedMap.total, SortedMap.values, Function.comp_def]
  have hpayments : (l.payments.map (·.2)).sum = l.totalAccumulated + l.poolFees := by
    rw [payments, List.map_append, List.sum_append, List.map_map]
    exact congrArg (_ + ·) (add_zero l.poolFees)
  rw [hleaves, balances_eq_foldl, sum_foldl_addBalance, hpayments, SortedMap.total_empty, zero_add]

/-- There is one leaf only if all are paid at the fee address. -/
theorem length_leaves_lt_two_iff :
    l.leaves.length < 2 ↔ ∀ i v, l.find? i = some v → v.withdrawalAddress = l.feeAddress := by
  have hfee : l.feeAddress ∈ l.leaves.map (·.address) :=
    mem_leaf_addresses_iff.mpr (mem_payees_iff.mpr (.inr rfl))
  constructor
  · intro hfew i v hv
    have hpaid : v.withdrawalAddress ∈ l.leaves.map (·.address) :=
      mem_leaf_addresses_iff.mpr (mem_payees_iff.mpr (.inl ⟨i, v, hv, rfl⟩))
    by_contra hother
    have htwo : [v.withdrawalAddress, l.feeAddress] ⊆ l.leaves.map (·.address) := by
      simp only [List.cons_subset, hpaid, hfee, List.nil_subset, and_self]
    have hlength := (List.subperm_of_subset (by simpa using hother) htwo).length_le
    rw [List.length_map] at hlength
    exact absurd hfew (Nat.not_lt.mpr hlength)
  · intro hall
    have hsub : l.leaves.map (·.address) ⊆ [l.feeAddress] := by
      intro a ha
      rcases mem_payees_iff.mp (mem_leaf_addresses_iff.mp ha) with ⟨i, v, hv, rfl⟩ | rfl
      · exact List.mem_singleton.mpr (hall i v hv)
      · exact List.mem_singleton_self _
    have hlength := (List.subperm_of_subset l.nodup_leaf_addresses hsub).length_le
    rw [List.length_map, List.length_singleton] at hlength
    omega

/-- The order of the payments is of no account. -/
theorem balances_eq_of_perm (hperm : l'.payments.Perm l.payments) : l'.balances = l.balances := by
  apply SortedMap.ext_find?
  intro a
  have hpayees : a ∈ l'.payments.map (·.1) ↔ a ∈ l.payments.map (·.1) := (hperm.map _).mem_iff
  have howed : l'.owed a = l.owed a := by
    rw [← paidTo_payments, ← paidTo_payments]
    exact (hperm.map _).sum_eq
  simp only [find?_balances, hpayees, howed]

theorem claimTree_congr (heq : l'.leaves = l.leaves) (h : Merkle.Digest) :
    l'.claimTree h = l.claimTree h := by
  unfold claimTree
  rw [heq]

/-- The leaves are the payees in the order of their bytes, each with what it is owed, and together they
are all that was accumulated and the fees. There is no tree exactly if everyone is paid at the fee
address. Ledgers that accumulated the same amounts for the same addresses and have the same fees have the
same leaves and the same tree, whatever else they keep and whichever validators they keep it for. -/
theorem leaves_add_up_by_address (h : Merkle.Digest) (l : Ledger) :
    (l.leaves.Pairwise fun x y => x.address.toBytes < y.address.toBytes) ∧
    (∀ a, (∃ leaf ∈ l.leaves, leaf.address = a) ↔
      a = l.feeAddress ∨ ∃ i v, l.find? i = some v ∧ v.withdrawalAddress = a) ∧
    (∀ leaf ∈ l.leaves, leaf.balance =
      ((l.validators.values.filter (·.withdrawalAddress = leaf.address)).map (·.accumulated)).sum +
        if leaf.address = l.feeAddress then l.poolFees else 0) ∧
    (l.leaves.map (·.balance)).sum = l.totalAccumulated + l.poolFees ∧
    (∀ leaves, l.claimTree h = .notEnoughData leaves ↔
      leaves = l.leaves ∧ ∀ i v, l.find? i = some v → v.withdrawalAddress = l.feeAddress) ∧
    ∀ l' : Ledger, l'.feeAddress = l.feeAddress → l'.poolFees = l.poolFees →
      (l'.validators.values.map fun v => (v.withdrawalAddress, v.accumulated)).Perm
        (l.validators.values.map fun v => (v.withdrawalAddress, v.accumulated)) →
      l'.leaves = l.leaves ∧ l'.claimTree h = l.claimTree h := by
  refine ⟨l.pairwise_leaves, fun a => ?_, fun leaf hleaf => ?_, l.sum_balances, fun leaves => ?_,
    fun l' haddress hfees hperm => ?_⟩
  · rw [← List.mem_map, mem_leaf_addresses_iff, mem_payees_iff, or_comm, eq_comm]
  · rw [balance_of_leaf hleaf, owed_eq_sum]
  · rw [claimTree_eq_notEnoughData_iff, length_leaves_lt_two_iff, and_comm]
  · have hpayments : l'.payments.Perm l.payments := by
      unfold payments
      rw [haddress, hfees]
      exact hperm.append_right _
    have hleaves := leaves_eq_of_balances (balances_eq_of_perm hpayments)
    exact ⟨hleaves, claimTree_congr hleaves h⟩

end Ledger

/-! Two validators are paid at one address and a banned one at that of the fees, and what the first two
have together wraps around. -/
namespace SharedAddresses

def member (status : Status) (address : Address) (accumulated pending : Wei) : Validator :=
  { Validator.fresh address .zero with status, accumulated, pending }

def ledger : Ledger where
  validators := .ofList [(0, member .active (.fill 0x20) 5 8), (1, member .banned (.fill 0x10) 7 0),
    (4, member .yellowCard (.fill 0x20) (0 - 1) 2)]
  poolFees := 3
  feePercent := 10
  feeAddress := .fill 0x10
  eligibility := .activeOnly
  latestSlot := none
  latestBlock := none
  subscriptions := []
  unsubscriptions := []
  donations := []
  poolBlocks := []

/-- The same amounts, kept for other validators and in other states. -/
def renumbered : Ledger :=
  { ledger with
    validators := .ofList [(2, member .active (.fill 0x20) (0 - 1) 0),
      (3, member .redCard (.fill 0x20) 5 1), (9, member .notSubscribed (.fill 0x10) 7 0)]
    feePercent := 0
    latestSlot := some 77 }

theorem renumbered_leaves_are_the_same :
    renumbered.feeAddress = ledger.feeAddress ∧ renumbered.poolFees = ledger.poolFees ∧
      ledger.leaves = [⟨.fill 0x10, 10⟩, ⟨.fill 0x20, 4⟩] ∧ renumbered.leaves = ledger.leaves ∧
      renumbered.claimTree Keccak.digest = ledger.claimTree Keccak.digest := by
  obtain ⟨-, -, -, -, -, hsame⟩ := Ledger.leaves_add_up_by_address Keccak.digest ledger
  obtain ⟨hleaves, htree⟩ := hsame renumbered rfl rfl (by decide)
  exact ⟨rfl, rfl, by decide, hleaves, htree⟩

end SharedAddresses

end RewardPool
