import Mathlib.Algebra.BigOperators.Group.List.Basic
import Mathlib.Algebra.Order.BigOperators.Group.List
import RewardPool.Proofs.LedgerSteps

/-!
The priority fees of a block in plain numbers. A price fits into half a word and an amount of gas into
a quarter of that, so fewer transactions than fit into a quarter of a word cannot pay more than a
word: nothing that is added up on the way wraps around. What is left to go wrong is told by the first
check that fails, in the order in which the block, the transactions one by one, and at last the sums
are looked at.
-/
namespace RewardPool

namespace TransactionKind

theorem ofByte?_cases (byte : UInt8) :
    (4 < byte.toNat ∧ ofByte? byte = none) ∨
      ∃ kind, ofByte? byte = some kind ∧ byte.toNat ≤ 4 ∧
        kind.hasFlatPrice = decide (byte.toNat ≤ 1) := by
  unfold ofByte?
  by_cases h0 : byte = 0
  · exact .inr ⟨legacy, by simp [h0], by simp [h0], by simp [h0, hasFlatPrice]⟩
  by_cases h1 : byte = 1
  · exact .inr ⟨accessList, by simp [h1], by simp [h1], by simp [h1, hasFlatPrice]⟩
  by_cases h2 : byte = 2
  · exact .inr ⟨eip1559, by simp [h2], by simp [h2], by simp [h2, hasFlatPrice]⟩
  by_cases h3 : byte = 3
  · exact .inr ⟨eip4844, by simp [h3], by simp [h3], by simp [h3, hasFlatPrice]⟩
  by_cases h4 : byte = 4
  · exact .inr ⟨eip7702, by simp [h4], by simp [h4], by simp [h4, hasFlatPrice]⟩
  refine .inl ⟨?_, by simp [h0, h1, h2, h3, h4]⟩
  simp only [← UInt8.toNat_inj] at h0 h1 h2 h3 h4
  simp at h0 h1 h2 h3 h4
  omega

end TransactionKind

namespace Transaction

/-- The type is one of those that are understood, and the tip cap is there if the price takes one. -/
def HasPrice (t : Transaction) : Prop :=
  t.type.toNat ≤ 4 ∧ (2 ≤ t.type.toNat → t.tipCap.isSome = true)

instance (t : Transaction) : Decidable t.HasPrice := inferInstanceAs (Decidable (_ ∧ _))

/-- The price of a unit of gas in plain numbers. -/
def price (t : Transaction) (baseFee : Nat) : Nat :=
  if t.type.toNat ≤ 1 then (t.gasPrice.getD t.feeCap).toNat
  else min ((t.tipCap.getD 0).toNat + baseFee) t.feeCap.toNat

theorem price_lt (t : Transaction) (baseFee : Nat) : t.price baseFee < 2 ^ 128 := by
  have hcap := t.feeCap.isLt
  have hflat := (t.gasPrice.getD t.feeCap).isLt
  unfold price
  split <;> omega

/-- The sum that stops at the largest price is only ever compared with a price. -/
theorem effectivePrice_eq (t : Transaction) (baseFee : UInt64) :
    t.effectivePrice baseFee =
      if t.HasPrice then .ok (BitVec.ofNat 128 (t.price baseFee.toNat))
      else .error (.unsupportedTransaction t.hash t.type) := by
  unfold effectivePrice
  rcases TransactionKind.ofByte?_cases t.type with ⟨hbyte, hkind⟩ | ⟨kind, hkind, hbyte, hflat⟩
  · have hnone : ¬ t.HasPrice := fun hprice => absurd hprice.1 (by omega)
    rw [hkind, if_neg hnone]
  · by_cases hlow : t.type.toNat ≤ 1
    · have hprice : t.HasPrice := ⟨hbyte, fun htip => absurd htip (by omega)⟩
      simp [hkind, hflat, hlow, hprice, price]
    · obtain htip | ⟨tip, htip⟩ := Option.eq_none_or_eq_some t.tipCap
      · have hnone : ¬ t.HasPrice := by
          rintro ⟨-, hsome⟩
          rw [htip] at hsome
          exact absurd (hsome (by omega)) (by simp)
        simp [hkind, hflat, hlow, htip, hnone]
      · have hprice : t.HasPrice := ⟨hbyte, fun _ => by rw [htip]; rfl⟩
        have hmin : min (min (tip.toNat + baseFee.toNat) ((1 <<< 128) - 1)) t.feeCap.toNat =
            t.price baseFee.toNat := by
          have hcap := t.feeCap.isLt
          have hmax : (1 <<< 128) - 1 = 2 ^ 128 - 1 := rfl
          unfold price
          rw [if_neg hlow, htip, Option.getD_some]
          omega
        rw [hkind, if_pos hprice, ← hmin]
        simp only [hflat, hlow, htip, decide_false, Bool.false_eq_true, if_false]

theorem toNat_price (t : Transaction) (baseFee : Nat) :
    (BitVec.ofNat 128 (t.price baseFee)).toNat = t.price baseFee := by
  rw [BitVec.toNat_ofNat]
  exact Nat.mod_eq_of_lt (t.price_lt baseFee)

end Transaction

/-- A transaction with the receipt that was given for it. -/
abbrev Payment := Transaction × Receipt

namespace Payment

/-- The receipt is that of the transaction, and the transaction has a price. -/
def Matched (p : Payment) : Prop := p.1.hash = p.2.hash ∧ p.1.HasPrice

instance (p : Payment) : Decidable (Matched p) := inferInstanceAs (Decidable (_ ∧ _))

/-- What was paid for gas. -/
def paid (baseFee : Nat) (p : Payment) : Nat := p.1.price baseFee * p.2.gasUsed.toNat

def total (baseFee : Nat) (ps : List Payment) : Nat := (ps.map (paid baseFee)).sum

theorem paid_le (baseFee : Nat) (p : Payment) : paid baseFee p ≤ 2 ^ 192 := by
  have hprice := p.1.price_lt baseFee
  have hgas := p.2.gasUsed.toNat_lt
  calc paid baseFee p ≤ 2 ^ 128 * 2 ^ 64 := Nat.mul_le_mul (by omega) (by omega)
    _ = 2 ^ 192 := rfl

theorem total_lt (baseFee : Nat) {ps : List Payment} (hfew : ps.length < 2 ^ 64) :
    total baseFee ps < 2 ^ 256 := by
  have hle : total baseFee ps ≤ (ps.map (paid baseFee)).length • 2 ^ 192 := by
    refine List.sum_le_card_nsmul _ _ fun n hn => ?_
    obtain ⟨p, -, rfl⟩ := List.mem_map.mp hn
    exact paid_le baseFee p
  rw [List.length_map, nsmul_eq_mul, Nat.cast_id] at hle
  omega

/-- Whoever pays no less than the base fee pays it on all its gas. -/
theorem total_eq_of_le (baseFee : Nat) {ps : List Payment}
    (hprice : ∀ p ∈ ps, baseFee ≤ p.1.price baseFee) :
    total baseFee ps =
      (ps.map fun p => (p.1.price baseFee - baseFee) * p.2.gasUsed.toNat).sum +
        (ps.map (·.2.gasUsed.toNat)).sum * baseFee := by
  induction ps with
  | nil => simp [total]
  | cons p rest ih =>
    have hrest := ih fun q hq => hprice q (List.mem_cons_of_mem _ hq)
    have hle := hprice p List.mem_cons_self
    have hpaid : paid baseFee p =
        (p.1.price baseFee - baseFee) * p.2.gasUsed.toNat + p.2.gasUsed.toNat * baseFee := by
      rw [Nat.mul_comm p.2.gasUsed.toNat, ← Nat.add_mul, Nat.sub_add_cancel hle]
      rfl
    unfold total at hrest ⊢
    simp only [List.map_cons, List.sum_cons, hrest, hpaid, Nat.add_mul]
    omega

/-- Either all payments are in order, or there is a first one that is not. -/
theorem matched_or_first (ps : List Payment) :
    (∀ p ∈ ps, Matched p) ∨
      ∃ first p rest, ps = first ++ p :: rest ∧ (∀ q ∈ first, Matched q) ∧ ¬ Matched p := by
  cases hfind : ps.find? fun p => ¬ Matched p with
  | none => exact .inl fun p hp => by simpa using List.find?_eq_none.mp hfind p hp
  | some p =>
    obtain ⟨hp, first, rest, hps, hfirst⟩ := List.find?_eq_some_iff_append.mp hfind
    exact .inr ⟨first, p, rest, hps, fun q hq => by simpa using hfirst q hq, by simpa using hp⟩

end Payment

namespace Header

open Payment

variable {h : Header} {b : UInt64} {ps first rest : List Payment} {p : Payment} {f : Fault}
variable {ts : List Transaction} {rs : List Receipt}

theorem collect_eq (h : Header) (b : UInt64) (c : Wei) (p : Payment) :
    h.collect b c p =
      if p.1.hash ≠ p.2.hash then .error (.receiptOrder h.number p.1.hash p.2.hash)
      else if p.1.HasPrice then .ok (c + BitVec.ofNat 256 (paid b.toNat p))
      else .error (.unsupportedTransaction p.1.hash p.1.type) := by
  obtain ⟨t, r⟩ := p
  unfold collect
  by_cases hhash : t.hash = r.hash
  · by_cases hprice : t.HasPrice
    · have hproduct : (BitVec.ofNat 128 (t.price b.toNat)).setWidth 256 *
          BitVec.ofNat 256 r.gasUsed.toNat = BitVec.ofNat 256 (paid b.toNat (t, r)) := by
        unfold paid
        rw [BitVec.ofNat_mul]
        congr 1
        apply BitVec.eq_of_toNat_eq
        rw [BitVec.toNat_setWidth, t.toNat_price, BitVec.toNat_ofNat]
      simp [hhash, t.effectivePrice_eq, hprice, hproduct, bind, Except.bind, pure, Except.pure]
    · simp [hhash, t.effectivePrice_eq, hprice, bind, Except.bind]
  · simp [hhash, bind, Except.bind, throw, throwThe, MonadExceptOf.throw]

theorem foldlM_collect (hall : ∀ p ∈ ps, Matched p) (c : Wei) :
    ps.foldlM (h.collect b) c = .ok (c + BitVec.ofNat 256 (total b.toNat ps)) := by
  induction ps generalizing c with
  | nil => simp [total, pure, Except.pure]
  | cons p rest ih =>
    obtain ⟨hhash, hprice⟩ := hall p List.mem_cons_self
    have hrest := ih fun q hq => hall q (List.mem_cons_of_mem _ hq)
    rw [List.foldlM_cons, collect_eq, if_neg (not_not.mpr hhash), if_pos hprice]
    refine (hrest _).trans ?_
    unfold total
    rw [List.map_cons, List.sum_cons, BitVec.ofNat_add, BitVec.add_assoc]

/-- The sums of fewer transactions than fit into a quarter of a word are those of plain numbers. -/
theorem foldlM_collect_exact (hall : ∀ p ∈ ps, Matched p) (hfew : ps.length < 2 ^ 64) :
    ∃ c, ps.foldlM (h.collect b) 0 = .ok c ∧ c.toNat = total b.toNat ps := by
  refine ⟨_, foldlM_collect hall 0, ?_⟩
  rw [zero_add, BitVec.toNat_ofNat]
  exact Nat.mod_eq_of_lt (total_lt _ hfew)

/-- The first payment that is out of order decides. -/
theorem foldlM_collect_of_first (hfirst : ∀ q ∈ first, Matched q)
    (hp : ∀ c, h.collect b c p = .error f) (c : Wei) :
    (first ++ p :: rest).foldlM (h.collect b) c = .error f := by
  rw [List.foldlM_append, foldlM_collect hfirst]
  change (p :: rest).foldlM (h.collect b) _ = .error f
  rw [List.foldlM_cons, hp]
  rfl

/-- What is burned fits into half a word. -/
theorem burned_lt (h : Header) (b : UInt64) : h.gasUsed.toNat * b.toNat < 2 ^ 256 := by
  have hgas := h.gasUsed.toNat_lt
  have hfee := b.toNat_lt
  calc h.gasUsed.toNat * b.toNat ≤ 2 ^ 64 * 2 ^ 64 := Nat.mul_le_mul (by omega) (by omega)
    _ < 2 ^ 256 := by decide

theorem toNat_burned (h : Header) (b : UInt64) :
    (BitVec.ofNat 256 h.gasUsed.toNat * BitVec.ofNat 256 b.toNat).toNat =
      h.gasUsed.toNat * b.toNat := by
  rw [← BitVec.ofNat_mul, BitVec.toNat_ofNat]
  exact Nat.mod_eq_of_lt (h.burned_lt b)

/-- The first check that fails. -/
inductive FirstFault (h : Header) (ts : List Transaction) (rs : List Receipt) : Fault → Prop
  | receiptCount (hcount : ts.length ≠ rs.length) :
      FirstFault h ts rs (.receiptCount h.number ts.length rs.length)
  | missingBaseFee (hcount : ts.length = rs.length) (hbase : h.baseFee = none) :
      FirstFault h ts rs (.missingBaseFee h.number)
  | receiptOrder {b : UInt64} {first rest : List Payment} {t : Transaction} {r : Receipt}
      (hcount : ts.length = rs.length) (hbase : h.baseFee = some b)
      (hpairs : ts.zip rs = first ++ (t, r) :: rest) (hfirst : ∀ p ∈ first, Matched p)
      (hhash : t.hash ≠ r.hash) : FirstFault h ts rs (.receiptOrder h.number t.hash r.hash)
  | unsupportedTransaction {b : UInt64} {first rest : List Payment} {t : Transaction} {r : Receipt}
      (hcount : ts.length = rs.length) (hbase : h.baseFee = some b)
      (hpairs : ts.zip rs = first ++ (t, r) :: rest) (hfirst : ∀ p ∈ first, Matched p)
      (hhash : t.hash = r.hash) (hprice : ¬ t.HasPrice) :
      FirstFault h ts rs (.unsupportedTransaction t.hash t.type)
  | negativeTip {b : UInt64} {collected burned : Wei}
      (hcount : ts.length = rs.length) (hbase : h.baseFee = some b)
      (hall : ∀ p ∈ ts.zip rs, Matched p)
      (hcollected : collected.toNat = total b.toNat (ts.zip rs))
      (hburned : burned.toNat = h.gasUsed.toNat * b.toNat)
      (hless : collected.toNat < burned.toNat) :
      FirstFault h ts rs (.negativeTip h.number collected burned)

theorem tip_of_fold_error (hcount : ts.length = rs.length) (hbase : h.baseFee = some b)
    (hfold : (ts.zip rs).foldlM (h.collect b) 0 = .error f) : h.tip ts rs = .error f := by
  unfold tip
  rw [if_neg (not_not.mpr hcount), hbase]
  dsimp only
  rw [hfold]
  rfl

theorem tip_of_fold_ok {c : Wei} (hcount : ts.length = rs.length) (hbase : h.baseFee = some b)
    (hfold : (ts.zip rs).foldlM (h.collect b) 0 = .ok c) :
    h.tip ts rs =
      let burned := BitVec.ofNat 256 h.gasUsed.toNat * BitVec.ofNat 256 b.toNat
      if burned ≤ c then .ok (c - burned) else .error (.negativeTip h.number c burned) := by
  unfold tip
  rw [if_neg (not_not.mpr hcount), hbase]
  dsimp only
  rw [hfold]
  by_cases hle : BitVec.ofNat 256 h.gasUsed.toNat * BitVec.ofNat 256 b.toNat ≤ c
  · simp only [bind, Except.bind, Wei.minus?, if_pos hle]
    rfl
  · simp only [bind, Except.bind, Wei.minus?, if_neg hle]
    rfl

theorem zip_length_lt (hfew : ts.length < 2 ^ 64) : (ts.zip rs).length < 2 ^ 64 := by
  rw [List.length_zip]
  omega

theorem tip_of_firstFault (hfew : ts.length < 2 ^ 64) (hf : h.FirstFault ts rs f) :
    h.tip ts rs = .error f := by
  cases hf with
  | receiptCount hcount =>
    unfold tip
    rw [if_pos hcount]
    rfl
  | missingBaseFee hcount hbase =>
    unfold tip
    rw [if_neg (not_not.mpr hcount), hbase]
    rfl
  | @receiptOrder b first rest t r hcount hbase hpairs hfirst hhash =>
    have hp : ∀ c, h.collect b c (t, r) = .error (.receiptOrder h.number t.hash r.hash) := by
      intro c
      rw [collect_eq, if_pos hhash]
    apply tip_of_fold_error hcount hbase
    rw [hpairs]
    exact foldlM_collect_of_first hfirst hp 0
  | @unsupportedTransaction b first rest t r hcount hbase hpairs hfirst hhash hprice =>
    have hp : ∀ c, h.collect b c (t, r) = .error (.unsupportedTransaction t.hash t.type) := by
      intro c
      rw [collect_eq, if_neg (not_not.mpr hhash), if_neg hprice]
    apply tip_of_fold_error hcount hbase
    rw [hpairs]
    exact foldlM_collect_of_first hfirst hp 0
  | @negativeTip b collected burned hcount hbase hall hcollected hburned hless =>
    obtain ⟨c, hfold, hc⟩ := foldlM_collect_exact (h := h) (b := b) hall (zip_length_lt hfew)
    obtain rfl : c = collected := BitVec.eq_of_toNat_eq (hc.trans hcollected.symm)
    obtain rfl : BitVec.ofNat 256 h.gasUsed.toNat * BitVec.ofNat 256 b.toNat = burned :=
      BitVec.eq_of_toNat_eq ((h.toNat_burned b).trans hburned.symm)
    rw [tip_of_fold_ok hcount hbase hfold]
    exact if_neg (by rw [BitVec.le_def]; omega)

theorem tip_of_matched (hfew : ts.length < 2 ^ 64) (hcount : ts.length = rs.length)
    (hbase : h.baseFee = some b) (hall : ∀ p ∈ ts.zip rs, Matched p)
    (hle : h.gasUsed.toNat * b.toNat ≤ total b.toNat (ts.zip rs)) :
    ∃ tip, h.tip ts rs = .ok tip ∧
      tip.toNat = total b.toNat (ts.zip rs) - h.gasUsed.toNat * b.toNat := by
  obtain ⟨c, hfold, hc⟩ := foldlM_collect_exact (h := h) (b := b) hall (zip_length_lt hfew)
  have hburned := h.toNat_burned b
  have hfits : BitVec.ofNat 256 h.gasUsed.toNat * BitVec.ofNat 256 b.toNat ≤ c := by
    rw [BitVec.le_def]
    omega
  refine ⟨c - BitVec.ofNat 256 h.gasUsed.toNat * BitVec.ofNat 256 b.toNat, ?_, ?_⟩
  · rw [tip_of_fold_ok hcount hbase hfold]
    exact if_pos hfits
  · rw [BitVec.toNat_sub_of_le hfits, hc, hburned]

/-- There is a first check that fails, or all of them pass. -/
theorem firstFault_or_matched (hfew : ts.length < 2 ^ 64) :
    (∃ f, h.FirstFault ts rs f) ∨
      (ts.length = rs.length ∧ ∃ b, h.baseFee = some b ∧ (∀ p ∈ ts.zip rs, Matched p) ∧
        h.gasUsed.toNat * b.toNat ≤ total b.toNat (ts.zip rs)) := by
  by_cases hcount : ts.length = rs.length
  · cases hbase : h.baseFee with
    | none => exact .inl ⟨_, .missingBaseFee hcount hbase⟩
    | some b =>
      rcases matched_or_first (ts.zip rs) with hall | ⟨first, ⟨t, r⟩, rest, hpairs, hfirst, hp⟩
      · by_cases hle : h.gasUsed.toNat * b.toNat ≤ total b.toNat (ts.zip rs)
        · exact .inr ⟨hcount, b, rfl, hall, hle⟩
        · obtain ⟨c, -, hc⟩ := foldlM_collect_exact (h := h) (b := b) hall (zip_length_lt hfew)
          have hburned := h.toNat_burned b
          exact .inl ⟨_, .negativeTip hcount hbase hall hc hburned (by omega)⟩
      · by_cases hhash : t.hash = r.hash
        · have hprice : ¬ t.HasPrice := fun hprice => hp ⟨hhash, hprice⟩
          exact .inl ⟨_, .unsupportedTransaction hcount hbase hpairs hfirst hhash hprice⟩
        · exact .inl ⟨_, .receiptOrder hcount hbase hpairs hfirst hhash⟩
  · exact .inl ⟨_, .receiptCount hcount⟩

/-- The tip of fewer than `2 ^ 64` transactions is the difference of two plain sums, and it is given
exactly if all checks pass and the difference is not negative. No price and no sum on the way to it
wraps around. Where the header counts the gas of the receipts and nobody pays less than the base fee, it
is what everyone pays above the base fee. Otherwise the fault is that of the first check that fails. -/
theorem tip_is_exact (h : Header) {ts : List Transaction} (hfew : ts.length < 2 ^ 64)
    (rs : List Receipt) :
    (∀ tip, h.tip ts rs = .ok tip ↔
      ts.length = rs.length ∧ ∃ b, h.baseFee = some b ∧ (∀ p ∈ ts.zip rs, Matched p) ∧
        h.gasUsed.toNat * b.toNat ≤ total b.toNat (ts.zip rs) ∧
        tip.toNat = total b.toNat (ts.zip rs) - h.gasUsed.toNat * b.toNat) ∧
    (∀ b : UInt64,
      total b.toNat (ts.zip rs) < 2 ^ 256 ∧ h.gasUsed.toNat * b.toNat < 2 ^ 256 ∧
      (∀ t : Transaction, t.HasPrice →
        ∃ price, t.effectivePrice b = .ok price ∧ price.toNat = t.price b.toNat) ∧
      ∀ first rest, ts.zip rs = first ++ rest → (∀ p ∈ first, Matched p) →
        ∃ c, first.foldlM (h.collect b) 0 = .ok c ∧ c.toNat = total b.toNat first) ∧
    (∀ b, ts.length = rs.length → h.baseFee = some b → (∀ p ∈ ts.zip rs, Matched p) →
      h.gasUsed.toNat = (rs.map (·.gasUsed.toNat)).sum → (∀ t ∈ ts, b.toNat ≤ t.price b.toNat) →
      ∃ tip, h.tip ts rs = .ok tip ∧ tip.toNat =
        ((ts.zip rs).map fun p => (p.1.price b.toNat - b.toNat) * p.2.gasUsed.toNat).sum) ∧
    ∀ f, h.tip ts rs = .error f ↔ h.FirstFault ts rs f := by
  refine ⟨fun tip => ⟨fun htip => ?_, ?_⟩, fun b => ?_, ?_, fun f => ⟨fun htip => ?_, ?_⟩⟩
  · rcases firstFault_or_matched hfew with ⟨f, hf⟩ | ⟨hcount, b, hbase, hall, hle⟩
    · exact absurd (htip.symm.trans (tip_of_firstFault hfew hf)) (by simp)
    · obtain ⟨tip', htip', hvalue⟩ := tip_of_matched hfew hcount hbase hall hle
      obtain rfl := Except.ok.inj (htip.symm.trans htip')
      exact ⟨hcount, b, hbase, hall, hle, hvalue⟩
  · rintro ⟨hcount, b, hbase, hall, hle, hvalue⟩
    obtain ⟨tip', htip', hvalue'⟩ := tip_of_matched hfew hcount hbase hall hle
    rwa [BitVec.eq_of_toNat_eq (hvalue.trans hvalue'.symm)]
  · refine ⟨total_lt _ (zip_length_lt hfew), h.burned_lt b, fun t hprice => ?_, ?_⟩
    · exact ⟨_, by rw [t.effectivePrice_eq, if_pos hprice], t.toNat_price b.toNat⟩
    · intro first rest hpairs hfirst
      have hlength : (ts.zip rs).length < 2 ^ 64 := zip_length_lt hfew
      rw [hpairs, List.length_append] at hlength
      exact foldlM_collect_exact hfirst (by omega)
  · intro b hcount hbase hall hgas hprice
    have hprices : ∀ p ∈ ts.zip rs, b.toNat ≤ p.1.price b.toNat :=
      fun p hp => hprice p.1 (List.of_mem_zip hp).1
    have hsum := total_eq_of_le b.toNat hprices
    have hreceipts : (ts.zip rs).map (·.2.gasUsed.toNat) = rs.map (·.gasUsed.toNat) :=
      calc (ts.zip rs).map (·.2.gasUsed.toNat)
          = ((ts.zip rs).map Prod.snd).map (·.gasUsed.toNat) := by rw [List.map_map]; rfl
        _ = rs.map (·.gasUsed.toNat) := by rw [List.map_snd_zip (Nat.le_of_eq hcount.symm)]
    rw [hreceipts, ← hgas] at hsum
    have hle : h.gasUsed.toNat * b.toNat ≤ total b.toNat (ts.zip rs) := by omega
    obtain ⟨tip, htip, hvalue⟩ := tip_of_matched hfew hcount hbase hall hle
    exact ⟨tip, htip, by rw [hvalue, hsum, Nat.add_sub_cancel]⟩
  · rcases firstFault_or_matched hfew with ⟨g, hg⟩ | ⟨hcount, b, hbase, hall, hle⟩
    · obtain rfl := Except.error.inj (htip.symm.trans (tip_of_firstFault hfew hg))
      exact hg
    · obtain ⟨tip, htip', -⟩ := tip_of_matched hfew hcount hbase hall hle
      exact absurd (htip.symm.trans htip') (by simp)
  · exact tip_of_firstFault hfew

end Header

/-! A flat price, a tip below its cap, and a tip that the fee cap cuts short. -/
namespace ThreeFees

def transaction (hash type : UInt8) (gasPrice : Option GasPrice) (feeCap : GasPrice)
    (tipCap : Option GasPrice) : Transaction where
  hash := .fill hash
  type := type
  sender := .zero
  recipient := none
  value := 0
  gasPrice := gasPrice
  feeCap := feeCap
  tipCap := tipCap

def transactions : List Transaction :=
  [transaction 1 0 (some 130) 0 none, transaction 2 2 none 200 (some 10),
    transaction 3 3 none 120 (some 50)]

def receipts : List Receipt := [⟨.fill 1, 21000⟩, ⟨.fill 2, 9000⟩, ⟨.fill 3, 100⟩]

def header : Header := ⟨50, some 100, 30100⟩

theorem tip_above_base_fee :
    transactions.length < 2 ^ 64 ∧
      ∃ tip, header.tip transactions receipts = .ok tip ∧
        tip.toNat = 30 * 21000 + 10 * 9000 + 20 * 100 := by
  have hfew : transactions.length < 2 ^ 64 := by decide
  obtain ⟨-, -, hexact, -⟩ := header.tip_is_exact hfew receipts
  exact ⟨hfew, hexact 100 rfl rfl (by decide) (by decide) (by decide)⟩

end ThreeFees

end RewardPool
