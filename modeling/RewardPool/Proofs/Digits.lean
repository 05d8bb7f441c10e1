import Mathlib.Data.List.Forall2
import Mathlib.Data.List.Induction
import Mathlib.Data.Nat.Digits.Defs
import RewardPool.Proofs.Spelling

/-!
Texts of numbers and byte strings, told by their digits. A text spells a number if its characters show
digits of a base that add up to the number. A number has one numeral, the shortest text that spells it
in small letters, and that is what is written; a byte string is written with two digits for each byte.
Which texts are read is told in the same way: plain numerals, and where either case of a letter counts,
digits behind a mark that may name a base.
-/
namespace RewardPool

/-- A character that stands for a digit when it is written. -/
def IsDigit (c : Char) (d : Nat) : Prop := c = Nat.digitChar d

/-- A character that stands for a digit when it is read. -/
def IsDigitOfEitherCase (c : Char) (d : Nat) : Prop :=
  c = Nat.digitChar d ∨ c = (Nat.digitChar d).toUpper

/-- Characters that show the digits of a number in a base, the least significant one last. -/
def Spells (shows : Char → Nat → Prop) (base : Nat) (cs : List Char) (n : Nat) : Prop :=
  ∃ digits : List Nat, List.Forall₂ shows cs.reverse digits ∧ (∀ d ∈ digits, d < base) ∧
    Nat.ofDigits base digits = n

/-- The numeral of a number: at least one digit, and no zero in front of another one. -/
structure IsNumeral (base n : Nat) (cs : List Char) : Prop where
  spells : Spells IsDigit base cs n
  nonempty : cs ≠ []
  shortest : cs.head? = some '0' → cs = ['0']

namespace Numeral

variable {shows : Char → Nat → Prop} {base n d : Nat} {cs : List Char} {c : Char}

theorem spells_nil : Spells shows base [] n ↔ n = 0 := by
  constructor
  · rintro ⟨digits, hshows, -, rfl⟩
    rw [List.forall₂_nil_left_iff.mp hshows]
    rfl
  · rintro rfl
    exact ⟨[], .nil, by simp, rfl⟩

/-- The last character adds its digit to the number that the ones before it spell. -/
theorem spells_concat : Spells shows base (cs ++ [c]) n ↔
    ∃ m d, Spells shows base cs m ∧ d < base ∧ shows c d ∧ n = m * base + d := by
  have hsum : ∀ (d : Nat) (digits : List Nat),
      Nat.ofDigits base (d :: digits) = Nat.ofDigits base digits * base + d := by
    intro d digits
    rw [Nat.ofDigits_cons, Nat.mul_comm]
    exact Nat.add_comm _ _
  unfold Spells
  rw [List.reverse_concat]
  constructor
  · rintro ⟨digits, hshows, hlt, rfl⟩
    obtain ⟨d, before, hc, hbefore, rfl⟩ := List.forall₂_cons_left_iff.mp hshows
    obtain ⟨hd, hlt⟩ := List.forall_mem_cons.mp hlt
    exact ⟨_, d, ⟨before, hbefore, hlt, rfl⟩, hd, hc, hsum d before⟩
  · rintro ⟨m, d, ⟨digits, hshows, hlt, rfl⟩, hd, hc, rfl⟩
    exact ⟨d :: digits, .cons hc hshows, List.forall_mem_cons.mpr ⟨hd, hlt⟩, hsum d digits⟩

/-- What shows digits in one way also shows them in a way that tells no fewer of them. -/
theorem spells_imp {shows' : Char → Nat → Prop} (h : Spells shows base cs n)
    (himp : ∀ c ∈ cs, ∀ d < base, shows c d → shows' c d) : Spells shows' base cs n := by
  induction cs using List.reverseRecOn generalizing n with
  | nil => exact spells_nil.mpr (spells_nil.mp h)
  | append_singleton cs c ih =>
    obtain ⟨m, d, hbefore, hd, hc, rfl⟩ := spells_concat.mp h
    have hlast : shows' c d := himp c (List.mem_append_right _ (List.mem_singleton_self c)) d hd hc
    have hfirst := ih hbefore fun c' hc' => himp c' (List.mem_append_left _ hc')
    exact spells_concat.mpr ⟨m, d, hfirst, hd, hlast, rfl⟩

theorem spells_write (hone : 1 < base) (n : Nat) : Spells IsDigit base (write base n) n := by
  induction n using Nat.strongRecOn with
  | ind n ih =>
    rcases Nat.lt_or_ge n base with hlt | hle
    · rw [write_of_lt hlt]
      exact spells_concat.mpr ⟨0, n, spells_nil.mpr rfl, hlt, rfl, by omega⟩
    · have hfirst := ih (n / base) (Nat.div_lt_self (by omega) hone)
      rw [write_of_le hone hle]
      exact spells_concat.mpr ⟨n / base, n % base, hfirst, Nat.mod_lt n (by omega), rfl,
        (Nat.div_add_mod' n base).symm⟩

theorem isNumeral_write (hone : 1 < base) (hbase : base ≤ 16) (n : Nat) :
    IsNumeral base n (write base n) where
  spells := spells_write hone n
  nonempty := write_ne_nil base n
  shortest hhead := by
    rcases Nat.eq_zero_or_pos n with rfl | hpos
    · rw [write_of_lt (by omega)]
      rfl
    · exact absurd hhead (head_write hone hbase hpos)

/-- A number has one numeral. -/
theorem eq_write_of_isNumeral (hone : 1 < base) (h : IsNumeral base n cs) : cs = write base n := by
  obtain ⟨hspells, hne, hshortest⟩ := h
  -- on the number of characters, the last of which shows the remainder
  induction cs using List.reverseRecOn generalizing n with
  | nil => exact absurd rfl hne
  | append_singleton cs c ih =>
    obtain ⟨m, d, hbefore, hd, rfl, rfl⟩ := spells_concat.mp hspells
    by_cases hcs : cs = []
    · subst hcs
      obtain rfl := spells_nil.mp hbefore
      rw [Nat.zero_mul, Nat.zero_add, write_of_lt hd]
      rfl
    · have hhead : cs.head? ≠ some '0' := by
        intro hzero
        have hwhole := hshortest (by rw [List.head?_append_of_ne_nil _ hcs, hzero])
        have hlength := congrArg List.length hwhole
        have hpos : 0 < cs.length := List.length_pos_iff.mpr hcs
        rw [List.length_append, List.length_singleton, List.length_singleton] at hlength
        omega
      have hwrite : cs = write base m := ih hbefore hcs fun hzero => absurd hzero hhead
      have hpos : 0 < m := by
        rcases Nat.eq_zero_or_pos m with rfl | hpos
        · rw [hwrite, write_of_lt (by omega)] at hhead
          exact absurd rfl hhead
        · exact hpos
      have hquotient : (m * base + d) / base = m := by
        rw [Nat.mul_comm, Nat.mul_add_div (by omega), Nat.div_eq_of_lt hd, Nat.add_zero]
      have hremainder : (m * base + d) % base = d := by
        rw [Nat.mul_comm, Nat.mul_add_mod, Nat.mod_eq_of_lt hd]
      have hle : base ≤ m * base + d := by
        have := Nat.le_mul_of_pos_left base hpos
        omega
      rw [write_of_le hone hle, hquotient, hremainder, hwrite]

theorem isDigitOfEitherCase_of_digit? (hd : d < 16) (h : digit? c = some d) :
    IsDigitOfEitherCase c d := by
  have hdecimal : ∀ e < 10, (Nat.digitChar e).toNat = e + 48 := by decide
  have hsmall : ∀ e < 16, 10 ≤ e → (Nat.digitChar e).toNat = e + 87 := by decide
  have hlarge : ∀ e < 16, 10 ≤ e → (Nat.digitChar e).toUpper.toNat = e + 55 := by decide
  unfold digit? at h
  split at h
  · rename_i hrange
    have hbounds : 48 ≤ c.toNat ∧ c.toNat ≤ 57 := hrange
    have hvalue : c.toNat - 48 = d := Option.some.inj h
    refine .inl (Char.toNat_inj.mp ?_)
    rw [hdecimal d (by omega)]
    omega
  · split at h
    · rename_i hrange
      have hbounds : 97 ≤ c.toNat ∧ c.toNat ≤ 122 := hrange
      have hvalue : c.toNat - 97 + 10 = d := Option.some.inj h
      refine .inl (Char.toNat_inj.mp ?_)
      rw [hsmall d hd (by omega)]
      omega
    · split at h
      · rename_i hrange
        have hbounds : 65 ≤ c.toNat ∧ c.toNat ≤ 90 := hrange
        have hvalue : c.toNat - 65 + 10 = d := Option.some.inj h
        refine .inr (Char.toNat_inj.mp ?_)
        rw [hlarge d hd (by omega)]
        omega
      · exact absurd h (by simp)

theorem digitIn?_eq_some (hbase : base ≤ 16) :
    digitIn? base c = some d ↔ d < base ∧ IsDigitOfEitherCase c d := by
  have hdigit : ∀ e < 16, digit? (Nat.digitChar e) = some e ∧
      digit? (Nat.digitChar e).toUpper = some e := by decide
  unfold digitIn?
  rw [Option.filter_eq_some_iff, decide_eq_true_eq]
  constructor
  · rintro ⟨hread, hd⟩
    exact ⟨hd, isDigitOfEitherCase_of_digit? (by omega) hread⟩
  · rintro ⟨hd, rfl | rfl⟩
    · exact ⟨(hdigit d (by omega)).1, hd⟩
    · exact ⟨(hdigit d (by omega)).2, hd⟩

/-- What is read is what the characters spell. -/
theorem extend?_eq_some (hbase : base ≤ 16) :
    extend? base 0 cs = some n ↔ Spells IsDigitOfEitherCase base cs n := by
  induction cs using List.reverseRecOn generalizing n with
  | nil =>
    rw [spells_nil]
    show some 0 = some n ↔ n = 0
    rw [Option.some.injEq, eq_comm]
  | append_singleton cs c ih =>
    have hstep : extend? base 0 (cs ++ [c]) =
        (extend? base 0 cs).bind fun m => (digitIn? base c).map (m * base + ·) := by
      unfold extend?
      rw [List.foldlM_append]
      simp
    rw [hstep, spells_concat, Option.bind_eq_some_iff]
    constructor
    · rintro ⟨m, hbefore, hlast⟩
      obtain ⟨d, hd, rfl⟩ := Option.map_eq_some_iff.mp hlast
      obtain ⟨hlt, hc⟩ := (digitIn?_eq_some hbase).mp hd
      exact ⟨m, d, ih.mp hbefore, hlt, hc, rfl⟩
    · rintro ⟨m, d, hbefore, hlt, hc, rfl⟩
      refine ⟨m, ih.mpr hbefore, Option.map_eq_some_iff.mpr ⟨d, ?_, rfl⟩⟩
      exact (digitIn?_eq_some hbase).mpr ⟨hlt, hc⟩

/-- A plain numeral is read if it is the shortest one. -/
theorem plain?_eq_some : plain? cs = some n ↔ IsNumeral 10 n cs := by
  have hcase : ∀ e < 10, (Nat.digitChar e).toUpper = Nat.digitChar e := by decide
  constructor
  · intro h
    unfold plain? at h
    split at h
    · obtain rfl := Option.some.inj h
      exact isNumeral_write (by omega) (by omega) 0
    · exact absurd h (by simp)
    · rename_i hzero hzeros
      have hne : cs ≠ [] := by
        rintro rfl
        exact absurd h (by simp [read?])
      have hread : extend? 10 0 cs = some n := by
        unfold read? at h
        split at h
        · exact absurd rfl hne
        · exact h
      refine ⟨?_, hne, ?_⟩
      · refine spells_imp ((extend?_eq_some (by omega)).mp hread) ?_
        rintro c - d hd (hc | hc)
        · exact hc
        · exact hc.trans (hcase d hd)
      · intro hhead
        cases cs with
        | nil => exact absurd rfl hne
        | cons c rest =>
          obtain rfl := Option.some.inj hhead
          exact absurd rfl (hzeros rest)
  · intro h
    rw [eq_write_of_isNumeral (by omega) h]
    exact plain?_write n

/-- A text that spells a number has no characters but digits. -/
theorem notMem_of_spells (hbase : base ≤ 16) (h : Spells IsDigitOfEitherCase base cs n)
    (hc : digitIn? base c = none) : c ∉ cs := by
  induction cs using List.reverseRecOn generalizing n with
  | nil => exact List.not_mem_nil
  | append_singleton cs last ih =>
    obtain ⟨m, d, hbefore, hd, hlast, rfl⟩ := spells_concat.mp h
    intro hmem
    rcases List.mem_append.mp hmem with hmem | hmem
    · exact ih hbefore hmem
    · rw [List.mem_singleton.mp hmem, (digitIn?_eq_some hbase).mpr ⟨hd, hlast⟩] at hc
      exact absurd hc (by simp)

/-- What may stand in front of the digits of an amount, and the base that it names. -/
def marks : List (List Char × Nat) :=
  [(['0', 'x'], 16), (['0', 'X'], 16), (['0', 'o'], 8), (['0', 'O'], 8), (['0', 'b'], 2),
    (['0', 'B'], 2), ([], 10)]

theorem exists_mark (cs : List Char) :
    ∃ mark, (mark, (splitBase cs).1) ∈ marks ∧ cs = mark ++ (splitBase cs).2 := by
  unfold splitBase
  split
  · exact ⟨['0', 'x'], by simp [marks], rfl⟩
  · exact ⟨['0', 'X'], by simp [marks], rfl⟩
  · exact ⟨['0', 'o'], by simp [marks], rfl⟩
  · exact ⟨['0', 'O'], by simp [marks], rfl⟩
  · exact ⟨['0', 'b'], by simp [marks], rfl⟩
  · exact ⟨['0', 'B'], by simp [marks], rfl⟩
  · exact ⟨[], by simp [marks], rfl⟩

/-- A mark is never mistaken for digits: what stands behind its zero is no decimal digit. -/
theorem splitBase_of_mark {mark digits : List Char} (hmark : (mark, base) ∈ marks)
    (h : Spells IsDigitOfEitherCase base (digits.filter (· != '_')) n) :
    splitBase (mark ++ digits) = (base, digits) := by
  simp only [marks, List.mem_cons, Prod.mk.injEq, List.not_mem_nil, or_false] at hmark
  rcases hmark with ⟨rfl, rfl⟩ | ⟨rfl, rfl⟩ | ⟨rfl, rfl⟩ | ⟨rfl, rfl⟩ | ⟨rfl, rfl⟩ | ⟨rfl, rfl⟩ |
    ⟨rfl, rfl⟩
  all_goals try rfl
  have hletter : ∀ c, digitIn? 10 c = none → (c != '_') = true → c ∉ digits := by
    intro c hnone hplain hmem
    exact notMem_of_spells (by omega) h hnone (List.mem_filter.mpr ⟨hmem, hplain⟩)
  rw [List.nil_append]
  unfold splitBase
  split
  all_goals first | rfl | exact (hletter _ (by decide) (by decide) (.tail _ (.head _))).elim

/-- A numeral that names its base is read as what its digits spell. -/
theorem based?_eq_some : based? cs = some n ↔ ∃ mark base digits, (mark, base) ∈ marks ∧
    cs = mark ++ digits ∧ Spells IsDigitOfEitherCase base (digits.filter (· != '_')) n := by
  have hbase : ∀ m ∈ marks, m.2 ≤ 16 := by decide
  constructor
  · intro h
    obtain ⟨mark, hmark, hcs⟩ := exists_mark cs
    refine ⟨mark, _, _, hmark, hcs, ?_⟩
    exact (extend?_eq_some (hbase _ hmark)).mp h
  · rintro ⟨mark, base, digits, hmark, rfl, h⟩
    unfold based?
    rw [splitBase_of_mark hmark h]
    exact (extend?_eq_some (hbase _ hmark)).mpr h

theorem word64?_eq_some {w : UInt64} : word64? n = some w ↔ n = w.toNat := by
  constructor
  · intro h
    unfold word64? at h
    split at h
    · rename_i hlt
      obtain rfl := Option.some.inj h
      exact (Nat.mod_eq_of_lt hlt).symm
    · exact absurd h (by simp)
  · rintro rfl
    exact word64?_toNat w

theorem fit?_eq_some {bits : Nat} {w : BitVec bits} : fit? bits n = some w ↔ n = w.toNat := by
  constructor
  · intro h
    unfold fit? at h
    split at h
    · rename_i hlt
      obtain rfl := Option.some.inj h
      rw [Nat.one_shiftLeft] at hlt
      rw [BitVec.toNat_ofNat, Nat.mod_eq_of_lt hlt]
    · exact absurd h (by simp)
  · rintro rfl
    exact fit?_toNat w

theorem extend?_cons (base start : Nat) (c : Char) (rest : List Char) :
    extend? base start (c :: rest) =
      (digitIn? base c).bind fun d => extend? base (start * base + d) rest := by
  unfold extend?
  rw [List.foldlM_cons]
  cases digitIn? base c with
  | none => rfl
  | some d => rfl

end Numeral

/-- Two digits for each byte add up to the number that the bytes spell. -/
theorem extend?_of_bytesOfHex? {cs : List Char} {bytes : List UInt8}
    (h : bytesOfHex? cs = some bytes) (start : Nat) : cs.length = 2 * bytes.length ∧
      Numeral.extend? 16 start cs = some (bytes.foldl (fun n b => n * 256 + b.toNat) start) := by
  induction cs using bytesOfHex?.induct generalizing bytes start with
  | case1 =>
    obtain rfl := Option.some.inj h
    exact ⟨rfl, rfl⟩
  | case2 a b rest ih =>
    unfold bytesOfHex? at h
    obtain ⟨high, hhigh, h⟩ := Option.bind_eq_some_iff.mp h
    obtain ⟨low, hlow, h⟩ := Option.bind_eq_some_iff.mp h
    obtain ⟨bytes', hrest, h⟩ := Option.bind_eq_some_iff.mp h
    obtain rfl := Option.some.inj h
    have hhigh16 := ((Numeral.digitIn?_eq_some (by omega)).mp hhigh).1
    have hlow16 := ((Numeral.digitIn?_eq_some (by omega)).mp hlow).1
    have hbyte : (UInt8.ofNat (high * 16 + low)).toNat = high * 16 + low :=
      Nat.mod_eq_of_lt (by omega)
    obtain ⟨hlength, hextend⟩ := ih hrest (start * 256 + (high * 16 + low))
    have hsum : (start * 16 + high) * 16 + low = start * 256 + (high * 16 + low) := by omega
    constructor
    · simp only [List.length_cons, hlength]
      omega
    · rw [Numeral.extend?_cons, hhigh, Option.bind_some, Numeral.extend?_cons, hlow,
        Option.bind_some, hsum, hextend, List.foldl_cons, hbyte]
  | case3 cs hnil hpair =>
    unfold bytesOfHex? at h
    split at h
    · exact absurd rfl hnil
    · exact absurd rfl (hpair _ _ _)
    · exact absurd h (by simp)

/-- An even number of digits is read as bytes. -/
theorem exists_bytesOfHex? {cs : List Char} {length start value : Nat}
    (hlength : cs.length = 2 * length) (h : Numeral.extend? 16 start cs = some value) :
    ∃ bytes, bytesOfHex? cs = some bytes := by
  induction length generalizing cs start with
  | zero =>
    rw [List.eq_nil_of_length_eq_zero hlength]
    exact ⟨[], rfl⟩
  | succ length ih =>
    match cs with
    | [] => exact absurd hlength (by simp)
    | [_] => exact absurd hlength (by simp; omega)
    | a :: b :: rest =>
      rw [Numeral.extend?_cons] at h
      obtain ⟨high, hhigh, h⟩ := Option.bind_eq_some_iff.mp h
      rw [Numeral.extend?_cons] at h
      obtain ⟨low, hlow, h⟩ := Option.bind_eq_some_iff.mp h
      have hrest : rest.length = 2 * length := by
        simp only [List.length_cons] at hlength
        omega
      obtain ⟨bytes, hbytes⟩ := ih hrest h
      refine ⟨UInt8.ofNat (high * 16 + low) :: bytes, ?_⟩
      unfold bytesOfHex?
      rw [hhigh, hlow, hbytes]
      rfl

namespace FixedBytes

variable {n : Nat} {b : FixedBytes n} {text digits mark : List Char}

/-- What may stand in front of the digits of a byte string. -/
def marks : List (List Char) := [['0', 'x'], ['0', 'X'], []]

/-- The texts of a byte string: two digits for each byte, in either case, that spell its number. A
hexadecimal mark may stand in front. -/
def IsText (b : FixedBytes n) (text : List Char) : Prop :=
  ∃ mark ∈ marks, ∃ digits, text = mark ++ digits ∧ digits.length = 2 * n ∧
    Spells IsDigitOfEitherCase 16 digits b.toNat

theorem exists_mark (text : List Char) : ∃ mark ∈ marks, text = mark ++ dropHexMark text := by
  unfold dropHexMark
  split
  · exact ⟨['0', 'x'], by simp [marks], rfl⟩
  · exact ⟨['0', 'X'], by simp [marks], rfl⟩
  · exact ⟨[], by simp [marks], rfl⟩

theorem dropHexMark_of_mark {value : Nat} (hmark : mark ∈ marks)
    (h : Spells IsDigitOfEitherCase 16 digits value) : dropHexMark (mark ++ digits) = digits := by
  simp only [marks, List.mem_cons, List.not_mem_nil, or_false] at hmark
  rcases hmark with rfl | rfl | rfl
  · rfl
  · rfl
  · have hletter : ∀ c, Numeral.digitIn? 16 c = none → c ∉ digits := fun c hnone =>
      Numeral.notMem_of_spells (by omega) h hnone
    rw [List.nil_append]
    unfold dropHexMark
    split
    · exact absurd (.tail _ (.head _)) (hletter 'x' (by decide))
    · exact absurd (.tail _ (.head _)) (hletter 'X' (by decide))
    · rfl

theorem ofText?_eq_some : ofText? text = some b ↔ b.IsText text := by
  constructor
  · intro h
    obtain ⟨bytes, hread, h⟩ := Option.bind_eq_some_iff.mp h
    obtain ⟨_, hguard, h⟩ := Option.bind_eq_some_iff.mp h
    obtain rfl := Option.some.inj h
    have hlength : bytes.length = n := by simpa using hguard
    obtain ⟨mark, hmark, htext⟩ := exists_mark text
    obtain ⟨htwice, hextend⟩ := extend?_of_bytesOfHex? hread 0
    refine ⟨mark, hmark, _, htext, by rw [htwice, hlength], ?_⟩
    rw [toNat_ofBytes hlength]
    exact (Numeral.extend?_eq_some (by omega)).mp hextend
  · rintro ⟨mark, hmark, digits, rfl, htwice, hspells⟩
    have hextend := (Numeral.extend?_eq_some (by omega)).mpr hspells
    obtain ⟨bytes, hread⟩ := exists_bytesOfHex? htwice hextend
    obtain ⟨htwice', hextend'⟩ := extend?_of_bytesOfHex? hread 0
    have hlength : bytes.length = n := by omega
    have hvalue : natOfBytes bytes = b.toNat := Option.some.inj (hextend'.symm.trans hextend)
    have hb : ofBytes bytes = b := by
      apply Ranked.rank_injective
      exact (toNat_ofBytes hlength).trans hvalue
    unfold ofText?
    rw [dropHexMark_of_mark hmark hspells, hread]
    simp [hlength, hb]

/-- All digits of a byte string are written, in small letters. -/
theorem spells_hexOfBytes (b : FixedBytes n) : (hexOfBytes b.toBytes).toList.length = 2 * n ∧
    Spells IsDigit 16 (hexOfBytes b.toBytes).toList b.toNat := by
  have hcase : ∀ d < 16, ∀ e < 16,
      Nat.digitChar e = (Nat.digitChar d).toUpper → Nat.digitChar e = Nat.digitChar d := by decide
  obtain ⟨hlength, hextend⟩ := extend?_of_bytesOfHex? (bytesOfHex?_hexOfBytes b.toBytes) 0
  have hspells : Spells IsDigitOfEitherCase 16 (hexOfBytes b.toBytes).toList b.toNat :=
    (Numeral.extend?_eq_some (by omega)).mp (b.natOfBytes_toBytes ▸ hextend)
  refine ⟨by rw [hlength, b.length_toBytes], Numeral.spells_imp hspells ?_⟩
  intro c hc d hd hshows
  have hsmall : ∃ e < 16, c = Nat.digitChar e :=
    forall_mem_hexOfBytes (P := fun c => ∃ e < 16, c = Nat.digitChar e)
      (fun e he => ⟨e, he, rfl⟩) b.toBytes c hc
  obtain ⟨e, he, rfl⟩ := hsmall
  rcases hshows with hshows | hshows
  · exact hshows
  · exact hcase d hd e he hshows

end FixedBytes

namespace Wei

/-- The texts of an amount: digits of the base that the mark in front of them names, in either case and
with underscores anywhere among them. -/
def IsText (w : Wei) (text : List Char) : Prop :=
  ∃ mark base digits, (mark, base) ∈ Numeral.marks ∧ text = mark ++ digits ∧
    Spells IsDigitOfEitherCase base (digits.filter (· != '_')) w.toNat

theorem ofText?_eq_some {w : Wei} {text : List Char} : ofText? text = some w ↔ IsText w text := by
  unfold ofText? IsText
  rw [Option.bind_eq_bind, Option.bind_eq_some_iff]
  constructor
  · rintro ⟨n, hn, hfits⟩
    obtain rfl := Numeral.fit?_eq_some.mp hfits
    exact Numeral.based?_eq_some.mp hn
  · intro h
    exact ⟨w.toNat, Numeral.based?_eq_some.mpr h, Numeral.fit?_eq_some.mpr rfl⟩

end Wei

end RewardPool
