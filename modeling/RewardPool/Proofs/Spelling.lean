import Mathlib.Data.List.Basic
import Mathlib.Data.Option.Basic
import RewardPool.Json.Form
import RewardPool.Proofs.ByteStrings
import RewardPool.Text

/-!
Numbers and byte strings are read back as what was written. A numeral is written from its last digit
on and read from its first, so both directions follow the step from a number to its quotient by the
base. None of the characters that are written has to be escaped in a string.
-/
namespace RewardPool

namespace Numeral

theorem digitIn?_digitChar {base d : Nat} (hbase : base ≤ 16) (hd : d < base) :
    digitIn? base (Nat.digitChar d) = some d := by
  have hdigit : ∀ e < 16, digit? (Nat.digitChar e) = some e := by decide
  unfold digitIn?
  rw [hdigit d (by omega)]
  simp [hd]

/-- A number is written by writing its quotient and then one more digit. -/
theorem write_of_le {base n : Nat} (hone : 1 < base) (hle : base ≤ n) :
    write base n = write base (n / base) ++ [Nat.digitChar (n % base)] :=
  Nat.toDigits_of_base_le hone hle

theorem write_of_lt {base n : Nat} (hlt : n < base) : write base n = [Nat.digitChar n] :=
  Nat.toDigits_of_lt_base hlt

theorem write_ne_nil (base n : Nat) : write base n ≠ [] := Nat.toDigits_ne_nil

/-- What holds of every digit of a base holds of all that is written in it. -/
theorem forall_mem_write {base : Nat} {P : Char → Prop} (hone : 1 < base)
    (hP : ∀ d < base, P (Nat.digitChar d)) (n : Nat) : ∀ c ∈ write base n, P c := by
  induction n using Nat.strongRecOn with
  | ind n ih =>
    rcases Nat.lt_or_ge n base with hlt | hle
    · rw [write_of_lt hlt]
      simpa using hP n hlt
    · rw [write_of_le hone hle]
      intro c hc
      rcases List.mem_append.mp hc with hc | hc
      · exact ih (n / base) (Nat.div_lt_self (by omega) hone) c hc
      · rw [List.mem_singleton.mp hc]
        exact hP _ (Nat.mod_lt n (by omega))

theorem extend?_write {base : Nat} (hone : 1 < base) (hbase : base ≤ 16) (n : Nat) :
    extend? base 0 (write base n) = some n := by
  induction n using Nat.strongRecOn with
  | ind n ih =>
    rcases Nat.lt_or_ge n base with hlt | hle
    · rw [write_of_lt hlt]
      simp [extend?, digitIn?_digitChar hbase hlt]
    · have hfirst := ih (n / base) (Nat.div_lt_self (by omega) hone)
      have hdigit := digitIn?_digitChar hbase (Nat.mod_lt n (by omega : base > 0))
      rw [write_of_le hone hle]
      unfold extend? at hfirst ⊢
      rw [List.foldlM_append, hfirst]
      simp [hdigit, Nat.div_add_mod']

theorem read?_write {base : Nat} (hone : 1 < base) (hbase : base ≤ 16) (n : Nat) :
    read? base (write base n) = some n := by
  have hdigits := extend?_write hone hbase n
  cases hwrite : write base n with
  | nil => exact absurd hwrite (write_ne_nil base n)
  | cons c rest =>
    rw [hwrite] at hdigits
    exact hdigits

/-- Only zero is written with a zero in front. -/
theorem head_write {base n : Nat} (hone : 1 < base) (hbase : base ≤ 16) (hpos : 0 < n) :
    (write base n).head? ≠ some '0' := by
  induction n using Nat.strongRecOn with
  | ind n ih =>
    rcases Nat.lt_or_ge n base with hlt | hle
    · have hdigit : ∀ d < 16, 0 < d → Nat.digitChar d ≠ '0' := by decide
      rw [write_of_lt hlt]
      simpa using hdigit n (by omega) hpos
    · rw [write_of_le hone hle, List.head?_append_of_ne_nil _ (write_ne_nil base _)]
      exact ih (n / base) (Nat.div_lt_self (by omega) hone) (Nat.div_pos hle (by omega))

theorem plain?_write (n : Nat) : plain? (write 10 n) = some n := by
  have hread : read? 10 (write 10 n) = some n := read?_write (by omega) (by omega) n
  rcases Nat.eq_zero_or_pos n with rfl | hpos
  · rfl
  · have hhead : (write 10 n).head? ≠ some '0' := head_write (by omega) (by omega) hpos
    unfold plain?
    split
    · rename_i heq
      exact absurd (by rw [heq]; rfl) hhead
    · rename_i heq
      exact absurd (by rw [heq]; rfl) hhead
    · exact hread

theorem based?_hexadecimal (n : Nat) : based? (hexadecimal n).toList = some n := by
  have hplain : ∀ c ∈ write 16 n, c ≠ '_' := forall_mem_write (by omega) (by decide) n
  have hdigits : (write 16 n).filter (· != '_') = write 16 n :=
    List.filter_eq_self.mpr fun c hc => by simpa using hplain c hc
  have hlist : (hexadecimal n).toList = '0' :: 'x' :: write 16 n := by
    simp [hexadecimal]
  unfold based?
  rw [hlist]
  simp only [splitBase, hdigits]
  exact extend?_write (by omega) (by omega) n

theorem word64?_toNat (n : UInt64) : word64? n.toNat = some n := by
  have hlt : n.toNat < 1 <<< 64 := n.toNat_lt
  unfold word64?
  rw [if_pos hlt, UInt64.ofNat_toNat]

theorem fit?_toNat {bits : Nat} (w : BitVec bits) : fit? bits w.toNat = some w := by
  unfold fit?
  rw [if_pos (by simpa [Nat.shiftLeft_eq] using w.isLt), BitVec.ofNat_toNat, BitVec.setWidth_eq]

end Numeral

theorem forall_mem_hexOfBytes {P : Char → Prop} (hP : ∀ d < 16, P (Nat.digitChar d))
    (bytes : List UInt8) : ∀ c ∈ (hexOfBytes bytes).toList, P c := by
  intro c hc
  unfold hexOfBytes at hc
  rw [String.toList_ofList] at hc
  obtain ⟨b, _, hb⟩ := List.mem_flatMap.mp hc
  have hlt : b.toNat < 256 := b.toNat_lt
  simp only [List.mem_cons, List.not_mem_nil, or_false] at hb
  rcases hb with rfl | rfl
  · exact hP _ (by omega)
  · exact hP _ (by omega)

theorem bytesOfHex?_hexOfBytes (bytes : List UInt8) :
    bytesOfHex? (hexOfBytes bytes).toList = some bytes := by
  unfold hexOfBytes
  rw [String.toList_ofList]
  induction bytes with
  | nil => rfl
  | cons b rest ih =>
    have hlt : b.toNat < 256 := b.toNat_lt
    have hhigh : Numeral.digitIn? 16 (Nat.digitChar (b.toNat / 16)) = some (b.toNat / 16) :=
      Numeral.digitIn?_digitChar (by omega) (by omega)
    have hlow : Numeral.digitIn? 16 (Nat.digitChar (b.toNat % 16)) = some (b.toNat % 16) :=
      Numeral.digitIn?_digitChar (by omega) (by omega)
    have hbyte : UInt8.ofNat (b.toNat / 16 * 16 + b.toNat % 16) = b := by
      rw [Nat.div_add_mod', UInt8.ofNat_toNat]
    rw [List.flatMap_cons]
    simp only [List.cons_append, List.nil_append, bytesOfHex?, hhigh, hlow, ih, Option.bind_eq_bind,
      Option.bind_some, hbyte]
    rfl

theorem FixedBytes.ofBytes_toBytes {n : Nat} (b : FixedBytes n) :
    FixedBytes.ofBytes b.toBytes = b := by
  apply Ranked.rank_injective
  exact (toNat_ofBytes b.length_toBytes).trans b.natOfBytes_toBytes

theorem FixedBytes.ofText?_text {n : Nat} (b : FixedBytes n) :
    FixedBytes.ofText? b.text.toList = some b := by
  have hlist : b.text.toList = '0' :: 'x' :: (hexOfBytes b.toBytes).toList := by
    simp [text]
  unfold ofText?
  rw [hlist]
  simp [dropHexMark, bytesOfHex?_hexOfBytes, b.length_toBytes, b.ofBytes_toBytes]

theorem Text.trim_of_forall {cs : List Char} (hcs : ∀ c ∈ cs, isWhiteSpace c = false)
    (hne : cs ≠ []) : trim (cs ++ ['\n']) = cs := by
  have hfirst : ∀ {l : List Char} (rest : List Char), (∀ c ∈ l, isWhiteSpace c = false) → l ≠ [] →
      (l ++ rest).dropWhile isWhiteSpace = l ++ rest := by
    intro l rest hl hl'
    cases l with
    | nil => exact absurd rfl hl'
    | cons c l =>
      have hc := hl c List.mem_cons_self
      rw [List.cons_append, List.dropWhile_cons, hc]
      rfl
  have hlast : (cs.reverse).dropWhile isWhiteSpace = cs.reverse := by
    simpa using hfirst [] (fun c hc => hcs c (List.mem_reverse.mp hc)) (by simpa using hne)
  have hline : isWhiteSpace '\n' = true := by decide
  unfold trim
  rw [hfirst ['\n'] hcs hne, List.reverse_append, List.reverse_singleton, List.singleton_append,
    List.dropWhile_cons, hline, if_pos rfl, hlast, List.reverse_reverse]

/-- The pointer is read as the root that it was written for. -/
theorem FixedBytes.ofText?_trim {n : Nat} (b : FixedBytes n) :
    FixedBytes.ofText? (Text.trim (b.text ++ "\n").toList) = some b := by
  have hplain : ∀ c ∈ b.text.toList, Text.isWhiteSpace c = false := by
    have hdigit : ∀ d < 16, Text.isWhiteSpace (Nat.digitChar d) = false := by decide
    intro c hc
    have hlist : b.text.toList = '0' :: 'x' :: (hexOfBytes b.toBytes).toList := by simp [text]
    rw [hlist] at hc
    rcases List.mem_cons.mp hc with rfl | hc
    · decide
    rcases List.mem_cons.mp hc with rfl | hc
    · decide
    · exact forall_mem_hexOfBytes (P := fun c => Text.isWhiteSpace c = false) hdigit b.toBytes c hc
  have hne : b.text.toList ≠ [] := by simp [text]
  have hlist : (b.text ++ "\n").toList = b.text.toList ++ ['\n'] := by simp
  rw [hlist, Text.trim_of_forall hplain hne, b.ofText?_text]

theorem Wei.ofText?_hexadecimal (w : Wei) : Wei.ofText? (Wei.hexadecimal w).toList = some w := by
  unfold Wei.ofText? Wei.hexadecimal
  rw [Numeral.based?_hexadecimal]
  exact Numeral.fit?_toNat w

end RewardPool
