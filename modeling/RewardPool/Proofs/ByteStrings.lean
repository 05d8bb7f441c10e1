import Mathlib.Algebra.Group.Nat.Defs
import Mathlib.Data.List.Induction
import RewardPool.Bytes

/-!
Byte strings of a fixed length spell numbers, and nothing is lost in spelling one that fits: the
bytes of two values are the same only for the same value.
-/
namespace RewardPool

theorem length_bytesOfNat (n value : Nat) : (bytesOfNat n value).length = n := by
  simp [bytesOfNat]

/-- The last byte spells the remainder, the ones before it the quotient. -/
theorem bytesOfNat_succ (n value : Nat) :
    bytesOfNat (n + 1) value = bytesOfNat n (value / 256) ++ [UInt8.ofNat value] := by
  unfold bytesOfNat
  rw [List.range_succ, List.map_append]
  congr 1
  · refine List.map_congr_left fun i hi => ?_
    have hlt : i < n := List.mem_range.mp hi
    have hshift : 8 * (n + 1 - 1 - i) = 8 + 8 * (n - 1 - i) := by omega
    rw [hshift, Nat.shiftRight_add, Nat.shiftRight_eq_div_pow value]
  · simp

theorem natOfBytes_concat (bytes : List UInt8) (b : UInt8) :
    natOfBytes (bytes ++ [b]) = natOfBytes bytes * 256 + b.toNat := by
  simp [natOfBytes]

theorem natOfBytes_bytesOfNat (n value : Nat) :
    natOfBytes (bytesOfNat n value) = value % 256 ^ n := by
  induction n generalizing value with
  | zero => simp [bytesOfNat, natOfBytes, Nat.mod_one]
  | succ n ih =>
    have hbyte : (UInt8.ofNat value).toNat = value % 256 := UInt8.toNat_ofNat'
    rw [bytesOfNat_succ, natOfBytes_concat, ih, hbyte, Nat.pow_succ, Nat.mul_comm (256 ^ n),
      Nat.mod_mul]
    omega

theorem natOfBytes_lt (bytes : List UInt8) : natOfBytes bytes < 256 ^ bytes.length := by
  induction bytes using List.reverseRecOn with
  | nil => decide
  | append_singleton bytes b ih =>
    have hb : b.toNat < 256 := b.toNat_lt
    rw [natOfBytes_concat, List.length_append, List.length_singleton, Nat.pow_succ]
    omega

theorem natOfBytes_cons (b : UInt8) (bytes : List UInt8) :
    natOfBytes (b :: bytes) = b.toNat * 256 ^ bytes.length + natOfBytes bytes := by
  induction bytes using List.reverseRecOn with
  | nil => simp [natOfBytes]
  | append_singleton bytes last ih =>
    rw [← List.cons_append, natOfBytes_concat, natOfBytes_concat, ih, List.length_append,
      List.length_singleton, Nat.pow_succ, Nat.add_mul, Nat.mul_assoc, Nat.add_assoc]

/-- Byte strings of one length are ordered like the numbers that they spell. -/
theorem natOfBytes_lt_iff {a b : List UInt8} (h : a.length = b.length) :
    natOfBytes a < natOfBytes b ↔ a < b := by
  induction a generalizing b with
  | nil =>
    rw [List.eq_nil_of_length_eq_zero h.symm]
    simp
  | cons x a ih =>
    cases b with
    | nil => exact absurd h (by simp)
    | cons y b =>
      have hlength : a.length = b.length := Nat.succ.inj h
      have ha := natOfBytes_lt a
      have hb := natOfBytes_lt b
      rw [hlength] at ha
      rw [natOfBytes_cons, natOfBytes_cons, hlength, List.cons_lt_cons_iff, ← ih hlength,
        UInt8.lt_iff_toNat_lt, ← UInt8.toNat_inj]
      -- a first byte that is greater outweighs all bytes behind it
      have hstep : ∀ {i j : Nat}, i < j → i * 256 ^ b.length + 256 ^ b.length ≤ j * 256 ^ b.length := by
        intro i j hij
        rw [← Nat.succ_mul]
        exact Nat.mul_le_mul_right _ hij
      rcases Nat.lt_trichotomy x.toNat y.toNat with hlt | heq | hgt
      · have := hstep hlt
        omega
      · rw [heq]
        omega
      · have := hstep hgt
        omega

theorem bytesOfNat_injective {n a b : Nat} (ha : a < 256 ^ n) (hb : b < 256 ^ n)
    (h : bytesOfNat n a = bytesOfNat n b) : a = b := by
  have hmod : a % 256 ^ n = b % 256 ^ n := by
    rw [← natOfBytes_bytesOfNat, h, natOfBytes_bytesOfNat]
  rwa [Nat.mod_eq_of_lt ha, Nat.mod_eq_of_lt hb] at hmod

namespace FixedBytes

variable {n : Nat}

theorem toNat_lt (b : FixedBytes n) : b.toNat < 256 ^ n := by
  have hlt : b.bits.toNat < 2 ^ (8 * n) := b.bits.isLt
  rwa [Nat.pow_mul] at hlt

theorem length_toBytes (b : FixedBytes n) : b.toBytes.length = n := length_bytesOfNat n b.toNat

theorem toNat_ofBytes {bytes : List UInt8} (hlength : bytes.length = n) :
    (ofBytes (n := n) bytes).toNat = natOfBytes bytes := by
  have hlt : natOfBytes bytes < 2 ^ (8 * n) := by
    rw [Nat.pow_mul]
    exact hlength ▸ natOfBytes_lt bytes
  show (BitVec.ofNat (8 * n) (natOfBytes bytes)).toNat = natOfBytes bytes
  rw [BitVec.toNat_ofNat, Nat.mod_eq_of_lt hlt]

theorem natOfBytes_toBytes (b : FixedBytes n) : natOfBytes b.toBytes = b.toNat := by
  rw [toBytes, natOfBytes_bytesOfNat, Nat.mod_eq_of_lt b.toNat_lt]

/-- Comparing bytes compares the numbers that they spell. -/
theorem toBytes_lt_iff {a b : FixedBytes n} : a.toBytes < b.toBytes ↔ a.toNat < b.toNat := by
  have hlength : a.toBytes.length = b.toBytes.length := by rw [a.length_toBytes, b.length_toBytes]
  rw [← natOfBytes_lt_iff hlength, a.natOfBytes_toBytes, b.natOfBytes_toBytes]

theorem toBytes_injective {a b : FixedBytes n} (h : a.toBytes = b.toBytes) : a = b :=
  Ranked.rank_injective (bytesOfNat_injective a.toNat_lt b.toNat_lt h)

end FixedBytes

namespace Wei

theorem length_toBytes (w : Wei) : (Wei.toBytes w).length = 32 := length_bytesOfNat 32 w.toNat

theorem toBytes_injective {a b : Wei} (h : Wei.toBytes a = Wei.toBytes b) : a = b :=
  BitVec.eq_of_toNat_eq (bytesOfNat_injective a.isLt b.isLt h)

end Wei

end RewardPool
