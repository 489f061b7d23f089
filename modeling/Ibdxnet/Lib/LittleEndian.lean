import Mathlib.Data.Nat.Bitwise

/-!
# Little endian words

The bytes of a word, lowest first, and the word put together from its bytes by
shifts, as code does that reads a packed record.

    word16 of the bytes of x  =  x        (word16_bytes16)
    word32 of the bytes of x  =  x        (word32_bytes32)
-/

namespace LittleEndian

def bytes16 (x : UInt16) : List UInt8 := [x.toUInt8, (x >>> 8).toUInt8]

def bytes32 (x : UInt32) : List UInt8 :=
  [x.toUInt8, (x >>> 8).toUInt8, (x >>> 16).toUInt8, (x >>> 24).toUInt8]

def word16 (b₀ b₁ : UInt8) : UInt16 := b₀.toUInt16 ||| b₁.toUInt16 <<< 8

def word32 (b₀ b₁ b₂ b₃ : UInt8) : UInt32 :=
  b₀.toUInt32 ||| b₁.toUInt32 <<< 8 ||| b₂.toUInt32 <<< 16 ||| b₃.toUInt32 <<< 24

/-- Bits above those of `b` are added. -/
theorem or_shiftLeft {a b k : Nat} (h : b < 2 ^ k) : b ||| a <<< k = b + a * 2 ^ k := by
  rw [Nat.or_comm, Nat.shiftLeft_eq, Nat.mul_comm, ← Nat.two_pow_add_eq_or_of_lt h, Nat.add_comm]

theorem word16_bytes16 (x : UInt16) : word16 x.toUInt8 (x >>> 8).toUInt8 = x := by
  apply UInt16.toNat_inj.mp
  have hx := x.toNat_lt
  have hhigh : (x.toNat >>> 8 % 256) <<< 8 % 65536 = (x.toNat >>> 8 % 256) <<< 8 := by
    rw [Nat.shiftLeft_eq]
    exact Nat.mod_eq_of_lt (by omega)
  simp only [word16, UInt16.toNat_or, UInt8.toNat_toUInt16, UInt16.toNat_toUInt8,
    UInt16.toNat_shiftLeft, UInt16.toNat_shiftRight]
  change x.toNat % 256 ||| (x.toNat >>> 8 % 256) <<< 8 % 65536 = x.toNat
  rw [hhigh, or_shiftLeft (k := 8) (by omega), Nat.shiftRight_eq_div_pow]
  omega

theorem word32_bytes32 (x : UInt32) :
    word32 x.toUInt8 (x >>> 8).toUInt8 (x >>> 16).toUInt8 (x >>> 24).toUInt8 = x := by
  apply UInt32.toNat_inj.mp
  have hx := x.toNat_lt
  have hhigh : ∀ k, k ≤ 24 →
      (x.toNat >>> k % 256) <<< k % 2 ^ 32 = (x.toNat >>> k % 256) <<< k := by
    intro k hk
    rw [Nat.shiftLeft_eq]
    have hpow : 2 ^ k ≤ 2 ^ 24 := Nat.pow_le_pow_right (by decide) hk
    have hbyte : x.toNat >>> k % 256 < 256 := Nat.mod_lt _ (by decide)
    have hmul : (x.toNat >>> k % 256) * 2 ^ k ≤ 255 * 2 ^ 24 :=
      Nat.mul_le_mul (by omega) hpow
    exact Nat.mod_eq_of_lt (by omega)
  simp only [word32, UInt32.toNat_or, UInt8.toNat_toUInt32, UInt32.toNat_toUInt8,
    UInt32.toNat_shiftLeft, UInt32.toNat_shiftRight]
  change x.toNat % 256 ||| (x.toNat >>> 8 % 256) <<< 8 % 2 ^ 32 |||
    (x.toNat >>> 16 % 256) <<< 16 % 2 ^ 32 ||| (x.toNat >>> 24 % 256) <<< 24 % 2 ^ 32 = x.toNat
  rw [hhigh 8 (by omega), hhigh 16 (by omega), hhigh 24 (by omega)]
  simp only [Nat.shiftRight_eq_div_pow]
  rw [or_shiftLeft (k := 8) (by omega), or_shiftLeft (k := 16) (by omega),
    or_shiftLeft (k := 24) (by omega)]
  omega

end LittleEndian
