import Mathlib.Data.Int.Basic
import Mathlib.Data.List.Basic
import Mathlib.Tactic.NormNum

/-! # Numbers of fixed width

A natural number of `w` bytes in either order of the bytes, and the signed
numbers that the same bytes stand for.
-/

/-- The `w` lowest bytes, the lowest first. -/
def littleEndian : ℕ → ℕ → List UInt8
  | 0, _ => []
  | w + 1, n => UInt8.ofNat n :: littleEndian w (n / 256)

def ofLittleEndian : List UInt8 → ℕ
  | [] => 0
  | b :: bs => b.toNat + 256 * ofLittleEndian bs

/-- The `w` lowest bytes, the highest first. -/
def bigEndian (w n : ℕ) : List UInt8 := (littleEndian w n).reverse

def ofBigEndian (bs : List UInt8) : ℕ := ofLittleEndian bs.reverse

@[simp] theorem length_littleEndian (w n : ℕ) : (littleEndian w n).length = w := by
  induction w generalizing n with
  | zero => rfl
  | succ w ih => rw [littleEndian, List.length_cons, ih]

@[simp] theorem length_bigEndian (w n : ℕ) : (bigEndian w n).length = w := by
  rw [bigEndian, List.length_reverse, length_littleEndian]

theorem ofLittleEndian_littleEndian (w n : ℕ) : ofLittleEndian (littleEndian w n) = n % 256 ^ w := by
  induction w generalizing n with
  | zero => rw [littleEndian, ofLittleEndian, pow_zero, Nat.mod_one]
  | succ w ih =>
    rw [littleEndian, ofLittleEndian, ih, pow_succ', Nat.mod_mul]
    rfl

theorem ofBigEndian_bigEndian (w n : ℕ) : ofBigEndian (bigEndian w n) = n % 256 ^ w := by
  rw [ofBigEndian, bigEndian, List.reverse_reverse, ofLittleEndian_littleEndian]

theorem littleEndian_ofLittleEndian (bs : List UInt8) :
    littleEndian bs.length (ofLittleEndian bs) = bs := by
  induction bs with
  | nil => rfl
  | cons b bs ih =>
    have hlow : (b.toNat + 256 * ofLittleEndian bs) / 256 = ofLittleEndian bs := by
      have := b.toNat_lt
      omega
    have hbyte : UInt8.ofNat (b.toNat + 256 * ofLittleEndian bs) = b := by
      apply UInt8.toNat.inj
      have := b.toNat_lt
      simp
    rw [List.length_cons, ofLittleEndian, littleEndian, hlow, hbyte, ih]

theorem bigEndian_ofBigEndian (bs : List UInt8) : bigEndian bs.length (ofBigEndian bs) = bs := by
  rw [bigEndian, ofBigEndian, ← List.length_reverse, littleEndian_ofLittleEndian, List.reverse_reverse]

theorem ofLittleEndian_lt (bs : List UInt8) : ofLittleEndian bs < 256 ^ bs.length := by
  have h := ofLittleEndian_littleEndian bs.length (ofLittleEndian bs)
  rw [littleEndian_ofLittleEndian] at h
  rw [h]
  exact Nat.mod_lt _ (Nat.pow_pos (by decide))

theorem ofBigEndian_lt (bs : List UInt8) : ofBigEndian bs < 256 ^ bs.length := by
  rw [ofBigEndian, ← List.length_reverse]
  exact ofLittleEndian_lt _

/-! ## Signed numbers -/

/-- The signed number that `w` bytes stand for. -/
def signed (w n : ℕ) : ℤ := (n : ℤ).bmod (256 ^ w)

/-- The `w` bytes of a signed number, as a natural number. -/
def unsigned (w : ℕ) (z : ℤ) : ℕ := (z % (256 ^ w : ℕ)).toNat

/-- The number is one of `w` signed bytes. -/
def FitsSigned (w : ℕ) (z : ℤ) : Prop := -(256 ^ w : ℕ) ≤ z * 2 ∧ z * 2 < (256 ^ w : ℕ)

instance (w : ℕ) (z : ℤ) : Decidable (FitsSigned w z) := inferInstanceAs (Decidable (_ ∧ _))

theorem unsigned_lt (w : ℕ) (z : ℤ) : unsigned w z < 256 ^ w := by
  have hpos : (0 : ℤ) < (256 ^ w : ℕ) := by exact_mod_cast Nat.pow_pos (by decide)
  have := Int.emod_lt_of_pos z hpos
  unfold unsigned
  omega

theorem signed_unsigned {w : ℕ} {z : ℤ} (h : FitsSigned w z) : signed w (unsigned w z) = z := by
  have hpos : (0 : ℤ) < (256 ^ w : ℕ) := by exact_mod_cast Nat.pow_pos (by decide)
  rw [signed, unsigned, Int.toNat_of_nonneg (Int.emod_nonneg _ hpos.ne'), Int.emod_bmod]
  exact Int.bmod_eq_of_le_mul_two h.1 h.2

theorem fitsSigned_signed (w n : ℕ) : FitsSigned w (signed w n) := by
  have hpos : 0 < 256 ^ w := Nat.pow_pos (by decide)
  have hle := Int.le_bmod (x := n) hpos
  have hlt := Int.bmod_lt (x := n) hpos
  unfold FitsSigned signed
  omega

theorem unsigned_signed {w n : ℕ} (h : n < 256 ^ w) : unsigned w (signed w n) = n := by
  rw [unsigned, signed, Int.bmod_emod, Int.emod_eq_of_lt (by omega) (by omega), Int.toNat_natCast]
