import FusedGemm.Tensor.Basic

/-!
# Tensors as bytes

A device holds the bytes of a tensor's storage: the codes one after the other, each with its lowest
byte first.  `Tensor.bytes` writes them and `Tensor.withBytes` reads them back; the two are inverse
(`withBytes_bytes`, `bytes_withBytes`).
-/

namespace FusedGemm

/-! ## Naturals -/

/-- The lowest `k` bytes of a natural, the lowest first. -/
def littleEndian : Nat → Nat → List UInt8
  | 0, _ => []
  | k + 1, n => UInt8.ofNat n :: littleEndian k (n / 256)

/-- The natural that bytes stand for, the lowest byte first. -/
def ofLittleEndian : List UInt8 → Nat
  | [] => 0
  | b :: bs => b.toNat + 256 * ofLittleEndian bs

@[simp] theorem length_littleEndian (k n : Nat) : (littleEndian k n).length = k := by
  induction k generalizing n with
  | zero => rfl
  | succ k ih => simp [littleEndian, ih]

theorem ofLittleEndian_littleEndian (k n : Nat) :
    ofLittleEndian (littleEndian k n) = n % 256 ^ k := by
  induction k generalizing n with
  | zero => simp [littleEndian, ofLittleEndian, Nat.mod_one]
  | succ k ih =>
    have hb : (UInt8.ofNat n).toNat = n % 256 := by simp
    rw [littleEndian, ofLittleEndian, ih, hb, Nat.pow_succ, Nat.mul_comm (256 ^ k), Nat.mod_mul]

theorem littleEndian_ofLittleEndian (bs : List UInt8) :
    littleEndian bs.length (ofLittleEndian bs) = bs := by
  induction bs with
  | nil => rfl
  | cons b bs ih =>
    have hlt := b.toNat_lt
    have hb : UInt8.ofNat (b.toNat + 256 * ofLittleEndian bs) = b := by
      apply UInt8.toNat_inj.mp
      rw [UInt8.toNat_ofNat']
      omega
    have hd : (b.toNat + 256 * ofLittleEndian bs) / 256 = ofLittleEndian bs := by omega
    rw [List.length_cons, littleEndian, ofLittleEndian, hb, hd, ih]

theorem ofLittleEndian_lt (bs : List UInt8) : ofLittleEndian bs < 256 ^ bs.length := by
  induction bs with
  | nil => simp [ofLittleEndian]
  | cons b bs ih =>
    have hlt := b.toNat_lt
    rw [ofLittleEndian, List.length_cons, Nat.pow_succ]
    omega

/-! ## Codes -/

namespace ElementType

/-- The bytes of a code. -/
def codeBytes (t : ElementType) (code : Code t) : List UInt8 := littleEndian t.size code.toNat

/-- The code that the given bytes stand for. -/
def ofCodeBytes (t : ElementType) (bs : List UInt8) : Code t := BitVec.ofNat _ (ofLittleEndian bs)

/-- The first `n` codes of a string of bytes. -/
def ofBytes (t : ElementType) : Nat → List UInt8 → List (Code t)
  | 0, _ => []
  | n + 1, bs => t.ofCodeBytes (bs.take t.size) :: t.ofBytes n (bs.drop t.size)

@[simp] theorem length_codeBytes (t : ElementType) (code : Code t) :
    (t.codeBytes code).length = t.size := length_littleEndian _ _

theorem two_pow_bits (t : ElementType) : 2 ^ t.bits = 256 ^ t.size := by
  rw [bits, Nat.pow_mul]

theorem ofCodeBytes_codeBytes (t : ElementType) (code : Code t) :
    t.ofCodeBytes (t.codeBytes code) = code := by
  apply BitVec.eq_of_toNat_eq
  have h := code.isLt
  rw [ofCodeBytes, codeBytes, ofLittleEndian_littleEndian, BitVec.toNat_ofNat, ← two_pow_bits,
    Nat.mod_mod, Nat.mod_eq_of_lt h]

theorem codeBytes_ofCodeBytes (t : ElementType) {bs : List UInt8} (h : bs.length = t.size) :
    t.codeBytes (t.ofCodeBytes bs) = bs := by
  have hlt := ofLittleEndian_lt bs
  rw [h, ← two_pow_bits] at hlt
  rw [codeBytes, ofCodeBytes, BitVec.toNat_ofNat, Nat.mod_eq_of_lt hlt, ← h,
    littleEndian_ofLittleEndian]

@[simp] theorem length_ofBytes (t : ElementType) (n : Nat) (bs : List UInt8) :
    (t.ofBytes n bs).length = n := by
  induction n generalizing bs with
  | zero => rfl
  | succ n ih => simp [ofBytes, ih]

theorem ofBytes_flatMap (t : ElementType) (codes : List (Code t)) :
    t.ofBytes codes.length (codes.flatMap t.codeBytes) = codes := by
  induction codes with
  | nil => rfl
  | cons c cs ih =>
    simp [ofBytes, ofCodeBytes_codeBytes, ih]

theorem flatMap_ofBytes (t : ElementType) (n : Nat) {bs : List UInt8}
    (h : bs.length = n * t.size) : (t.ofBytes n bs).flatMap t.codeBytes = bs := by
  induction n generalizing bs with
  | zero => simp_all [ofBytes]
  | succ n ih =>
    rw [Nat.add_mul, Nat.one_mul] at h
    rw [ofBytes, List.flatMap_cons, codeBytes_ofCodeBytes _ (by simp; omega),
      ih (by simp; omega), List.take_append_drop]

/-- The bytes of one code among those of many. -/
theorem take_drop_flatMap (t : ElementType) (codes : List (Code t)) {i : Nat}
    (h : i < codes.length) :
    ((codes.flatMap t.codeBytes).drop (i * t.size)).take t.size = t.codeBytes codes[i] := by
  induction codes generalizing i with
  | nil => exact absurd h (Nat.not_lt_zero i)
  | cons code codes ih =>
    have hlength := length_codeBytes t code
    rw [List.flatMap_cons]
    cases i with
    | zero =>
      rw [Nat.zero_mul, List.drop_zero, List.take_left' hlength]
      rfl
    | succ i =>
      have hdrop : (i + 1) * t.size = t.size + i * t.size := by
        rw [Nat.add_mul, Nat.one_mul, Nat.add_comm]
      rw [hdrop, ← List.drop_drop, List.drop_left' hlength]
      exact ih (Nat.lt_of_succ_lt_succ h)

end ElementType

/-! ## Storage -/

namespace Tensor

/-- The bytes of the storage. -/
def bytes (t : Tensor) : List UInt8 := t.codes.toList.flatMap t.type.codeBytes

/-- The tensor with the storage that the given bytes stand for. -/
def withBytes (t : Tensor) (bs : List UInt8) : Tensor :=
  t.withCodes (t.type.ofBytes t.codes.size bs).toArray

@[simp] theorem length_bytes (t : Tensor) : t.bytes.length = t.byteSize := by
  simp [bytes, byteSize, List.length_flatMap, List.map_const']

/-- Reading back what was written changes nothing. -/
theorem withBytes_bytes (t : Tensor) : t.withBytes t.bytes = t := by
  have h : t.type.ofBytes t.codes.size t.bytes = t.codes.toList := by
    rw [bytes, ← Array.length_toList, ElementType.ofBytes_flatMap]
  rw [withBytes, h]
  rfl

/-- A tensor read from bytes of the right number has those bytes. -/
theorem bytes_withBytes (t : Tensor) {bs : List UInt8} (h : bs.length = t.byteSize) :
    (t.withBytes bs).bytes = bs := by
  have := t.type.flatMap_ofBytes t.codes.size h
  simpa [bytes, withBytes, withCodes] using this

end Tensor

end FusedGemm
