import Mathlib.Algebra.Group.Nat.Defs
import Mathlib.Data.List.Basic

/-!
# Scalars in a buffer of bytes

Little-endian numbers of a fixed width, reads of a buffer at an address, and what stays
readable while the buffer grows. A read that leaves the buffer has no result. A place is
also given by its distance from the end of the buffer, which does not change when bytes
are put in front.
-/

namespace Bytes

/-- The `width` low bytes of a number, lowest first. -/
def le : (width value : Nat) → List UInt8
  | 0, _ => []
  | width + 1, value => UInt8.ofNat value :: le width (value / 256)

def ofLe : List UInt8 → Nat
  | [] => 0
  | byte :: bytes => byte.toNat + 256 * ofLe bytes

@[simp]
theorem length_le (width value : Nat) : (le width value).length = width := by
  induction width generalizing value with
  | zero => rfl
  | succ width ih => rw [le, List.length_cons, ih]

theorem ofLe_le (width value : Nat) : ofLe (le width value) = value % 256 ^ width := by
  induction width generalizing value with
  | zero => rw [le, ofLe, Nat.pow_zero, Nat.mod_one]
  | succ width ih =>
      rw [le, ofLe, ih, Nat.pow_succ, Nat.mul_comm _ 256, Nat.mod_mul]
      simp

/-- Only the low bytes are kept. -/
theorem le_mod (width value : Nat) : le width (value % 256 ^ width) = le width value := by
  induction width generalizing value with
  | zero => rfl
  | succ width ih =>
      have hlow : UInt8.ofNat (value % 256 ^ (width + 1)) = UInt8.ofNat value := by
        apply UInt8.toNat_inj.1
        rw [UInt8.toNat_ofNat', UInt8.toNat_ofNat', Nat.pow_succ, Nat.mul_comm _ 256,
          Nat.mod_mul_right_mod]
      rw [le, le, hlow, Nat.pow_succ, Nat.mul_comm _ 256, Nat.mod_mul_right_div_self, ih]

theorem le_zero (width : Nat) : le width 0 = List.replicate width 0 := by
  induction width with
  | zero => rfl
  | succ width ih => rw [le, Nat.zero_div, ih, List.replicate_succ]; rfl

/-- The number that a word of `width` bytes stands for in two's complement. -/
def signed (width value : Nat) : Int := Int.bmod value (256 ^ width)

/-- The word of `width` bytes for a number in two's complement. -/
def unsigned (width : Nat) (value : Int) : Nat := (value % (256 ^ width : Nat)).toNat

theorem unsigned_lt (width : Nat) (value : Int) : unsigned width value < 256 ^ width := by
  have hpos : (0 : Int) < (256 ^ width : Nat) := Int.natCast_pos.2 (Nat.pow_pos (by decide))
  have hlt := Int.emod_lt_of_pos value hpos
  have hnonneg := Int.emod_nonneg value (Int.ne_of_gt hpos)
  unfold unsigned
  omega

theorem signed_unsigned {width : Nat} {value : Int} (hlow : -(256 ^ width : Nat) ≤ 2 * value)
    (hhigh : 2 * value < (256 ^ width : Nat)) : signed width (unsigned width value) = value := by
  have hpos : (0 : Int) < (256 ^ width : Nat) := Int.natCast_pos.2 (Nat.pow_pos (by decide))
  rw [signed, unsigned, Int.toNat_of_nonneg (Int.emod_nonneg value (Int.ne_of_gt hpos)),
    Int.emod_bmod]
  exact Int.bmod_eq_of_le_mul_two (by omega) (by omega)

/-- The `n` bytes at the address `p`. -/
def bytesAt (bs : List UInt8) (p n : Nat) : Option (List UInt8) :=
  if p + n ≤ bs.length then some ((bs.drop p).take n) else none

def readScalar (width : Nat) (bs : List UInt8) (p : Nat) : Option Nat :=
  (bytesAt bs p width).map ofLe

theorem bytesAt_length {bs bytes : List UInt8} {p n : Nat} (h : bytesAt bs p n = some bytes) :
    bytes.length = n := by
  unfold bytesAt at h
  split at h
  · obtain rfl := Option.some.inj h
    rw [List.length_take, List.length_drop]
    omega
  · cases h

/-- What can be read is still there when the buffer is put between others. -/
theorem bytesAt_shift {bs bytes : List UInt8} {p n : Nat} (h : bytesAt bs p n = some bytes)
    (front rest : List UInt8) :
    bytesAt (front ++ bs ++ rest) (front.length + p) n = some bytes := by
  unfold bytesAt at h ⊢
  split at h
  next hle =>
    rw [if_pos (by simp only [List.length_append]; omega), ← h, List.append_assoc,
      List.drop_append, List.drop_eq_nil_of_le (by omega), List.nil_append,
      Nat.add_sub_cancel_left, List.drop_append_of_le_length (by omega),
      List.take_append_of_le_length (by rw [List.length_drop]; omega)]
  next => cases h

theorem readScalar_shift {width p v : Nat} {bs : List UInt8}
    (h : readScalar width bs p = some v) (front rest : List UInt8) :
    readScalar width (front ++ bs ++ rest) (front.length + p) = some v := by
  unfold readScalar at h ⊢
  rw [Option.map_eq_some_iff] at h ⊢
  obtain ⟨bytes, hbytes, hv⟩ := h
  exact ⟨bytes, bytesAt_shift hbytes front rest, hv⟩

/-- The bytes stand at the distance `o` from the end of the buffer. -/
def Holds (b : List UInt8) (o : Nat) (bytes : List UInt8) : Prop :=
  ∃ front rest, b = front ++ bytes ++ rest ∧ o = bytes.length + rest.length

namespace Holds

variable {b bytes : List UInt8} {o : Nat}

theorem le_length (h : Holds b o bytes) : o ≤ b.length := by
  obtain ⟨front, rest, rfl, rfl⟩ := h
  simp only [List.length_append]
  omega

theorem length_le (h : Holds b o bytes) : bytes.length ≤ o := by
  obtain ⟨front, rest, rfl, rfl⟩ := h
  omega

theorem push (bytes b : List UInt8) : Holds (bytes ++ b) (bytes.length + b.length) bytes :=
  ⟨[], b, by rw [List.nil_append], rfl⟩

theorem prepend (h : Holds b o bytes) (front : List UInt8) : Holds (front ++ b) o bytes := by
  obtain ⟨front', rest, rfl, rfl⟩ := h
  exact ⟨front ++ front', rest, by simp only [List.append_assoc], rfl⟩

theorem bytesAt (h : Holds b o bytes) :
    bytesAt b (b.length - o) bytes.length = some bytes := by
  obtain ⟨front, rest, rfl, rfl⟩ := h
  have hfront : (front ++ bytes ++ rest).length - (bytes.length + rest.length) =
      front.length := by
    simp only [List.length_append]
    omega
  unfold Bytes.bytesAt
  rw [hfront, if_pos (by simp only [List.length_append]; omega), List.append_assoc,
    List.drop_left, List.take_left]

theorem readScalar {width v : Nat} (h : Holds b o (le width v)) (hv : v < 256 ^ width) :
    readScalar width b (b.length - o) = some v := by
  have hbytes := h.bytesAt
  rw [Bytes.length_le] at hbytes
  rw [Bytes.readScalar, hbytes, Option.map_some, ofLe_le, Nat.mod_eq_of_lt hv]

theorem readScalar_two {v : Nat} (h : Holds b o (le 2 v)) (hv : v < 65536) :
    Bytes.readScalar 2 b (b.length - o) = some v :=
  h.readScalar (Nat.lt_of_lt_of_eq hv rfl)

theorem readScalar_four {v : Nat} (h : Holds b o (le 4 v)) (hv : v < 4294967296) :
    Bytes.readScalar 4 b (b.length - o) = some v :=
  h.readScalar (Nat.lt_of_lt_of_eq hv rfl)

end Holds

/-- What was read at a distance from the end stands there. -/
theorem holds_of_bytesAt {b bytes : List UInt8} {o n : Nat} (ho : o ≤ b.length)
    (h : bytesAt b (b.length - o) n = some bytes) : Holds b o bytes := by
  have hlength := bytesAt_length h
  unfold bytesAt at h
  split at h
  next hle =>
    obtain rfl := Option.some.inj h
    refine ⟨b.take (b.length - o), (b.drop (b.length - o)).drop n, ?_, ?_⟩
    · rw [List.append_assoc, List.take_append_drop, List.take_append_drop]
    · rw [hlength, List.length_drop, List.length_drop]
      omega
  next => cases h

/-- Bytes close enough to the end were there before something was put in front. -/
theorem Holds.of_append {front b bytes : List UInt8} {o : Nat} (h : Holds (front ++ b) o bytes)
    (ho : o ≤ b.length) : Holds b o bytes := by
  have hbytes := h.bytesAt
  have hle := h.length_le
  have hplace : (front ++ b).length - o = front.length + (b.length - o) := by
    rw [List.length_append]
    omega
  refine holds_of_bytesAt ho (n := bytes.length) ?_
  rw [← hbytes, hplace]
  unfold Bytes.bytesAt
  rw [if_pos (by omega), if_pos (by rw [List.length_append]; omega),
    List.drop_length_add_append]

/-- The buffer with bytes overwritten from the address `i` on. -/
def write (i : Nat) (bytes b : List UInt8) : List UInt8 :=
  b.take i ++ bytes ++ b.drop (i + bytes.length)

theorem length_write {i : Nat} {bytes b : List UInt8} (h : i + bytes.length ≤ b.length) :
    (write i bytes b).length = b.length := by
  simp only [write, List.length_append, List.length_take, List.length_drop]
  omega

theorem write_append_left {i : Nat} {bytes b : List UInt8} (h : i + bytes.length ≤ b.length)
    (rest : List UInt8) : write i bytes (b ++ rest) = write i bytes b ++ rest := by
  simp only [write, List.append_assoc]
  rw [List.take_append_of_le_length (by omega), List.drop_append_of_le_length (by omega)]

theorem write_append_right (front : List UInt8) (i : Nat) (bytes b : List UInt8) :
    write (front.length + i) bytes (front ++ b) = front ++ write i bytes b := by
  simp only [write, List.append_assoc]
  rw [List.take_append, List.take_of_length_le (by omega), List.drop_append,
    List.drop_eq_nil_of_le (by omega), List.nil_append, List.append_assoc]
  congr 4 <;> omega

/-- The first bytes overwritten. -/
theorem write_zero {old bytes : List UInt8} (h : bytes.length = old.length)
    (rest : List UInt8) : write 0 bytes (old ++ rest) = bytes ++ rest := by
  simp only [write, List.take_zero, List.nil_append, Nat.zero_add]
  rw [h, List.drop_left]

theorem bytesAt_write {i : Nat} {bytes b : List UInt8} (h : i + bytes.length ≤ b.length) :
    bytesAt (write i bytes b) i bytes.length = some bytes := by
  have hlength := length_write h
  unfold bytesAt
  rw [if_pos (by omega), write, List.append_assoc, List.drop_append_of_le_length
    (by rw [List.length_take]; omega), List.drop_eq_nil_of_le (by rw [List.length_take]; omega),
    List.nil_append, List.take_left]

/-- Two ranges of addresses that do not meet. -/
theorem bytesAt_write_of_disjoint {i j n : Nat} {bytes b : List UInt8}
    (h : i + bytes.length ≤ b.length) (hj : j + n ≤ i ∨ i + bytes.length ≤ j) :
    bytesAt (write i bytes b) j n = bytesAt b j n := by
  unfold bytesAt
  rw [length_write h]
  split
  next hle =>
    congr 1
    apply List.ext_getElem?
    intro k
    simp only [List.getElem?_take, List.getElem?_drop, write]
    split
    next hk =>
      rcases hj with hj | hj
      · rw [List.append_assoc, List.getElem?_append_left (by rw [List.length_take]; omega),
          List.getElem?_take, if_pos (by omega)]
      · rw [List.getElem?_append_right
          (by simp only [List.length_append, List.length_take]; omega), List.getElem?_drop]
        congr 1
        simp only [List.length_append, List.length_take]
        omega
    next => rfl
  next => rfl

end Bytes
