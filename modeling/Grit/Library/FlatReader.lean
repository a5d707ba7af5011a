import Grit.Library.Bytes
import Mathlib.Data.List.Forall2

/-!
# Reading a FlatBuffer

The accessors of `Table`, `Vector` and `String` in `flatbuffers.h`. An object is read
at an address of the buffer and leads to other objects by distances, so that it reads
the same wherever the buffer that holds it is placed. A read has no result if an access
leaves the buffer.
-/

namespace FlatBuffers

open Bytes

/-- How an object is read at an address of a buffer. -/
abbrev Reader (α : Type) := List UInt8 → Nat → Option α

/-- The address before `p` by a signed distance. -/
def back (p : Nat) (distance : Int) : Option Nat :=
  if 0 ≤ p - distance then some (p - distance).toNat else none

def getVTable : Reader Nat := fun bs p => do
  let distance ← readScalar 4 bs p
  back p (signed 4 distance)

/-- Where the field is stored, counted from the beginning of the table; 0 if it is not. -/
def getOptionalFieldOffset (field : Nat) : Reader Nat := fun bs p => do
  let vtable ← getVTable bs p
  let vtsize ← readScalar 2 bs vtable
  if field < vtsize then readScalar 2 bs (vtable + field) else some 0

def getField (width field defaultval : Nat) : Reader Nat := fun bs p => do
  let offset ← getOptionalFieldOffset field bs p
  if offset = 0 then some defaultval else readScalar width bs (p + offset)

/-- The object that a field refers to; a field that is not stored is null. -/
def getPointer {α : Type} (field : Nat) (read : Reader α) : Reader (Option α) := fun bs p => do
  let offset ← getOptionalFieldOffset field bs p
  if offset = 0 then some none
  else do
    let distance ← readScalar 4 bs (p + offset)
    let a ← read bs (p + offset + distance)
    some (some a)

def string : Reader (List UInt8) := fun bs p => do
  let size ← readScalar 4 bs p
  bytesAt bs (p + 4) size

/-- The objects that the elements of a vector refer to, from the first on. -/
def vector {α : Type} (read : Reader α) : Reader (List α) := fun bs p => do
  let size ← readScalar 4 bs p
  (List.range size).mapM fun i => do
    let distance ← readScalar 4 bs (p + 4 + 4 * i)
    read bs (p + 4 + 4 * i + distance)

def getRoot {α : Type} (read : Reader α) (bs : List UInt8) : Option α := do
  let distance ← readScalar 4 bs 0
  read bs distance

/-- What the reader gets does not change when the buffer is put between others. -/
def Local {α : Type} (read : Reader α) : Prop :=
  ∀ bs p a front rest, read bs p = some a → read (front ++ bs ++ rest) (front.length + p) = some a

theorem back_eq_some_iff {p v : Nat} {distance : Int} :
    back p distance = some v ↔ (v : Int) = p - distance := by
  unfold back
  split
  · rw [Option.some_inj]
    omega
  · constructor
    · rintro ⟨⟩
    · omega

theorem getVTable_shift {bs : List UInt8} {p v : Nat} (h : getVTable bs p = some v)
    (front rest : List UInt8) :
    getVTable (front ++ bs ++ rest) (front.length + p) = some (front.length + v) := by
  simp only [getVTable, Option.bind_eq_bind, Option.bind_eq_some_iff, back_eq_some_iff] at h ⊢
  obtain ⟨distance, hread, h⟩ := h
  exact ⟨distance, readScalar_shift hread front rest, by omega⟩

theorem local_getOptionalFieldOffset (field : Nat) : Local (getOptionalFieldOffset field) := by
  intro bs p a front rest h
  simp only [getOptionalFieldOffset, Option.bind_eq_bind, Option.bind_eq_some_iff] at h ⊢
  obtain ⟨vtable, hvtable, vtsize, hsize, h⟩ := h
  refine ⟨_, getVTable_shift hvtable front rest, vtsize, readScalar_shift hsize front rest, ?_⟩
  split at h
  next hlt =>
    rw [if_pos hlt, Nat.add_assoc]
    exact readScalar_shift h front rest
  next hge => rwa [if_neg hge]

theorem local_getField (width field defaultval : Nat) :
    Local (getField width field defaultval) := by
  intro bs p a front rest h
  simp only [getField, Option.bind_eq_bind, Option.bind_eq_some_iff] at h ⊢
  obtain ⟨offset, hoffset, h⟩ := h
  refine ⟨offset, local_getOptionalFieldOffset field _ _ _ front rest hoffset, ?_⟩
  split at h
  next hzero => rwa [if_pos hzero]
  next hstored =>
    rw [if_neg hstored, Nat.add_assoc]
    exact readScalar_shift h front rest

theorem Local.getPointer {α : Type} {read : Reader α} (hlocal : Local read) (field : Nat) :
    Local (getPointer field read) := by
  intro bs p a front rest h
  simp only [FlatBuffers.getPointer, Option.bind_eq_bind, Option.bind_eq_some_iff] at h ⊢
  obtain ⟨offset, hoffset, h⟩ := h
  refine ⟨offset, local_getOptionalFieldOffset field _ _ _ front rest hoffset, ?_⟩
  split at h
  next hzero => rwa [if_pos hzero]
  next hstored =>
    rw [Option.bind_eq_some_iff] at h
    obtain ⟨distance, hdistance, h⟩ := h
    rw [Option.bind_eq_some_iff] at h
    obtain ⟨object, hobject, h⟩ := h
    rw [if_neg hstored, Nat.add_assoc, readScalar_shift hdistance front rest, Option.bind_some,
      Nat.add_assoc, hlocal _ _ _ front rest hobject, Option.bind_some, h]

theorem local_string : Local string := by
  intro bs p a front rest h
  simp only [string, Option.bind_eq_bind, Option.bind_eq_some_iff] at h ⊢
  obtain ⟨size, hsize, h⟩ := h
  refine ⟨size, readScalar_shift hsize front rest, ?_⟩
  rw [Nat.add_assoc]
  exact bytesAt_shift h front rest

theorem mapM_eq_some_mono {α β : Type} {f g : α → Option β}
    (h : ∀ a b, f a = some b → g a = some b) {l : List α} {l' : List β}
    (hl : l.mapM f = some l') : l.mapM g = some l' := by
  induction l generalizing l' with
  | nil => exact hl
  | cons a l ih =>
      simp only [List.mapM_cons, Option.bind_eq_bind, Option.bind_eq_some_iff] at hl ⊢
      obtain ⟨b, hb, rest, hrest, heq⟩ := hl
      exact ⟨b, h a b hb, rest, ih hrest, heq⟩

theorem Local.vector {α : Type} {read : Reader α} (hlocal : Local read) :
    Local (vector read) := by
  intro bs p l front rest h
  simp only [FlatBuffers.vector, Option.bind_eq_bind, Option.bind_eq_some_iff] at h ⊢
  obtain ⟨size, hsize, h⟩ := h
  refine ⟨size, readScalar_shift hsize front rest, mapM_eq_some_mono ?_ h⟩
  intro i a ha
  rw [Option.bind_eq_some_iff] at ha ⊢
  obtain ⟨distance, hdistance, hread⟩ := ha
  refine ⟨distance, ?_, ?_⟩
  · rw [Nat.add_assoc, Nat.add_assoc]
    exact readScalar_shift (by rwa [← Nat.add_assoc]) front rest
  · rw [Nat.add_assoc front.length, Nat.add_assoc front.length, Nat.add_assoc front.length]
    exact hlocal _ _ _ front rest hread

theorem local_pure {α : Type} (a : α) : Local (fun _ _ => some a) :=
  fun _ _ _ _ _ h => h

theorem Local.bind {α β : Type} {read : Reader α} {next : α → Reader β} (hread : Local read)
    (hnext : ∀ a, Local (next a)) :
    Local (fun bs p => (read bs p).bind fun a => next a bs p) := by
  intro bs p b front rest h
  rw [Option.bind_eq_some_iff] at h ⊢
  obtain ⟨a, ha, hb⟩ := h
  exact ⟨a, hread _ _ _ front rest ha, hnext a _ _ _ front rest hb⟩

/-- The object is read at the distance `o` from the end of the buffer. -/
def Reads {α : Type} (read : Reader α) (b : List UInt8) (o : Nat) (a : α) : Prop :=
  o ≤ b.length ∧ read b (b.length - o) = some a

namespace Reads

variable {α β : Type} {read : Reader α} {b : List UInt8} {o : Nat} {a : α}

theorem prepend (hlocal : Local read) (h : Reads read b o a) (front : List UInt8) :
    Reads read (front ++ b) o a := by
  refine ⟨by rw [List.length_append]; exact Nat.le_add_left_of_le h.1, ?_⟩
  have hshift := hlocal _ _ _ front [] h.2
  rwa [List.append_nil, ← Nat.add_sub_assoc h.1, ← List.length_append] at hshift

/-- Several things read from one object. -/
theorem bind {next : α → Reader β} {c : β} (h : Reads read b o a)
    (hnext : Reads (next a) b o c) :
    Reads (fun bs p => (read bs p).bind fun a => next a bs p) b o c :=
  ⟨h.1, by simp only [h.2, Option.bind_some, hnext.2]⟩

theorem done (ho : o ≤ b.length) : Reads (fun _ _ => some a) b o a := ⟨ho, rfl⟩

end Reads

section Table

variable {α : Type} {read : Reader α} {b : List UInt8} {o v n s field : Nat}

/-- The entry of a field in the vtable of a table. -/
theorem reads_getOptionalFieldOffset {pos : Nat} (hword : Holds b o (le 4 s))
    (hs : s < 4294967296) (hv : v ≤ b.length) (hdistance : signed 4 s = (v : Int) - o)
    (hsize : Holds b v (le 2 n)) (hn : n < 65536) (hpos : pos < 65536)
    (hslot : field < n → Holds b (v - field) (le 2 pos)) (hshort : n ≤ field → pos = 0)
    (hfit : n ≤ v) : Reads (getOptionalFieldOffset field) b o pos := by
  have ho := hword.le_length
  refine ⟨ho, ?_⟩
  have hvtable : getVTable b (b.length - o) = some (b.length - v) := by
    rw [getVTable, hword.readScalar_four hs, Option.bind_eq_bind, Option.bind_some, hdistance,
      back_eq_some_iff]
    omega
  rw [getOptionalFieldOffset, hvtable]
  simp only [Option.bind_eq_bind, Option.bind_some, hsize.readScalar_two hn]
  split
  next hlt =>
    have hplace : b.length - v + field = b.length - (v - field) := by omega
    rw [hplace, (hslot hlt).readScalar_two hpos]
  next hge => rw [hshort (by omega)]

theorem reads_getField_of_absent (width defaultval : Nat)
    (h : Reads (getOptionalFieldOffset field) b o 0) :
    Reads (getField width field defaultval) b o defaultval :=
  ⟨h.1, by rw [getField, h.2]; rfl⟩

theorem reads_getPointer_of_absent (read : Reader α)
    (h : Reads (getOptionalFieldOffset field) b o 0) :
    Reads (getPointer field read) b o none :=
  ⟨h.1, by rw [getPointer, h.2]; rfl⟩

theorem reads_getField {width value off : Nat} (defaultval : Nat) (hlt : off < o)
    (h : Reads (getOptionalFieldOffset field) b o (o - off)) (hword : Holds b off (le width value))
    (hvalue : value < 256 ^ width) : Reads (getField width field defaultval) b o value := by
  refine ⟨h.1, ?_⟩
  rw [getField, h.2]
  simp only [Option.bind_eq_bind, Option.bind_some]
  have ho := h.1
  have hplace : b.length - o + (o - off) = b.length - off := by omega
  rw [if_neg (by omega), hplace, hword.readScalar hvalue]

theorem reads_getPointer {off target : Nat} {a : α} (hlt : off < o) (htarget : target ≤ off)
    (h : Reads (getOptionalFieldOffset field) b o (o - off))
    (hword : Holds b off (le 4 (off - target))) (hoff : off < 4294967296)
    (hread : Reads read b target a) : Reads (getPointer field read) b o (some a) := by
  have ho := h.1
  refine ⟨ho, ?_⟩
  have hplace : b.length - o + (o - off) = b.length - off := by omega
  have hnext : b.length - off + (off - target) = b.length - target := by omega
  rw [getPointer, h.2]
  simp only [Option.bind_eq_bind, Option.bind_some]
  rw [if_neg (by omega), hplace, hword.readScalar_four (by omega), Option.bind_some, hnext, hread.2,
    Option.bind_some]

end Table

end FlatBuffers
