import Grit.Library.FlatReader

/-!
# Building a FlatBuffer

`FlatBufferBuilder` of `flatbuffers.h` with the buffer `vector_downward` that it writes
from the end to the front. An offset counts from the end of the buffer and stays valid
while the buffer grows. An assertion that fails ends the program, if the assertions are
compiled in. Each time room is made, the size of the buffer is checked; `checked` is what
calls give that check it at no more than some `peak`.
-/

namespace FlatBuffers

open Bytes

/-- `PaddingBytes` on the 64-bit `size_t`. -/
def paddingBytes (bufSize scalarSize : Nat) : Nat :=
  ((~~~(BitVec.ofNat 64 bufSize) + 1#64) &&& (BitVec.ofNat 64 scalarSize - 1#64)).toNat

/-- `FLATBUFFERS_MAX_BUFFER_SIZE`. -/
def maxBufferSize : Nat := 2147483647

/-- The bytes from `cur_` to the end, and the scratch area as its two parts: the offsets of
the vtables, and for each field of the open table where it was written (`FieldLoc`). -/
structure Builder where
  buf : List UInt8
  fields : List (Nat × Nat)
  vtables : List Nat
  nested : Bool
  minalign : Nat
deriving DecidableEq

/-- A builder as its constructor leaves it. -/
def Builder.init : Builder :=
  { buf := [], fields := [], vtables := [], nested := false, minalign := 1 }

/-- Calls of a builder, which depend on whether the assertions are compiled in. -/
abbrev Build := ReaderT Bool (StateT Builder Option)

/-- `FLATBUFFERS_ASSERT`. -/
def assertThat (holds : Builder → Bool) : Build Unit := fun asserts b =>
  if asserts && !holds b then none else some ((), b)

def getSize : Build Nat := fun _ b => some (b.buf.length, b)

def ensureSpace : Build Unit := assertThat fun b => decide (b.buf.length < maxBufferSize)

/-- `make_space` and the write into the space. -/
def makeSpace (bytes : List UInt8) : Build Unit := do
  ensureSpace
  modify fun b => { b with buf := bytes ++ b.buf }

def fill (zeroPadBytes : Nat) : Build Unit := makeSpace (List.replicate zeroPadBytes 0)

def pushBytes (bytes : List UInt8) : Build Unit :=
  if bytes = [] then pure () else makeSpace bytes

def trackMinAlign (elemSize : Nat) : Build Unit :=
  modify fun b => { b with minalign := max b.minalign elemSize }

/-- Pads so that the buffer is aligned once `len` more bytes are written. -/
def preAlign (len alignment : Nat) : Build Unit := do
  trackMinAlign alignment
  let size ← getSize
  fill (paddingBytes (size + len) alignment)

def align (elemSize : Nat) : Build Unit := preAlign 0 elemSize

def pushElement (width element : Nat) : Build Nat := do
  align width
  makeSpace (le width element)
  getSize

def trackField (field off : Nat) : Build Unit := do
  ensureSpace
  modify fun b => { b with fields := b.fields ++ [(off, field)] }

/-- A value equal to the default is not stored. -/
def addElement (width field e def' : Nat) : Build Unit :=
  if e = def' then pure ()
  else do
    let off ← pushElement width e
    trackField field off

/-- Turns an offset into the distance from the word that is pushed next, as a `uoffset_t`. -/
def referTo (off : Nat) : Build Nat := do
  align 4
  assertThat fun b => decide (off ≠ 0 ∧ off ≤ b.buf.length)
  let size ← getSize
  return unsigned 4 ((size : Int) - off + 4)

/-- A null offset is not stored. -/
def addOffset (field off : Nat) : Build Unit :=
  if off = 0 then pure ()
  else do
    let distance ← referTo off
    addElement 4 field distance 0

def notNested : Build Unit := do
  assertThat fun b => !b.nested
  assertThat fun b => b.fields.isEmpty

def startTable : Build Nat := do
  notNested
  modify fun b => { b with nested := true }
  getSize

/-- Writes into the vtable at the front of the buffer where the fields are. -/
def writeFields (vtableoffsetloc : Nat) : List (Nat × Nat) → Build Unit
  | [] => pure ()
  | (off, id) :: fields => do
      assertThat fun b => decide (readScalar 2 b.buf id = some 0)
      modify fun b => { b with buf := write id (le 2 (vtableoffsetloc - off)) b.buf }
      writeFields vtableoffsetloc fields

/-- The vtable with the offset `vt2` is the one at the front of the buffer. -/
def sameVTable (buf : List UInt8) (vt1Size vt2 : Nat) : Bool :=
  readScalar 2 buf (buf.length - vt2) = some vt1Size &&
    bytesAt buf (buf.length - vt2) vt1Size = bytesAt buf 0 vt1Size

/-- Looks for an older vtable like the new one; if there is one the new one is removed. -/
def dedupVTable (vtableoffsetloc vt1Size : Nat) : Build Nat := fun _ b =>
  match b.vtables.find? (sameVTable b.buf vt1Size) with
  | some vtUse => some (vtUse, { b with buf := b.buf.drop (b.buf.length - vtableoffsetloc) })
  | none => some (b.buf.length, b)

/-- The highest field that was written; `max_voffset_`. -/
def maxVoffset (fields : List (Nat × Nat)) : Nat := fields.foldr (fun f m => max f.2 m) 0

/-- The size of the vtable for these fields. -/
def vtableSize (fields : List (Nat × Nat)) : Nat := max (maxVoffset fields + 2) 4

/-- The part of `EndTable` that puts a vtable in front of the table. -/
def newVTable (start vtableoffsetloc : Nat) (fields : List (Nat × Nat)) : Build Unit := do
  fill (vtableSize fields)
  let tableObjectSize := vtableoffsetloc - start
  assertThat fun _ => decide (tableObjectSize < 0x10000)
  modify fun b => { b with buf := write 2 (le 2 tableObjectSize) b.buf }
  modify fun b => { b with buf := write 0 (le 2 (vtableSize fields)) b.buf }
  writeFields vtableoffsetloc fields
  modify fun b => { b with fields := [] }

/-- A new vtable is remembered in the scratch area. -/
def rememberVTable (vtUse : Nat) : Build Unit := do
  let size ← getSize
  if vtUse = size then
    ensureSpace
    modify fun b => { b with vtables := b.vtables ++ [vtUse] }

/-- The last part of `EndTable`: the vtable of the table is chosen, and the word at the
beginning of the table gets the distance to it. -/
def closeTable (vtableoffsetloc vt1Size : Nat) : Build Unit := do
  let vtUse ← dedupVTable vtableoffsetloc vt1Size
  rememberVTable vtUse
  modify fun b =>
    { b with
      buf := write (b.buf.length - vtableoffsetloc)
        (le 4 (unsigned 4 ((vtUse : Int) - vtableoffsetloc))) b.buf
      nested := false }

def endTable (start : Nat) : Build Nat := do
  assertThat fun b => b.nested
  let vtableoffsetloc ← pushElement 4 0
  let b ← get
  newVTable start vtableoffsetloc b.fields
  closeTable vtableoffsetloc (vtableSize b.fields)
  return vtableoffsetloc

def createString (str : List UInt8) : Build Nat := do
  notNested
  preAlign (str.length + 1) 4
  fill 1
  pushBytes str
  let _ ← pushElement 4 str.length
  getSize

/-- The loop of `CreateVector`, from the last element to the first. -/
def pushOffsets : List Nat → Build Unit
  | [] => pure ()
  | off :: offs => do
      pushOffsets offs
      let distance ← referTo off
      let _ ← pushElement 4 distance

def startVector (len elemsize : Nat) : Build Unit := do
  notNested
  modify fun b => { b with nested := true }
  preAlign (len * elemsize) 4
  preAlign (len * elemsize) elemsize

def endVector (len : Nat) : Build Nat := do
  assertThat fun b => b.nested
  modify fun b => { b with nested := false }
  pushElement 4 len

def createVector (offs : List Nat) : Build Nat := do
  startVector offs.length 4
  pushOffsets offs
  endVector offs.length

def finish (root : Nat) : Build Unit := do
  notNested
  modify fun b => { b with vtables := [] }
  let b ← get
  preAlign 4 b.minalign
  let distance ← referTo root
  let _ ← pushElement 4 distance

/-- A call that adds a field to the open table. -/
inductive Add where
  | element (width field e def' : Nat)
  | offset (field off : Nat)
deriving DecidableEq, Repr

def add : Add → Build Unit
  | .element width field e def' => addElement width field e def'
  | .offset field off => addOffset field off

def addAll : List Add → Build Unit
  | [] => pure ()
  | a :: adds => do
      add a
      addAll adds

/-- What the generated `Create` functions do: a table with some fields. -/
def table (adds : List Add) : Build Nat := do
  let start ← startTable
  addAll adds
  endTable start

/-! ### Steps of a builder -/

theorem paddingBytes_le (n w : Nat) : paddingBytes n w ≤ (BitVec.ofNat 64 w - 1#64).toNat := by
  unfold paddingBytes
  rw [BitVec.toNat_and]
  exact Nat.and_le_right

theorem paddingBytes_four (n : Nat) : paddingBytes n 4 = (4 - n % 4) % 4 := by
  have hmask : (BitVec.ofNat 64 4 - 1#64).toNat = 2 ^ 2 - 1 := by decide
  unfold paddingBytes
  rw [← BitVec.neg_eq_not_add, BitVec.toNat_and, hmask, Nat.and_two_pow_sub_one_eq_mod,
    BitVec.toNat_neg, BitVec.toNat_ofNat]
  omega

theorem paddingBytes_one (n : Nat) : paddingBytes n 1 = 0 := by
  have h := paddingBytes_le n 1
  exact Nat.le_zero.1 h

section Run
variable {b b' : Builder} {α β : Type} {asserts : Bool}

/-- The outcome of calls that check the size of the buffer, at `peak` at most. -/
def checked (asserts : Bool) (peak : Nat) (r : α × Builder) : Option (α × Builder) :=
  if asserts = true ∧ maxBufferSize ≤ peak then none else some r

theorem checked_zero (r : α × Builder) : checked asserts 0 r = some r :=
  if_neg fun h => absurd h.2 (by decide)

theorem checked_false (peak : Nat) (r : α × Builder) : checked false peak r = some r :=
  if_neg fun h => absurd h.1 (by decide)

theorem checked_true (peak : Nat) (r : α × Builder) :
    checked true peak r = if maxBufferSize ≤ peak then none else some r := by
  simp [checked]

theorem run_bind_of {x : Build α} {f : α → Build β} {a : α} (h : x asserts b = some (a, b')) :
    (x >>= f) asserts b = f a asserts b' := by
  show (x asserts b).bind (fun p => f p.1 asserts p.2) = f a asserts b'
  rw [h, Option.bind_some]

theorem run_bind_none {x : Build α} (f : α → Build β) (h : x asserts b = none) :
    (x >>= f) asserts b = none := by
  show (x asserts b).bind (fun p => f p.1 asserts p.2) = none
  rw [h, Option.bind_none]

/-- Calls that succeed are made one after the other. -/
theorem bind_eq_some {x : Build α} {f : α → Build β} {r : β × Builder} :
    (x >>= f) asserts b = some r ↔
      ∃ a b', x asserts b = some (a, b') ∧ f a asserts b' = some r := by
  show (x asserts b).bind (fun p => f p.1 asserts p.2) = some r ↔ _
  rw [Option.bind_eq_some_iff, Prod.exists]

theorem run_bind_max {x : Build α} {f : α → Build β} {a : α} {p q : Nat} {r : β × Builder}
    (hx : x asserts b = checked asserts p (a, b')) (hf : f a asserts b' = checked asserts q r) :
    (x >>= f) asserts b = checked asserts (max p q) r := by
  cases asserts with
  | false =>
      rw [checked_false] at hx hf ⊢
      rw [run_bind_of hx, hf]
  | true =>
      rw [checked_true] at hx hf ⊢
      by_cases h : maxBufferSize ≤ p
      · rw [if_pos h] at hx
        rw [run_bind_none f hx, if_pos (Nat.le_trans h (Nat.le_max_left p q))]
      · rw [if_neg h] at hx
        have hq : maxBufferSize ≤ max p q ↔ maxBufferSize ≤ q := by omega
        rw [run_bind_of hx, hf]
        simp only [hq]

/-- The size only grows, so that the later check is the one that counts. -/
theorem run_bind_next {x : Build α} {f : α → Build β} {a : α} {p q : Nat} {r : β × Builder}
    (hx : x asserts b = checked asserts p (a, b')) (hf : f a asserts b' = checked asserts q r)
    (hpq : p ≤ q) : (x >>= f) asserts b = checked asserts q r := by
  have h := run_bind_max hx hf
  rwa [Nat.max_eq_right hpq] at h

theorem run_bind_last {x : Build α} {f : α → Build β} {a : α} {p : Nat} {r : β × Builder}
    (hx : x asserts b = checked asserts p (a, b')) (hf : f a asserts b' = some r) :
    (x >>= f) asserts b = checked asserts p r := by
  have h := run_bind_max hx (hf.trans (checked_zero r).symm)
  rwa [Nat.max_zero] at h

theorem run_pure (a : α) : (pure a : Build α) asserts b = some (a, b) := rfl
theorem run_modify (f : Builder → Builder) :
    (modify f : Build Unit) asserts b = some ((), f b) := rfl
theorem run_get : (get : Build Builder) asserts b = some (b, b) := rfl
theorem run_getSize : getSize asserts b = some (b.buf.length, b) := rfl

theorem run_assertThat {holds : Builder → Bool} (h : asserts = true → holds b = true) :
    assertThat holds asserts b = some ((), b) := by
  unfold assertThat
  cases asserts with
  | false => rfl
  | true => rw [h rfl]; rfl

theorem run_ensureSpace : ensureSpace asserts b = checked asserts b.buf.length ((), b) := by
  unfold ensureSpace assertThat checked
  cases asserts with
  | false => rfl
  | true =>
      by_cases h : b.buf.length < maxBufferSize
      · simp [h]
      · simp [h, Nat.le_of_not_lt h]

theorem run_makeSpace (bytes : List UInt8) :
    makeSpace bytes asserts b =
      checked asserts b.buf.length ((), { b with buf := bytes ++ b.buf }) :=
  run_bind_last run_ensureSpace (run_modify _)

/-- No room is made for an empty string. -/
theorem run_pushBytes (bytes : List UInt8) :
    pushBytes bytes asserts b = checked asserts (if bytes = [] then 0 else b.buf.length)
      ((), { b with buf := bytes ++ b.buf }) := by
  unfold pushBytes
  split
  next hnil => rw [hnil, run_pure, checked_zero, List.nil_append]
  next => exact run_makeSpace bytes

def Builder.aligned (b : Builder) (len alignment : Nat) : Builder :=
  { b with
    buf := List.replicate (paddingBytes (b.buf.length + len) alignment) 0 ++ b.buf
    minalign := max b.minalign alignment }

theorem Builder.length_aligned (b : Builder) (len alignment : Nat) :
    (b.aligned len alignment).buf.length =
      paddingBytes (b.buf.length + len) alignment + b.buf.length := by
  rw [Builder.aligned, List.length_append, List.length_replicate]

theorem run_preAlign (len alignment : Nat) :
    preAlign len alignment asserts b =
      checked asserts b.buf.length ((), b.aligned len alignment) := by
  unfold preAlign trackMinAlign fill
  rw [run_bind_of (run_modify _), run_bind_of run_getSize]
  exact run_makeSpace _

/-- The offset of the scalar that is pushed next. -/
def Builder.next (b : Builder) (width : Nat) : Nat :=
  width + (b.aligned 0 width).buf.length

/-- The builder after a scalar was pushed. -/
def Builder.push (b : Builder) (width element : Nat) : Builder :=
  { b.aligned 0 width with buf := le width element ++ (b.aligned 0 width).buf }

theorem Builder.le_length_aligned (b : Builder) (len alignment : Nat) :
    b.buf.length ≤ (b.aligned len alignment).buf.length := by
  rw [b.length_aligned]
  exact Nat.le_add_left _ _

theorem Builder.length_aligned_le (b : Builder) (len : Nat) {width : Nat}
    (hwidth : width = 1 ∨ width = 4) :
    (b.aligned len width).buf.length ≤ b.buf.length + 3 := by
  rw [b.length_aligned]
  rcases hwidth with rfl | rfl
  · rw [paddingBytes_one]
    omega
  · rw [paddingBytes_four]
    omega

theorem Builder.length_push (b : Builder) (width element : Nat) :
    (b.push width element).buf.length = b.next width := by
  rw [Builder.push, Builder.next, List.length_append, Bytes.length_le]

theorem Builder.buf_push (b : Builder) (width element : Nat) :
    ∃ front, (b.push width element).buf = front ++ b.buf := by
  refine ⟨le width element ++ List.replicate (paddingBytes (b.buf.length + 0) width) 0, ?_⟩
  rw [List.append_assoc]
  rfl

theorem Builder.next_bounds (b : Builder) {width : Nat} (hwidth : width = 1 ∨ width = 4) :
    b.buf.length + width ≤ b.next width ∧ b.next width ≤ b.buf.length + width + 3 := by
  have hle := b.length_aligned_le 0 hwidth
  have hge := b.le_length_aligned 0 width
  unfold Builder.next
  omega

theorem Builder.holds_push (b : Builder) (width element : Nat) :
    Holds (b.push width element).buf (b.next width) (le width element) := by
  have h := Holds.push (le width element) (b.aligned 0 width).buf
  rwa [Bytes.length_le] at h

theorem run_pushElement (width element : Nat) :
    pushElement width element asserts b = checked asserts (b.aligned 0 width).buf.length
      (b.next width, b.push width element) := by
  refine run_bind_next (run_preAlign 0 width) (run_bind_last (run_makeSpace _) ?_)
    (b.le_length_aligned 0 width)
  rw [← b.length_push width element]
  rfl

/-- Aligning twice is aligning once. -/
theorem Builder.aligned_aligned (b : Builder) (len : Nat) :
    (b.aligned len 4).aligned len 4 = b.aligned len 4 := by
  have hpad : paddingBytes ((b.aligned len 4).buf.length + len) 4 = 0 := by
    rw [b.length_aligned, paddingBytes_four, paddingBytes_four]
    omega
  unfold Builder.aligned at hpad ⊢
  simp only at hpad ⊢
  rw [hpad, List.replicate_zero, List.nil_append, Nat.max_assoc, Nat.max_self]

theorem unsigned_natCast {n : Nat} (h : n < 4294967296) : unsigned 4 (n : Int) = n := by
  have hmod : ((256 ^ 4 : Nat) : Int) = 4294967296 := rfl
  rw [unsigned, hmod]
  omega

theorem run_referTo {off : Nat} (hpos : off ≠ 0) (hoff : off ≤ b.buf.length) :
    referTo off asserts b = checked asserts b.buf.length
      (unsigned 4 ((b.next 4 - off : Nat) : Int), b.aligned 0 4) := by
  have hge := b.le_length_aligned 0 4
  refine run_bind_last (run_preAlign 0 4) ?_
  rw [run_bind_of (run_assertThat fun _ => decide_eq_true ⟨hpos, Nat.le_trans hoff hge⟩),
    run_bind_of run_getSize, run_pure]
  have hword : ((b.aligned 0 4).buf.length : Int) - off + 4 = ((b.next 4 - off : Nat) : Int) := by
    unfold Builder.next
    omega
  rw [hword]

theorem Builder.push_aligned (b : Builder) (element : Nat) :
    (b.aligned 0 4).push 4 element = b.push 4 element := by
  unfold Builder.push
  rw [b.aligned_aligned]

theorem Builder.next_aligned (b : Builder) : (b.aligned 0 4).next 4 = b.next 4 := by
  unfold Builder.next
  rw [b.aligned_aligned]

end Run

end FlatBuffers
