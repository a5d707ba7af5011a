import Grit.Message.RoundTrip

/-!
# The size of a message

How many bytes the root table of a message takes, and how many the messages that an
application sends to an entity service. Each table has a vtable of its own, as the two
vtables are of different sizes.
-/

namespace Grit.Wire

open Bytes FlatBuffers

/-- The bytes of a field of the type `int`, which is not stored if it is 0. -/
def intSize (value : Int) : Nat := if unsigned 4 value = 0 then 0 else 4

theorem intSize_mod (value : Int) : intSize value % 4 = 0 := by
  unfold intSize
  split <;> rfl

/-- The root table and the end of the buffer around a table. -/
theorem run_root (anyType : Nat) {b : Builder} {any : Nat} (hready : Ready b)
    (hany : any ≠ 0 ∧ any ≤ b.buf.length) (htype : anyType ≠ 0) (hnew : NoVTable b 8)
    (hroom : b.buf.length < maxBufferSize) :
    ∃ b', (∀ asserts, (createRootMsg anyType any >>= finish) asserts b =
        checked asserts (b'.buf.length - 4) ((), b')) ∧
      b'.buf.length = roundUp b.buf.length + 24 := by
  let adds : List Add := [.offset 6 any, .element 1 4 anyType 0]
  have hlayout : Layout (adds.map Add.field) (adds.map Add.width) :=
    show Layout [6, 4] [4, 1] by decide
  have hoffset : ¬(Add.offset 6 any).Absent := hany.1
  have helement : ¬(Add.element 1 4 anyType 0).Absent := htype
  have hvtable : vtableFor adds = 8 :=
    vtableFor_cons_of_le hoffset (show 2 ≤ 6 by decide) (by simp [Add.field])
  have hsize : sizeAfter adds b.buf.length = roundUp b.buf.length + 5 := by
    simp only [adds, sizeAfter, if_neg hoffset, if_neg helement]
    simp only [Add.width, paddingBytes_add, paddingBytes_one]
    omega
  have htargets : ∀ off ∈ [any], off ≤ b.buf.length := by simp [hany.2]
  obtain ⟨b₁, root, p, hrun, hp, htabled⟩ := run_table hready hlayout.tabular
    (fun field off h => htargets off (mem_targets h)) (by decide)
    (show 7 * 2 + 16 < 60000 by decide) hroom
  obtain ⟨hlength, -, -⟩ := htabled.fresh (hvtable.symm ▸ hnew)
  have hplace := htabled.place
  rw [hsize, paddingBytes_add] at hplace
  have hroot : root ≠ 0 ∧ root ≤ b₁.buf.length := ⟨by omega, by omega⟩
  obtain ⟨hfinish, -, hge, -⟩ := run_finish htabled.grows.ready hroot
  refine ⟨b₁.finished root, fun asserts => run_bind_next (hrun asserts) (hfinish asserts)
    (by omega), ?_⟩
  rw [b₁.length_finished root htabled.minalign, hlength, hplace, hvtable]
  simp only [roundUp]
  omega

/-- A buffer that holds nothing but strings. -/
structure Plain (b : Builder) : Prop where
  ready : Ready b
  vtables : b.vtables = []
  aligned : b.buf.length % 4 = 0

theorem plain_init : Plain Builder.init := ⟨ready_init, rfl, rfl⟩

theorem Plain.withString {b : Builder} (h : Plain b) (str : List UInt8) :
    Plain (b.withString str) where
  ready := (Builder.grows_withString h.ready str).ready
  vtables := h.vtables
  aligned := by
    rw [b.length_withString_eq, afterString, roundUp]
    omega

theorem Plain.run_createString {b : Builder} (h : Plain b) (str : List UInt8) :
    FlatBuffers.createString str true b =
      if afterString str.length b.buf.length ≤ 2147483648
      then some (afterString str.length b.buf.length, b.withString str) else none := by
  have hlast : maxBufferSize ≤ afterString str.length b.buf.length - 4 ↔
      ¬ afterString str.length b.buf.length ≤ 2147483648 := by
    unfold maxBufferSize afterString roundUp
    omega
  rw [FlatBuffers.run_createString fun _ => ⟨h.ready.nested, h.ready.fields⟩, checked_true,
    b.length_withString_eq]
  simp only [hlast, ite_not]

/-- The fields of a message to an entity service. -/
def esAdds (cmd : Cmd) (txid type : Int) (key attr val : Nat) : List Add :=
  [.offset 16 val, .offset 14 attr, .offset 12 key, int32 10 type, int32 6 txid,
    int32 4 (code cmd), bool 8 false]

/-- The strings of a message are in the buffer; the attribute and the value may be left out. -/
structure Offsets (b : Builder) (carries : Bool) (key attr val : Nat) : Prop where
  key : key ≠ 0 ∧ key ≤ b.buf.length
  rest : if carries then (attr ≠ 0 ∧ attr ≤ b.buf.length) ∧ val ≠ 0 ∧ val ≤ b.buf.length
    else attr = 0 ∧ val = 0

namespace Offsets

variable {b : Builder} {carries : Bool} {key attr val : Nat}

theorem le_length (h : Offsets b carries key attr val) :
    ∀ off ∈ [val, attr, key], off ≤ b.buf.length := by
  have hrest := h.rest
  cases carries with
  | false => simp [hrest.1, hrest.2, h.key.2]
  | true => simp [hrest.1.2, hrest.2.2, h.key.2]

theorem vtableFor_esAdds (h : Offsets b carries key attr val) (cmd : Cmd) (txid type : Int) :
    vtableFor (esAdds cmd txid type key attr val) = if carries then 18 else 14 := by
  have hrest := h.rest
  cases carries with
  | false =>
      have hval : (Add.offset 16 val).Absent := hrest.2
      have hattr : (Add.offset 14 attr).Absent := hrest.1
      rw [esAdds, vtableFor_cons_of_absent hval, vtableFor_cons_of_absent hattr]
      exact vtableFor_cons_of_le h.key.1 (show 2 ≤ 12 by decide) (by simp [Add.field, int32, bool])
  | true =>
      exact vtableFor_cons_of_le hrest.2.1 (show 2 ≤ 16 by decide)
        (by simp [Add.field, int32, bool])

theorem sizeAfter_esAdds (h : Offsets b carries key attr val) (cmd : Cmd) (txid type : Int)
    (haligned : b.buf.length % 4 = 0) :
    sizeAfter (esAdds cmd txid type key attr val) b.buf.length =
      b.buf.length + ((if carries then 12 else 4) +
        (intSize type + (intSize txid + intSize (code cmd)))) := by
  have hwords : ∀ a ∈ esAdds cmd txid type key attr val, a.Absent ∨ a.width = 4 := by
    simp [esAdds, Add.Absent, Add.width, int32, bool]
  have hsum : (esAdds cmd txid type key attr val).foldr
      (fun a n => (if a.Absent then 0 else 4) + n) 0 =
        (if val = 0 then 0 else 4) + ((if attr = 0 then 0 else 4) +
          ((if key = 0 then 0 else 4) + (intSize type + (intSize txid + intSize (code cmd))))) := by
    simp [esAdds, Add.Absent, int32, bool, intSize]
  have hrest := h.rest
  rw [sizeAfter_of_words hwords haligned, hsum, if_neg h.key.1]
  cases carries with
  | false =>
      rw [if_pos hrest.1, if_pos hrest.2, if_neg Bool.false_ne_true]
      omega
  | true =>
      rw [if_neg hrest.1.1, if_neg hrest.2.1, if_pos rfl]
      omega

end Offsets

/-- The rest of the message after its strings. -/
def finishES (cmd : Cmd) (txid type : Int) (key attr val : Nat) : Build Unit := do
  let es ← createESMsg cmd txid false type key attr val
  let msg ← createRootMsg 6 es
  finish msg

/-- The size of a message, with `strings` as the size after its strings. -/
def esSize (strings : Nat) (cmd : Cmd) (txid type : Int) (carries : Bool) : Nat :=
  roundUp (strings + (if carries then 34 else 22) +
    (intSize type + (intSize txid + intSize (code cmd)))) + 24

section Message

variable {b : Builder} {carries : Bool} {key attr val : Nat}

theorem run_createESMsg (hplain : Plain b) (h : Offsets b carries key attr val) (cmd : Cmd)
    (txid type : Int) (hroom : b.buf.length < maxBufferSize) :
    ∃ b₁ es p, (∀ asserts, createESMsg cmd txid false type key attr val asserts b =
        checked asserts p (es, b₁)) ∧ p ≤ b₁.buf.length ∧ Ready b₁ ∧
      (es ≠ 0 ∧ es ≤ b₁.buf.length) ∧ NoVTable b₁ 8 ∧
      esSize b.buf.length cmd txid type carries = roundUp b₁.buf.length + 24 := by
  have hlayout : Layout ((esAdds cmd txid type key attr val).map Add.field)
      ((esAdds cmd txid type key attr val).map Add.width) :=
    show Layout [16, 14, 12, 10, 6, 4, 8] [4, 4, 4, 4, 4, 4, 1] by decide
  obtain ⟨b₁, es, p, hrun, hp, htabled⟩ := run_table hplain.ready hlayout.tabular
    (fun field off hmem => h.le_length off (mem_targets hmem)) (by decide)
    (show 7 * 7 + 16 < 60000 by decide) hroom
  have hnew : NoVTable b (vtableFor (esAdds cmd txid type key attr val)) := by
    simp [NoVTable, hplain.vtables]
  obtain ⟨hlength, hvtables, hholds⟩ := htabled.fresh hnew
  have hplace := htabled.place
  rw [paddingBytes_add, h.sizeAfter_esAdds cmd txid type hplain.aligned] at hplace
  rw [h.vtableFor_esAdds] at hlength hholds
  refine ⟨b₁, es, p, hrun, hp, htabled.grows.ready, ⟨by omega, by omega⟩, fun v hv => ?_, ?_⟩
  · rw [hvtables, hplain.vtables, List.nil_append, List.mem_singleton] at hv
    refine ⟨if carries then 18 else 14, ?_, ?_, hv ▸ hholds⟩
    · cases carries <;> decide
    · cases carries <;> decide
  · have haligned := hplain.aligned
    have htype := intSize_mod type
    have htxid := intSize_mod txid
    have hcmd := intSize_mod (code cmd)
    rw [hlength, hplace, esSize]
    cases carries with
    | false => simp only [Bool.false_eq_true, if_false, roundUp]; omega
    | true => simp only [if_true, roundUp]; omega

/-- With the assertions the message is built if it has `2 ^ 31` bytes at most. -/
theorem run_finishES (hplain : Plain b) (h : Offsets b carries key attr val) (cmd : Cmd)
    (txid type : Int) :
    (finishES cmd txid type key attr val true b).map (fun r => r.2.buf.length) =
      if esSize b.buf.length cmd txid type carries ≤ 2147483648
      then some (esSize b.buf.length cmd txid type carries) else none := by
  by_cases hroom : maxBufferSize ≤ b.buf.length
  · have hnone : finishES cmd txid type key attr val true b = none :=
      (stops_table _).bind _ b hroom
    rw [hnone, Option.map_none, if_neg]
    unfold maxBufferSize at hroom
    rw [esSize, roundUp]
    omega
  · obtain ⟨b₁, es, p, hrun, hp, hready, hes, hnew, hsize⟩ :=
      run_createESMsg hplain h cmd txid type (Nat.lt_of_not_le hroom)
    by_cases hb₁ : maxBufferSize ≤ b₁.buf.length
    · have hstops : Stops (createRootMsg 6 es >>= finish) := (stops_table _).bind _
      have hnone : finishES cmd txid type key attr val true b = none :=
        run_bind_stops (hrun true) (hstops b₁ hb₁)
      rw [hnone, Option.map_none, if_neg]
      unfold maxBufferSize at hb₁
      rw [hsize, roundUp]
      omega
    · obtain ⟨b', hroot, hlength⟩ := run_root 6 hready hes (by decide) hnew
        (Nat.lt_of_not_le hb₁)
      have hall : finishES cmd txid type key attr val true b =
          checked true (b'.buf.length - 4) ((), b') :=
        run_bind_next (hrun true) (hroot true) (by rw [hlength, roundUp]; omega)
      have hlast : maxBufferSize ≤ b'.buf.length - 4 ↔ ¬ b'.buf.length ≤ 2147483648 := by
        unfold maxBufferSize
        rw [hlength, roundUp]
        omega
      rw [hall, checked_true, hsize, ← hlength]
      simp only [hlast, ite_not]
      split <;> rfl

end Message

end Grit.Wire
