import Grit.Library.FlatTable
import Mathlib.Data.List.Nodup

/-!
# Objects of a FlatBuffer

What the calls of a builder give together: a table, a string, a vector or a finished buffer
that reads as what was written, and everything that was readable before still is. With the
assertions the calls end the program once the buffer has two gigabytes; what is in the buffer
can be read as long as it has not.
-/

namespace FlatBuffers

open Bytes

/-- No object is open, and the scratch area refers into the buffer. -/
structure Ready (b : Builder) : Prop where
  fields : b.fields = []
  nested : b.nested = false
  vtables : ∀ v ∈ b.vtables, v ≤ b.buf.length
  minalign : 1 ≤ b.minalign ∧ b.minalign ≤ 4

theorem ready_init : Ready Builder.init :=
  ⟨rfl, rfl, fun _ hv => absurd hv List.not_mem_nil, Nat.le_refl 1, Nat.le_of_ble_eq_true rfl⟩

/-- An object was built in front of the others. -/
structure Grows (b b' : Builder) : Prop where
  ready : Ready b'
  buf : ∃ front, b'.buf = front ++ b.buf

namespace Grows

variable {b b' : Builder}

theorem length_le (h : Grows b b') : b.buf.length ≤ b'.buf.length := by
  obtain ⟨front, hbuf⟩ := h.buf
  rw [hbuf, List.length_append]
  omega

theorem refl (h : Ready b) : Grows b b := ⟨h, [], rfl⟩

theorem trans {b'' : Builder} (h : Grows b b') (h' : Grows b' b'') : Grows b b'' := by
  obtain ⟨front, hbuf⟩ := h.buf
  obtain ⟨front', hbuf'⟩ := h'.buf
  exact ⟨h'.ready, front' ++ front, by rw [hbuf', hbuf, List.append_assoc]⟩

theorem reads {α : Type} {read : Reader α} {o : Nat} {a : α} (h : Grows b b')
    (hlocal : Local read) (hreads : Reads read b.buf o a) : Reads read b'.buf o a := by
  obtain ⟨front, hbuf⟩ := h.buf
  rw [hbuf]
  exact hreads.prepend hlocal front

end Grows

/-- The offset refers to the object, or is null if there is none. -/
def Refers {α : Type} (read : Reader α) (buf : List UInt8) : Option α → Nat → Prop
  | none, o => o = 0
  | some a, o => o ≠ 0 ∧ Reads read buf o a

theorem Refers.le_length {α : Type} {read : Reader α} {buf : List UInt8} {x : Option α} {o : Nat}
    (h : Refers read buf x o) : o ≤ buf.length := by
  cases x with
  | none =>
      have ho : o = 0 := h
      omega
  | some a => exact h.2.1

theorem Grows.refers {α : Type} {read : Reader α} {b b' : Builder} {x : Option α} {o : Nat}
    (h : Grows b b') (hlocal : Local read) (hrefers : Refers read b.buf x o) :
    Refers read b'.buf x o := by
  cases x with
  | none => exact hrefers
  | some a => exact ⟨hrefers.1, h.reads hlocal hrefers.2⟩

section Table

variable {b b' : Builder} {loc top : Nat}

theorem Closed.getField (h : Closed b b' loc top) (hsize : b'.buf.length < 2147483648)
    {off field width value : Nat} (defaultval : Nat) (hmem : (off, field) ∈ b.fields)
    (hlt : off < loc) (hnear : loc - off < 65536) (hholds : Holds b.buf off (le width value))
    (hvalue : value < 256 ^ width) :
    Reads (getField width field defaultval) b'.buf loc value := by
  obtain ⟨front, hbuf, -⟩ := h.grows
  have hplace := h.stored hsize _ hmem
  rw [Nat.mod_eq_of_lt hnear] at hplace
  refine reads_getField defaultval hlt hplace ?_ hvalue
  rw [hbuf]
  exact hholds.prepend front

theorem Closed.getPointer {α : Type} {read : Reader α} {a : α} (h : Closed b b' loc top)
    (hsize : b'.buf.length < 2147483648) {off field target : Nat}
    (hmem : (off, field) ∈ b.fields) (hlt : off < loc) (hnear : loc - off < 65536)
    (htarget : target ≤ off) (hoff : off < 4294967296)
    (hholds : Holds b.buf off (le 4 (off - target))) (hlocal : Local read)
    (hreads : Reads read b.buf target a) :
    Reads (getPointer field read) b'.buf loc (some a) := by
  obtain ⟨front, hbuf, -⟩ := h.grows
  have hplace := h.stored hsize _ hmem
  rw [Nat.mod_eq_of_lt hnear] at hplace
  refine reads_getPointer hlt htarget hplace ?_ hoff ?_
  · rw [hbuf]
    exact hholds.prepend front
  · rw [hbuf]
    exact hreads.prepend hlocal front

theorem run_notNested {asserts : Bool} (h : asserts = true → b.nested = false ∧ b.fields = []) :
    notNested asserts b = some ((), b) := by
  unfold notNested
  rw [run_bind_of (run_assertThat fun ha => by rw [(h ha).1]; rfl),
    run_assertThat fun ha => by rw [(h ha).2]; rfl]

theorem run_startTable {asserts : Bool} (h : asserts = true → b.nested = false ∧ b.fields = []) :
    startTable asserts b = some (b.buf.length, { b with nested := true }) := by
  unfold startTable
  rw [run_bind_of (run_notNested h), run_bind_of (run_modify _)]
  rfl

/-- A table that reads as the fields it was given. -/
structure Holding (buf : List UInt8) (b' : Builder) (loc : Nat) (adds : List Add) : Prop where
  pos : loc ≠ 0
  le_length : loc ≤ b'.buf.length
  element : ∀ width field e def', .element width field e def' ∈ adds → e < 256 ^ width →
    Reads (getField width field def') b'.buf loc e
  offset : ∀ field off, .offset field off ∈ adds → ∀ (α : Type) (read : Reader α) (x : Option α),
    Local read → Refers read buf x off → Reads (getPointer field read) b'.buf loc x
  absent : ∀ id, id % 2 = 0 → 4 ≤ id → id ∉ adds.map Add.field →
    Reads (getOptionalFieldOffset id) b'.buf loc 0

/-- The calls that build a table: fields of the generated code, none of them twice. -/
structure Tabular (adds : List Add) (top : Nat) : Prop where
  proper : Proper (adds.map Add.field)
  width : ∀ w ∈ adds.map Add.width, w = 1 ∨ w = 4
  top : ∀ id ∈ adds.map Add.field, id ≤ top

theorem Wrote.proper {adds : List Add} {new : List (Nat × Nat)} (h : Wrote b b' adds new)
    (hproper : Proper (adds.map Add.field)) : Proper (new.map Prod.snd) := by
  have hsub : ∀ id ∈ new.map Prod.snd, id ∈ adds.map Add.field := by
    intro id hid
    rw [h.ids] at hid
    exact (List.filter_sublist.map Add.field).subset hid
  refine ⟨?_, fun id hid => hproper.even id (hsub id hid),
    fun id hid => hproper.low id (hsub id hid)⟩
  rw [h.ids]
  exact (List.filter_sublist.map Add.field).nodup hproper.nodup

theorem Wrote.absent {adds : List Add} {new : List (Nat × Nat)} (h : Wrote b b' adds new)
    (hproper : Proper (adds.map Add.field)) {a : Add} (ha : a ∈ adds) (habsent : a.Absent) :
    a.field ∉ new.map Prod.snd := by
  rw [h.ids]
  intro hmem
  obtain ⟨a', ha', hfield⟩ := List.mem_map.1 hmem
  rw [List.mem_filter] at ha'
  have heq := List.inj_on_of_nodup_map hproper.nodup ha'.1 ha hfield
  subst heq
  simp [habsent] at ha'

/-- A closed table reads as the fields that were written. -/
theorem Wrote.holding {b₁ : Builder} {adds : List Add} (hwrote : Wrote b b₁ adds b₁.fields)
    (hclosed : Closed b₁ b' (b₁.next 4) top) (hproper : Proper (adds.map Add.field))
    (htarget : ∀ field off, .offset field off ∈ adds → off ≤ b.buf.length)
    (hnear : ∀ f ∈ b₁.fields, b₁.next 4 - f.1 < 65536) (hsize : b'.buf.length < 2147483648) :
    Holding b.buf b' (b₁.next 4) adds := by
  have hbounds := b₁.next_bounds (.inr rfl : 4 = 1 ∨ 4 = 4)
  have hloc := hclosed.le_length
  obtain ⟨front, hbuf, -⟩ := hwrote.grows
  -- a field that was left out is not found
  have hmissing : ∀ a ∈ adds, a.Absent → Reads (getOptionalFieldOffset a.field) b'.buf
      (b₁.next 4) 0 := by
    intro a ha habsent
    have hmem : a.field ∈ adds.map Add.field := List.mem_map_of_mem ha
    exact hclosed.absent hsize a.field (hproper.even _ hmem) (hproper.low _ hmem)
      (hwrote.absent hproper ha habsent)
  refine ⟨by omega, hclosed.le_length, ?_, ?_, ?_⟩
  · intro width field e def' ha he
    by_cases habsent : e = def'
    · subst habsent
      exact reads_getField_of_absent width e (hmissing _ ha rfl)
    · obtain ⟨off, hmem, hholds⟩ := hwrote.stored _ ha habsent
      have hplace := hwrote.bounds _ hmem
      exact hclosed.getField hsize def' hmem (by omega) (hnear _ hmem) hholds he
  · intro field off ha α read x hlocal hrefers
    cases x with
    | none =>
        have hnull : off = 0 := hrefers
        exact reads_getPointer_of_absent read (hmissing _ ha hnull)
    | some object =>
        obtain ⟨place, hmem, hholds⟩ := hwrote.stored _ ha hrefers.1
        have hplace := hwrote.bounds _ hmem
        have hoff := htarget field off ha
        have hreads : Reads read b₁.buf off object := hbuf ▸ hrefers.2.prepend hlocal front
        exact hclosed.getPointer hsize hmem (by omega) (hnear _ hmem) (by omega) (by omega) hholds
          hlocal hreads
  · intro id heven hlow hnot
    refine hclosed.absent hsize id heven hlow fun hmem => hnot ?_
    rw [hwrote.ids] at hmem
    exact (List.filter_sublist.map Add.field).subset hmem

/-- The size of the vtable for the fields that are stored. -/
def vtableFor (adds : List Add) : Nat :=
  vtableSize ((adds.filter fun a => ¬a.Absent).map fun a => (0, a.field))

theorem vtableSize_congr {fields fields' : List (Nat × Nat)}
    (h : fields.map Prod.snd = fields'.map Prod.snd) : vtableSize fields = vtableSize fields' := by
  have hmax : ∀ l : List (Nat × Nat), maxVoffset l = (l.map Prod.snd).foldr max 0 := by
    intro l
    rw [List.foldr_map]
    rfl
  rw [vtableSize, vtableSize, hmax, hmax, h]

theorem vtableFor_cons_of_absent {a : Add} {adds : List Add} (h : a.Absent) :
    vtableFor (a :: adds) = vtableFor adds := by
  rw [vtableFor, List.filter_cons_of_neg (by simpa using h), vtableFor]

/-- The highest field comes first. -/
theorem vtableFor_cons_of_le {a : Add} {adds : List Add} (h : ¬a.Absent) (htwo : 2 ≤ a.field)
    (hle : ∀ a' ∈ adds, a'.field ≤ a.field) : vtableFor (a :: adds) = a.field + 2 := by
  have hrest : maxVoffset ((adds.filter fun a => ¬a.Absent).map fun a => (0, a.field)) ≤
      a.field := by
    refine maxVoffset_le fun f hf => ?_
    obtain ⟨a', ha', rfl⟩ := List.mem_map.1 hf
    exact hle a' (List.mem_of_mem_filter ha')
  have hcons : maxVoffset (((a :: adds).filter fun a => ¬a.Absent).map fun a => (0, a.field)) =
      max a.field (maxVoffset ((adds.filter fun a => ¬a.Absent).map fun a => (0, a.field))) := by
    rw [List.filter_cons_of_pos (by simpa using h)]
    rfl
  rw [vtableFor, vtableSize, hcons]
  omega

/-- What a table does to a builder: it is at the offset `loc`, and has a vtable of its own if no
other one has the size. -/
structure Tabled (b b' : Builder) (loc : Nat) (adds : List Add) : Prop where
  grows : Grows b b'
  minalign : b'.minalign = 4
  holding : b'.buf.length < 2147483648 → Holding b.buf b' loc adds
  place : loc = 4 + (paddingBytes (sizeAfter adds b.buf.length) 4 + sizeAfter adds b.buf.length)
  fresh : NoVTable b (vtableFor adds) → b'.buf.length = vtableFor adds + loc ∧
    b'.vtables = b.vtables ++ [b'.buf.length] ∧
      Holds b'.buf b'.buf.length (le 2 (vtableFor adds))

theorem run_table {adds : List Add} (hready : Ready b) (htabular : Tabular adds top)
    (htarget : ∀ field off, .offset field off ∈ adds → off ≤ b.buf.length)
    (htop : 2 ≤ top) (hsmall : 7 * adds.length + top < 60000)
    (hroom : b.buf.length < maxBufferSize) :
    ∃ b' loc p, (∀ asserts, table adds asserts b = checked asserts p (loc, b')) ∧
      p ≤ b'.buf.length ∧ Tabled b b' loc adds := by
  have hfit : ∀ a ∈ adds, a.Fits b.buf.length :=
    fun a ha => ⟨htabular.width _ (List.mem_map_of_mem ha),
      fun field off heq => htarget field off (heq ▸ ha)⟩
  obtain ⟨b₁, new, p, hadd, hp, hwrote⟩ := run_addAll (b := { b with nested := true }) hfit
    (show b.buf.length + 7 * adds.length + 3 < 4294967296 by unfold maxBufferSize at hroom; omega)
  have hfields : b₁.fields = new := by
    rw [hwrote.fields]
    exact congrArg (· ++ new) hready.fields
  obtain ⟨front, hbuf, hfront⟩ := hwrote.grows
  have hlength : b₁.buf.length = front.length + b.buf.length := by
    rw [hbuf, List.length_append]
  have hbounds := b₁.next_bounds (.inr rfl : 4 = 1 ∨ 4 = 4)
  have hplace : ∀ f ∈ b₁.fields, b.buf.length < f.1 ∧ f.1 ≤ b₁.buf.length := by
    rw [hfields]
    exact hwrote.bounds
  have hproper : Proper (b₁.fields.map Prod.snd) := hfields ▸ hwrote.proper htabular.proper
  have hids : ∀ id ∈ b₁.fields.map Prod.snd, id ∈ adds.map Add.field := by
    rw [hfields, hwrote.ids]
    exact fun id hid => (List.filter_sublist.map Add.field).subset hid
  have hhigh : ∀ f ∈ b₁.fields, f.2 ≤ top := by
    intro f hf
    exact htabular.top f.2 (hids f.2 (List.mem_map_of_mem hf))
  have hold : ∀ v ∈ b₁.vtables, v ≤ b₁.buf.length := by
    intro v hv
    rw [hwrote.vtables] at hv
    exact Nat.le_trans (hready.vtables v hv) (by omega)
  obtain ⟨b', q, hend, hq, hnext, hclosed, hfresh⟩ := run_endTable (b := b₁)
    b.buf.length hproper hhigh htop (by omega) hold
  obtain ⟨front', hbuf', hfront'⟩ := hclosed.grows
  have hmin := hwrote.minalign
  have hmin' := hready.minalign
  have hminalign : b'.minalign = 4 := by
    rw [hclosed.minalign, Nat.max_eq_right]
    exact Nat.le_trans hmin (Nat.max_le.2 ⟨hmin'.2, Nat.le_refl 4⟩)
  refine ⟨b', b₁.next 4, q, ?_, hq, ⟨⟨⟨hclosed.fields, hclosed.nested, hclosed.vtables, ?_⟩,
    front' ++ front, ?_⟩, hminalign, ?_, ?_, ?_⟩⟩
  · intro asserts
    unfold table
    rw [run_bind_of (run_startTable fun _ => ⟨hready.nested, hready.fields⟩)]
    exact run_bind_next (hadd asserts) (hend asserts fun _ => ⟨hwrote.nested, by omega⟩) (by omega)
  · rw [hminalign]
    decide
  · rw [hbuf', hbuf, List.append_assoc]
  · rw [← hfields] at hwrote
    exact hwrote.holding hclosed htabular.proper htarget
      fun f hf => by have := hplace f hf; omega
  · rw [Builder.next, b₁.length_aligned, hwrote.length, Nat.add_zero]
  · intro hno
    have hvtable : vtableSize b₁.fields = vtableFor adds := by
      refine vtableSize_congr ?_
      rw [hfields, hwrote.ids, List.map_map]
      rfl
    have hno' : NoVTable b₁ (vtableSize b₁.fields) := by
      intro v hv
      rw [hwrote.vtables] at hv
      obtain ⟨k, hk, hne, hholds⟩ := hno v hv
      exact ⟨k, hk, hvtable ▸ hne, hbuf ▸ hholds.prepend front⟩
    have h := hfresh hno'
    rw [← hvtable]
    exact ⟨h.length, hwrote.vtables ▸ h.vtables, h.size⟩

end Table

section Sequences

variable {b : Builder}

theorem Builder.aligned_of_dvd (h : (b.buf.length + 0) % 4 = 0) :
    (b.aligned 0 4).buf = b.buf := by
  have hpad : paddingBytes (b.buf.length + 0) 4 = 0 := by
    rw [paddingBytes_four]
    omega
  simp only [Builder.aligned, hpad, List.replicate_zero, List.nil_append]

theorem Builder.length_aligned_mod (b : Builder) (len : Nat) :
    ((b.aligned len 4).buf.length + len) % 4 = 0 := by
  rw [b.length_aligned, paddingBytes_four]
  omega

/-- The next multiple of four. -/
def roundUp (n : Nat) : Nat := (n + 3) / 4 * 4

theorem paddingBytes_add (n : Nat) : paddingBytes n 4 + n = roundUp n := by
  rw [paddingBytes_four, roundUp]
  omega

/-- Words on a buffer that is aligned. -/
theorem sizeAfter_of_words {adds : List Add} {size : Nat}
    (h : ∀ a ∈ adds, a.Absent ∨ a.width = 4) (hsize : size % 4 = 0) :
    sizeAfter adds size = size + adds.foldr (fun a n => (if a.Absent then 0 else 4) + n) 0 := by
  induction adds generalizing size with
  | nil => rfl
  | cons a adds ih =>
      have hrest := fun a' ha' => h a' (List.mem_cons_of_mem a ha')
      rw [sizeAfter, List.foldr_cons]
      by_cases habsent : a.Absent
      · rw [if_pos habsent, if_pos habsent, ih hrest hsize, Nat.zero_add]
      · have hwidth := (h a List.mem_cons_self).resolve_left habsent
        rw [if_neg habsent, if_neg habsent, hwidth, paddingBytes_add, roundUp,
          ih hrest (by omega)]
        omega

/-- The size of a buffer after a string of `n` bytes. -/
def afterString (n size : Nat) : Nat := roundUp (size + n + 1) + 4

/-- The builder after a string. -/
def Builder.withString (b : Builder) (str : List UInt8) : Builder :=
  { b with
    buf := le 4 str.length ++ (str ++ ([0] ++ (b.aligned (str.length + 1) 4).buf))
    minalign := max b.minalign 4 }

theorem Builder.length_withString (b : Builder) (str : List UInt8) :
    (b.withString str).buf.length =
      4 + (str.length + (1 + (b.aligned (str.length + 1) 4).buf.length)) := by
  simp only [Builder.withString, List.length_append, Bytes.length_le, List.length_singleton]

theorem Builder.length_withString_eq (b : Builder) (str : List UInt8) :
    (b.withString str).buf.length = afterString str.length b.buf.length := by
  have hpadding := paddingBytes_add (b.buf.length + (str.length + 1))
  rw [b.length_withString, b.length_aligned, afterString, Nat.add_assoc b.buf.length, ← hpadding]
  omega

/-- The last check is made before the length of the string is written. -/
theorem run_createString {str : List UInt8} {asserts : Bool}
    (hnested : asserts = true → b.nested = false ∧ b.fields = []) :
    createString str asserts b = checked asserts ((b.withString str).buf.length - 4)
      ((b.withString str).buf.length, b.withString str) := by
  have hge := b.le_length_aligned (str.length + 1) 4
  have hmod := b.length_aligned_mod (str.length + 1)
  have hlength := b.length_withString str
  let body : Builder := { b.aligned (str.length + 1) 4 with
    buf := str ++ ([0] ++ (b.aligned (str.length + 1) 4).buf) }
  have hbody : body.buf.length = str.length + (1 + (b.aligned (str.length + 1) 4).buf.length) := by
    simp only [body, List.length_append, List.length_singleton]
  have haligned : (body.aligned 0 4).buf = body.buf := Builder.aligned_of_dvd (by omega)
  have hpush : body.push 4 str.length = b.withString str := by
    unfold Builder.push Builder.withString
    rw [haligned]
    simp only [Builder.aligned, body, Nat.max_assoc, Nat.max_self]
  have hlast : (do
      let _ ← pushElement 4 str.length
      getSize : Build Nat) asserts body = checked asserts ((b.withString str).buf.length - 4)
        ((b.withString str).buf.length, b.withString str) := by
    refine (run_bind_last (run_pushElement 4 str.length) run_getSize).trans ?_
    rw [hpush, haligned, hbody, hlength, Nat.add_sub_cancel_left]
  unfold createString
  rw [run_bind_of (run_notNested hnested)]
  refine run_bind_next (run_preAlign _ 4) ?_ (by omega)
  refine run_bind_next (run_makeSpace _) ?_ (by omega)
  refine run_bind_next (run_pushBytes str) hlast ?_
  split
  · exact Nat.zero_le _
  · simp only [List.length_append, List.length_replicate]
    omega

theorem reads_string (str rest : List UInt8) (hsize : str.length < 4294967296) :
    Reads string (le 4 str.length ++ (str ++ rest)) (le 4 str.length ++ (str ++ rest)).length
      str := by
  have hhead := Holds.push (le 4 str.length) (str ++ rest)
  have hbody := (Holds.push str rest).prepend (le 4 str.length)
  have hlength : (le 4 str.length ++ (str ++ rest)).length = 4 + (str ++ rest).length := by
    rw [List.length_append, Bytes.length_le]
  rw [Bytes.length_le, ← hlength] at hhead
  refine ⟨Nat.le_refl _, ?_⟩
  have hread := hhead.readScalar_four hsize
  have hbytes := hbody.bytesAt
  rw [hlength, List.length_append, Nat.add_sub_cancel] at hbytes
  unfold string
  rw [hread, Option.bind_eq_bind, Option.bind_some, Nat.sub_self, Nat.zero_add, hbytes]

theorem Builder.grows_withString (hready : Ready b) (str : List UInt8) :
    Grows b (b.withString str) := by
  have hmin := hready.minalign
  have hbuf : (b.withString str).buf = le 4 str.length ++ (str ++ ([0] ++
      List.replicate (paddingBytes (b.buf.length + (str.length + 1)) 4) 0)) ++ b.buf := by
    simp only [Builder.withString, Builder.aligned, List.append_assoc]
  refine ⟨⟨hready.fields, hready.nested, ?_, ?_⟩, _, hbuf⟩
  · intro v hv
    have := hready.vtables v hv
    rw [hbuf, List.length_append]
    omega
  · have hmax : (b.withString str).minalign = max b.minalign 4 := rfl
    omega

theorem Builder.aligned_eq_self (haligned : b.buf.length % 4 = 0)
    (hmin : b.minalign = max b.minalign 4) : b.aligned 0 4 = b := by
  have hbuf : (b.aligned 0 4).buf = b.buf := Builder.aligned_of_dvd haligned
  have hminalign : (b.aligned 0 4).minalign = b.minalign := hmin.symm
  calc b.aligned 0 4 = { b with
        buf := (b.aligned 0 4).buf, minalign := (b.aligned 0 4).minalign } := rfl
    _ = b := by rw [hbuf, hminalign]

/-- The word for an offset, written on a buffer that ends in words. -/
def offsetWord (size off : Nat) : List UInt8 := le 4 (unsigned 4 ((4 + size - off : Nat) : Int))

@[simp] theorem length_offsetWord (size off : Nat) : (offsetWord size off).length = 4 :=
  Bytes.length_le _ _

/-- One round of `pushOffsets`. -/
theorem run_pushOffset (off : Nat) (asserts : Bool) (haligned : b.buf.length % 4 = 0)
    (hmin : b.minalign = max b.minalign 4) (hoff : off ≠ 0 ∧ off ≤ b.buf.length) :
    (do
      let distance ← referTo off
      let _ ← pushElement 4 distance : Build Unit) asserts b =
      checked asserts b.buf.length
        ((), { b with buf := offsetWord b.buf.length off ++ b.buf }) := by
  have hb := Builder.aligned_eq_self haligned hmin
  have hnext : b.next 4 = 4 + b.buf.length := by rw [Builder.next, hb]
  have hrefer : referTo off asserts b = checked asserts b.buf.length
      (unsigned 4 ((4 + b.buf.length - off : Nat) : Int), b) := by
    rw [run_referTo hoff.1 (by omega), hb, hnext]
  have hpush : ∀ e, b.push 4 e = { b with buf := le 4 e ++ b.buf } := by
    intro e
    rw [Builder.push, hb]
  refine run_bind_next hrefer ?_ (Nat.le_refl _)
  refine (run_bind_last (f := fun _ => pure ()) (run_pushElement 4 _) (run_pure ())).trans ?_
  rw [hb, hpush]
  rfl

/-- The offsets as words of a vector: each is a distance from its own place. -/
theorem run_pushOffsets {offs : List Nat} (haligned : b.buf.length % 4 = 0)
    (hmin : b.minalign = max b.minalign 4)
    (hoffs : ∀ off ∈ offs, off ≠ 0 ∧ off ≤ b.buf.length) :
    ∃ words p, (∀ asserts, pushOffsets offs asserts b =
        checked asserts p ((), { b with buf := words ++ b.buf })) ∧
      p ≤ (words ++ b.buf).length ∧ words.length = 4 * offs.length ∧
      ∀ (i off : Nat), offs[i]? = some off →
        Holds (words ++ b.buf) ((words ++ b.buf).length - 4 * i)
          (le 4 (unsigned 4 (((words ++ b.buf).length - 4 * i - off : Nat) : Int))) := by
  induction offs with
  | nil => exact ⟨[], 0, fun _ => (checked_zero _).symm, Nat.zero_le _, rfl, nofun⟩
  | cons off offs ih =>
      obtain ⟨words, p, hrun, hp, hlength, hholds⟩ :=
        ih fun o ho => hoffs o (List.mem_cons_of_mem off ho)
      have hsize : (words ++ b.buf).length = 4 * offs.length + b.buf.length := by
        rw [List.length_append, hlength]
      have hoff := hoffs off List.mem_cons_self
      have hround := fun asserts => run_pushOffset (b := { b with buf := words ++ b.buf }) off
        asserts (by rw [hsize]; omega) hmin ⟨hoff.1, by rw [hsize]; omega⟩
      have hwhole : (offsetWord (words ++ b.buf).length off ++ (words ++ b.buf)).length =
          4 + (words ++ b.buf).length := by
        rw [List.length_append, length_offsetWord]
      refine ⟨offsetWord (words ++ b.buf).length off ++ words, (words ++ b.buf).length, ?_, ?_, ?_,
        ?_⟩
      · intro asserts
        rw [List.append_assoc]
        exact run_bind_next (hrun asserts) (hround asserts) hp
      · rw [List.append_assoc, hwhole]
        exact Nat.le_add_left _ _
      · rw [List.length_append, length_offsetWord, hlength, List.length_cons]
        omega
      · intro i o hi
        rw [List.append_assoc, hwhole]
        cases i with
        | zero =>
            obtain rfl : off = o := by simpa using hi
            have hpush := Holds.push (offsetWord (words ++ b.buf).length off) (words ++ b.buf)
            rwa [length_offsetWord] at hpush
        | succ i =>
            have hrest := (hholds i o (by simpa using hi)).prepend
              (offsetWord (words ++ b.buf).length off)
            have hplace : 4 + (words ++ b.buf).length - 4 * (i + 1) =
                (words ++ b.buf).length - 4 * i := by omega
            rwa [hplace]

theorem mapM_range_eq_some {α : Type} {f : Nat → Option α} {l : List α}
    (h : ∀ i a, l[i]? = some a → f i = some a) : (List.range l.length).mapM f = some l := by
  induction l generalizing f with
  | nil => rfl
  | cons a l ih =>
      have hrest : (List.range l.length).mapM (f ∘ Nat.succ) = some l :=
        ih fun i a' hi => h (i + 1) a' (by simpa using hi)
      rw [List.length_cons, List.range_succ_eq_map, List.mapM_cons, h 0 a rfl, List.mapM_map,
        hrest]
      rfl

/-- The words of a vector behind its length. -/
theorem reads_vector {α : Type} {read : Reader α} {offs : List Nat} {l : List α}
    {words rest : List UInt8}
    (hsize : (words ++ rest).length < 2147483648)
    (hholds : ∀ (i off : Nat), offs[i]? = some off →
      off ≤ (words ++ rest).length - 4 * i ∧ 4 * i ≤ (words ++ rest).length ∧
        Holds (words ++ rest) ((words ++ rest).length - 4 * i)
          (le 4 ((words ++ rest).length - 4 * i - off)))
    (hlocal : Local read) (hcount : offs.length < 4294967296)
    (hreads : List.Forall₂ (fun off a => Reads read (words ++ rest) off a) offs l) :
    Reads (vector read) (le 4 offs.length ++ (words ++ rest)) (4 + (words ++ rest).length) l := by
  have hlength : (le 4 offs.length ++ (words ++ rest)).length = 4 + (words ++ rest).length := by
    rw [List.length_append, Bytes.length_le]
  have hhead := (Holds.push (le 4 offs.length) (words ++ rest)).readScalar_four hcount
  rw [Bytes.length_le, hlength, Nat.sub_self] at hhead
  refine ⟨Nat.le_of_eq hlength.symm, ?_⟩
  have hrange : List.range offs.length = List.range l.length := by rw [hreads.length_eq]
  unfold vector
  rw [hlength, Nat.sub_self, hhead, Option.bind_eq_bind, Option.bind_some, hrange]
  refine mapM_range_eq_some fun i a hi => ?_
  obtain ⟨hi₂, rfl⟩ := List.getElem?_eq_some_iff.1 hi
  have hi₁ : i < offs.length := hreads.length_eq ▸ hi₂
  have hobject : Reads read (words ++ rest) offs[i] l[i] := hreads.get hi₁ hi₂
  obtain ⟨hle, hi4, hword⟩ := hholds i offs[i] (List.getElem?_eq_getElem hi₁)
  have hword' := (hword.prepend (le 4 offs.length)).readScalar_four (by omega)
  have hplace : (le 4 offs.length ++ (words ++ rest)).length -
      ((words ++ rest).length - 4 * i) = 0 + 4 + 4 * i := by
    rw [hlength]
    omega
  have htarget : 0 + 4 + 4 * i + ((words ++ rest).length - 4 * i - offs[i]) =
      (le 4 offs.length ++ (words ++ rest)).length - offs[i] := by
    rw [hlength]
    omega
  rw [hplace] at hword'
  rw [hword', Option.bind_eq_bind, Option.bind_some, htarget]
  exact (hobject.prepend hlocal (le 4 offs.length)).2

theorem run_startVector (hready : Ready b) (n : Nat) (asserts : Bool) :
    startVector n 4 asserts b =
      checked asserts ({ b with nested := true }.aligned (n * 4) 4).buf.length
        ((), { b with nested := true }.aligned (n * 4) 4) := by
  let b₀ : Builder := { b with nested := true }
  unfold startVector
  rw [run_bind_of (run_notNested fun _ => ⟨hready.nested, hready.fields⟩),
    run_bind_of (run_modify _)]
  refine run_bind_next (run_preAlign (b := b₀) _ 4) ?_ (b₀.le_length_aligned _ 4)
  rw [run_preAlign, b₀.aligned_aligned]

theorem run_createVector {offs : List Nat} (hready : Ready b)
    (hoffs : ∀ off ∈ offs, off ≠ 0 ∧ off ≤ b.buf.length) :
    ∃ b' o p, (∀ asserts, createVector offs asserts b = checked asserts p (o, b')) ∧
      p ≤ b'.buf.length ∧ Grows b b' ∧ o ≠ 0 ∧
      (b'.buf.length < 2147483648 → ∀ (α : Type) (read : Reader α) (l : List α), Local read →
        List.Forall₂ (fun off a => Reads read b.buf off a) offs l →
          Reads (vector read) b'.buf o l) := by
  let b₀ : Builder := { b with nested := true }
  let b₁ : Builder := b₀.aligned (offs.length * 4) 4
  have hge : b.buf.length ≤ b₁.buf.length := b₀.le_length_aligned _ 4
  have hmod : b₁.buf.length % 4 = 0 := by
    have : (b₁.buf.length + offs.length * 4) % 4 = 0 := b₀.length_aligned_mod _
    omega
  have hminalign : b₁.minalign = max b.minalign 4 := rfl
  obtain ⟨words, p, hpush, hp, hlength, hholds⟩ := run_pushOffsets hmod
    (by rw [hminalign, Nat.max_assoc, Nat.max_self])
    (fun off hoff => ⟨(hoffs off hoff).1, Nat.le_trans (hoffs off hoff).2 hge⟩)
  let b₂ : Builder := { b₁ with buf := words ++ b₁.buf }
  let b₃ : Builder := { b₂ with nested := false }
  have hb₃ : b₃.buf.length = 4 * offs.length + b₁.buf.length := by
    rw [List.length_append, hlength]
  have haligned : (b₃.aligned 0 4).buf = b₃.buf := Builder.aligned_of_dvd (by omega)
  have hbuf : (b₃.push 4 offs.length).buf = le 4 offs.length ++ (words ++ b₁.buf) := by
    rw [Builder.push, haligned]
  have hnext : b₃.next 4 = 4 + (words ++ b₁.buf).length := by
    rw [Builder.next, haligned]
  have hsize : (b₃.push 4 offs.length).buf.length = b₃.next 4 := b₃.length_push 4 _
  have hend : ∀ asserts, endVector offs.length asserts b₂ =
      checked asserts b₃.buf.length (b₃.next 4, b₃.push 4 offs.length) := by
    intro asserts
    unfold endVector
    rw [run_bind_of (run_assertThat fun _ => rfl), run_bind_of (run_modify _)]
    refine (run_pushElement (b := b₃) 4 _).trans ?_
    rw [haligned]
  have hfront : ∃ front, words ++ b₁.buf = front ++ b.buf := by
    refine ⟨words ++ List.replicate (paddingBytes (b.buf.length + offs.length * 4) 4) 0, ?_⟩
    rw [List.append_assoc]
    rfl
  refine ⟨b₃.push 4 offs.length, b₃.next 4, b₃.buf.length, ?_, ?_, ⟨⟨hready.fields, rfl, ?_, ?_⟩,
    ?_⟩, ?_, ?_⟩
  · intro asserts
    refine run_bind_next (run_startVector hready _ asserts)
      (run_bind_next (hpush asserts) (hend asserts) hp) ?_
    rw [hb₃]
    exact Nat.le_add_left _ _
  · rw [hsize, hnext]
    exact Nat.le_add_left _ _
  · intro v hv
    have := hready.vtables v hv
    rw [hsize, hnext, List.length_append]
    omega
  · have hmin : (b₃.push 4 offs.length).minalign = max (max b.minalign 4) 4 := rfl
    have := hready.minalign
    omega
  · obtain ⟨front, hfront⟩ := hfront
    exact ⟨le 4 offs.length ++ front, by rw [hbuf, hfront, List.append_assoc]⟩
  · omega
  · intro hsmall α read l hlocal hreads
    rw [hsize, hnext] at hsmall
    rw [hbuf, hnext]
    have hwords : (words ++ b₁.buf).length = 4 * offs.length + b₁.buf.length := hb₃
    refine reads_vector (by omega) ?_ hlocal (by omega) ?_
    · intro i off hi
      have hlt := (List.getElem?_eq_some_iff.1 hi).1
      have hoff := hoffs off (List.mem_of_getElem? hi)
      have hword := hholds i off hi
      rw [unsigned_natCast (by omega)] at hword
      exact ⟨by omega, by omega, hword⟩
    · refine hreads.imp fun off a h => ?_
      obtain ⟨front, hfront⟩ := hfront
      rw [hfront]
      exact h.prepend hlocal front

/-- The finished buffer. -/
def Builder.finished (b : Builder) (root : Nat) : Builder :=
  let b₁ := { b with vtables := [] }.aligned 4 b.minalign
  b₁.push 4 (unsigned 4 ((b₁.next 4 - root : Nat) : Int))

theorem Builder.length_finished (b : Builder) (root : Nat) (hminalign : b.minalign = 4) :
    (b.finished root).buf.length = roundUp b.buf.length + 4 := by
  let b₁ : Builder := { b with vtables := [] }.aligned 4 b.minalign
  have hfinished : b.finished root = b₁.push 4 (unsigned 4 ((b₁.next 4 - root : Nat) : Int)) := rfl
  have hlength : b₁.buf.length = paddingBytes (b.buf.length + 4) b.minalign + b.buf.length :=
    Builder.length_aligned _ 4 b.minalign
  have hpadding := paddingBytes_add b₁.buf.length
  rw [hminalign, paddingBytes_four] at hlength
  rw [hfinished, b₁.length_push, Builder.next, b₁.length_aligned, Nat.add_zero, hpadding, roundUp,
    roundUp]
  omega

/-- Finishing the buffer: its root is read from the beginning, whatever follows. The last check
is made before the last word is written. -/
theorem run_finish {root : Nat} (hready : Ready b) (hroot : root ≠ 0 ∧ root ≤ b.buf.length) :
    (∀ asserts, finish root asserts b =
        checked asserts ((b.finished root).buf.length - 4) ((), b.finished root)) ∧
      (b.finished root).buf.length % 4 = 0 ∧ b.buf.length + 4 ≤ (b.finished root).buf.length ∧
      ((b.finished root).buf.length ≤ 2147483648 →
        ∀ (α : Type) (read : Reader α) (a : α), Local read → Reads read b.buf root a →
          ∀ rest, getRoot read ((b.finished root).buf ++ rest) = some a) := by
  let b₀ : Builder := { b with vtables := [] }
  let b₁ : Builder := b₀.aligned 4 b.minalign
  have hfinished : b.finished root = b₁.push 4 (unsigned 4 ((b₁.next 4 - root : Nat) : Int)) := rfl
  have hge : b.buf.length ≤ b₁.buf.length := b₀.le_length_aligned 4 _
  have hge' := b₁.le_length_aligned 0 4
  have hbounds := b₁.next_bounds (.inr rfl : 4 = 1 ∨ 4 = 4)
  have hmod := b₁.length_aligned_mod 0
  have hnext : b₁.next 4 = 4 + (b₁.aligned 0 4).buf.length := rfl
  have hlength := b₁.length_push 4 (unsigned 4 ((b₁.next 4 - root : Nat) : Int))
  rw [hfinished, hlength]
  refine ⟨?_, by omega, by omega, ?_⟩
  · intro asserts
    unfold finish
    rw [run_bind_of (run_notNested fun _ => ⟨hready.nested, hready.fields⟩),
      run_bind_of (run_modify _), run_bind_of run_get]
    refine run_bind_next (run_preAlign (b := b₀) 4 b.minalign) ?_ (show b.buf.length ≤ _ by omega)
    refine run_bind_next (run_referTo (b := b₁) hroot.1 (by omega)) ?_ (by omega)
    refine (run_bind_last (f := fun _ => pure ()) (run_pushElement 4 _) (run_pure ())).trans ?_
    rw [b₁.push_aligned, b₁.aligned_aligned, hnext, Nat.add_sub_cancel_left]
  · intro hsmall α read a hlocal hreads rest
    have hword := (b₁.holds_push 4 (unsigned 4 ((b₁.next 4 - root : Nat) : Int)))
    rw [unsigned_natCast (by omega)] at hword hlength ⊢
    replace hword := hword.readScalar_four (by omega)
    rw [hlength, Nat.sub_self] at hword
    have hroot' := readScalar_shift hword [] rest
    obtain ⟨front, hfront⟩ := b₁.buf_push 4 (b₁.next 4 - root)
    have hobject : Reads read (b₁.push 4 (b₁.next 4 - root)).buf root a := by
      rw [hfront]
      refine Reads.prepend hlocal ?_ front
      exact hreads.prepend hlocal _
    have hread := hlocal _ _ _ [] rest hobject.2
    rw [List.nil_append, List.length_nil, Nat.zero_add] at hroot' hread
    rw [hlength] at hread
    unfold getRoot
    rw [hroot', Option.bind_eq_bind, Option.bind_some, hread]

end Sequences

end FlatBuffers
