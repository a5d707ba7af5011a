import Grit.Library.FlatBuilder

/-!
# Tables of a FlatBuffer

A table is built by calls that each add a field, and is closed with a vtable that says
where the fields are. Two tables with the same layout share the vtable. Whatever is in the
buffer before, each field of the new table reads as the value it was given.
-/

namespace FlatBuffers

open Bytes

namespace Add

def field : Add → Nat
  | element _ field _ _ => field
  | offset field _ => field

def width : Add → Nat
  | element width _ _ _ => width
  | offset _ _ => 4

/-- The word that is pushed if it gets the offset `loc`. -/
def word : Add → Nat → Nat
  | element _ _ e _, _ => e
  | offset _ off, loc => loc - off

/-- The field is not stored. -/
def Absent : Add → Prop
  | element _ _ e def' => e = def'
  | offset _ off => off = 0

instance (a : Add) : Decidable a.Absent := by
  cases a <;> unfold Absent <;> infer_instance

/-- The width is one the generated code uses, and an offset refers to what was written. -/
def Fits (a : Add) (size : Nat) : Prop :=
  (a.width = 1 ∨ a.width = 4) ∧ ∀ field off, a = offset field off → off ≤ size

end Add

section Fields

variable {b : Builder} {asserts : Bool}

/-- The builder after a field was stored. -/
def Builder.store (b : Builder) (width field element : Nat) : Builder :=
  { b.push width element with fields := b.fields ++ [(b.next width, field)] }

theorem run_addElement {width field e def' : Nat} (hne : e ≠ def') :
    addElement width field e def' asserts b =
      checked asserts (b.next width) ((), b.store width field e) := by
  have hspace : ensureSpace asserts (b.push width e) =
      checked asserts (b.next width) ((), b.push width e) := by
    rw [run_ensureSpace, b.length_push]
  unfold addElement
  rw [if_neg hne]
  refine run_bind_next (run_pushElement width e) (run_bind_last hspace (run_modify _)) ?_
  exact Nat.le_add_left _ _

theorem run_add_of_absent {a : Add} (h : a.Absent) : add a asserts b = some ((), b) := by
  cases a with
  | element width field e def' =>
      have heq : e = def' := h
      rw [add, addElement, if_pos heq, run_pure]
  | offset field off =>
      have hnull : off = 0 := h
      rw [add, addOffset, if_pos hnull, run_pure]

/-- The distance of an offset is not zero, as it fits its word. -/
theorem run_add {a : Add} (hfit : a.Fits b.buf.length) (hstored : ¬a.Absent)
    (h : b.buf.length + 10 < 4294967296) :
    add a asserts b = checked asserts (b.next a.width)
      ((), b.store a.width a.field (a.word (b.next a.width))) := by
  cases a with
  | element width field e def' => exact run_addElement hstored
  | offset field off =>
      have hoff := hfit.2 field off rfl
      have hbounds := b.next_bounds (.inr rfl : 4 = 1 ∨ 4 = 4)
      have hnull : off ≠ 0 := hstored
      have hrefer : referTo off asserts b = checked asserts b.buf.length
          (unsigned 4 ((b.next 4 - off : Nat) : Int), b.aligned 0 4) := run_referTo hnull hoff
      rw [unsigned_natCast (by omega)] at hrefer
      have hadd : addElement 4 field (b.next 4 - off) 0 asserts (b.aligned 0 4) =
          checked asserts (b.next 4) ((), b.store 4 field (b.next 4 - off)) := by
        rw [run_addElement (by omega), Builder.store, b.push_aligned, b.next_aligned]
        rfl
      rw [add, addOffset, if_neg hnull]
      exact run_bind_next hrefer hadd (Nat.le_trans (Nat.le_add_right _ _) hbounds.1)


theorem Add.Fits.mono {a : Add} {m n : Nat} (h : a.Fits m) (hle : m ≤ n) : a.Fits n :=
  ⟨h.1, fun field off heq => Nat.le_trans (h.2 field off heq) hle⟩

/-- The size of a buffer after calls for fields. -/
def sizeAfter : List Add → Nat → Nat
  | [], size => size
  | a :: adds, size =>
      sizeAfter adds (if a.Absent then size else a.width + (paddingBytes size a.width + size))

/-- What a sequence of calls for fields does: `new` says where the fields are. -/
structure Wrote (b b' : Builder) (adds : List Add) (new : List (Nat × Nat)) : Prop where
  grows : ∃ front, b'.buf = front ++ b.buf ∧ front.length ≤ 7 * adds.length
  length : b'.buf.length = sizeAfter adds b.buf.length
  vtables : b'.vtables = b.vtables
  nested : b'.nested = b.nested
  minalign : b'.minalign ≤ max b.minalign 4
  fields : b'.fields = b.fields ++ new
  ids : new.map Prod.snd = (adds.filter fun a => ¬a.Absent).map Add.field
  bounds : ∀ f ∈ new, b.buf.length < f.1 ∧ f.1 ≤ b'.buf.length
  stored : ∀ a ∈ adds, ¬a.Absent →
    ∃ off, (off, a.field) ∈ new ∧ Holds b'.buf off (le a.width (a.word off))

theorem Wrote.nil (b : Builder) : Wrote b b [] [] where
  grows := ⟨[], rfl, Nat.le_refl 0⟩
  length := rfl
  vtables := rfl
  nested := rfl
  minalign := Nat.le_max_left _ _
  fields := (List.append_nil _).symm
  ids := rfl
  bounds := fun _ hf => absurd hf List.not_mem_nil
  stored := fun _ ha => absurd ha List.not_mem_nil

theorem Wrote.skip {b' : Builder} {a : Add} {adds : List Add} {new : List (Nat × Nat)}
    (h : Wrote b b' adds new) (habsent : a.Absent) : Wrote b b' (a :: adds) new where
  grows := by
    obtain ⟨front, hbuf, hlength⟩ := h.grows
    exact ⟨front, hbuf, by rw [List.length_cons]; omega⟩
  length := by rw [sizeAfter, if_pos habsent, h.length]
  vtables := h.vtables
  nested := h.nested
  minalign := h.minalign
  fields := h.fields
  ids := by rw [h.ids, List.filter_cons_of_neg (by simpa using habsent)]
  bounds := h.bounds
  stored := by
    intro a' ha' hstored
    rcases List.mem_cons.1 ha' with rfl | ha'
    · exact absurd habsent hstored
    · exact h.stored a' ha' hstored

theorem Wrote.store {b' : Builder} {a : Add} {adds : List Add} {new : List (Nat × Nat)}
    (hwidth : a.width = 1 ∨ a.width = 4) (hstored : ¬a.Absent)
    (h : Wrote (b.store a.width a.field (a.word (b.next a.width))) b' adds new) :
    Wrote b b' (a :: adds) ((b.next a.width, a.field) :: new) where
  grows := by
    obtain ⟨front, hbuf, hlength⟩ := h.grows
    obtain ⟨front', hbuf'⟩ := b.buf_push a.width (a.word (b.next a.width))
    have hbounds := b.next_bounds hwidth
    have hnext := b.length_push a.width (a.word (b.next a.width))
    rw [hbuf', List.length_append] at hnext
    refine ⟨front ++ front', ?_, ?_⟩
    · rw [List.append_assoc, ← hbuf', hbuf]
      rfl
    · rw [List.length_append, List.length_cons]
      omega
  length := by
    have hnext : (b.store a.width a.field (a.word (b.next a.width))).buf.length =
        b.next a.width := b.length_push _ _
    rw [h.length, hnext, sizeAfter, if_neg hstored, Builder.next, b.length_aligned, Nat.add_zero]
  vtables := h.vtables
  nested := h.nested
  minalign := by
    have hmin := h.minalign
    have hstore : (b.store a.width a.field (a.word (b.next a.width))).minalign =
      max b.minalign a.width := rfl
    omega
  fields := by
    rw [h.fields]
    exact List.append_assoc _ [_] new
  ids := by rw [List.map_cons, h.ids, List.filter_cons_of_pos (by simpa using hstored),
    List.map_cons]
  bounds := by
    have hbounds := b.next_bounds hwidth
    have hnext := b.length_push a.width (a.word (b.next a.width))
    obtain ⟨front, hbuf, -⟩ := h.grows
    have hlength := congrArg List.length hbuf
    rw [List.length_append] at hlength
    have hstore : (b.store a.width a.field (a.word (b.next a.width))).buf.length =
      b.next a.width := hnext
    intro f hf
    rcases List.mem_cons.1 hf with rfl | hf
    · dsimp only
      omega
    · have := h.bounds f hf
      omega
  stored := by
    intro a' ha' hstored'
    rcases List.mem_cons.1 ha' with rfl | ha'
    · obtain ⟨front, hbuf, -⟩ := h.grows
      refine ⟨_, List.mem_cons_self, ?_⟩
      rw [hbuf]
      exact (b.holds_push _ _).prepend front
    · obtain ⟨off, hmem, hholds⟩ := h.stored a' ha' hstored'
      exact ⟨off, List.mem_cons_of_mem _ hmem, hholds⟩

theorem run_addAll {adds : List Add} (hfit : ∀ a ∈ adds, a.Fits b.buf.length)
    (h : b.buf.length + 7 * adds.length + 3 < 4294967296) :
    ∃ b' new p, (∀ asserts, addAll adds asserts b = checked asserts p ((), b')) ∧
      p ≤ b'.buf.length ∧ Wrote b b' adds new := by
  induction adds generalizing b with
  | nil => exact ⟨b, [], 0, fun _ => (checked_zero _).symm, Nat.zero_le _, Wrote.nil b⟩
  | cons a adds ih =>
      rw [List.length_cons] at h
      have ha := hfit a List.mem_cons_self
      have hrest : ∀ a' ∈ adds, a'.Fits b.buf.length :=
        fun a' ha' => hfit a' (List.mem_cons_of_mem a ha')
      by_cases habsent : a.Absent
      · obtain ⟨b', new, p, hrun, hp, hwrote⟩ := ih hrest (by omega)
        refine ⟨b', new, p, fun asserts => ?_, hp, hwrote.skip habsent⟩
        rw [addAll, run_bind_of (run_add_of_absent habsent), hrun]
      · have hbounds := b.next_bounds ha.1
        have hnext : (b.store a.width a.field (a.word (b.next a.width))).buf.length =
          b.next a.width := b.length_push _ _
        have hwidth : a.width ≤ 4 := by
          rcases ha.1 with h1 | h4 <;> omega
        have hrest' : ∀ a' ∈ adds,
            a'.Fits (b.store a.width a.field (a.word (b.next a.width))).buf.length :=
          fun a' ha' => (hrest a' ha').mono (by omega)
        obtain ⟨b', new, p, hrun, hp, hwrote⟩ := ih hrest' (by rw [hnext]; omega)
        obtain ⟨front, hbuf, -⟩ := hwrote.grows
        have hlength := congrArg List.length hbuf
        rw [List.length_append, hnext] at hlength
        refine ⟨b', _, max (b.next a.width) p, fun asserts => ?_, by omega,
          hwrote.store ha.1 habsent⟩
        exact run_bind_max (run_add ha habsent (by omega)) (hrun asserts)


end Fields

/-! ### The vtable -/

section VTable

variable {b : Builder} {asserts : Bool}

theorem le_maxVoffset {fields : List (Nat × Nat)} {f : Nat × Nat} (hf : f ∈ fields) :
    f.2 ≤ maxVoffset fields := by
  induction fields with
  | nil => cases hf
  | cons g fields ih =>
      show f.2 ≤ max g.2 (maxVoffset fields)
      rcases List.mem_cons.1 hf with rfl | hf
      · exact Nat.le_max_left _ _
      · exact Nat.le_trans (ih hf) (Nat.le_max_right _ _)

theorem maxVoffset_le {fields : List (Nat × Nat)} {top : Nat} (h : ∀ f ∈ fields, f.2 ≤ top) :
    maxVoffset fields ≤ top := by
  induction fields with
  | nil => exact Nat.zero_le _
  | cons g fields ih =>
      show max g.2 (maxVoffset fields) ≤ top
      have hg := h g List.mem_cons_self
      have hrest := ih fun f hf => h f (List.mem_cons_of_mem g hf)
      omega

/-- Fields that generated code can have: even numbers from 4 on, each of them once. -/
structure Proper (ids : List Nat) : Prop where
  nodup : ids.Nodup
  even : ∀ id ∈ ids, id % 2 = 0
  low : ∀ id ∈ ids, 4 ≤ id

/-- The entries of a vtable of size `n` for a table at the offset `loc`. -/
structure Entries (vt : List UInt8) (n loc : Nat) (fields : List (Nat × Nat)) : Prop where
  length : vt.length = n
  size : bytesAt vt 0 2 = some (le 2 n)
  stored : ∀ f ∈ fields, bytesAt vt f.2 2 = some (le 2 (loc - f.1))
  absent : ∀ id, id % 2 = 0 → 4 ≤ id → id < n → id ∉ fields.map Prod.snd →
    bytesAt vt id 2 = some (le 2 0)

theorem bytesAt_replicate {n i k : Nat} (h : i + k ≤ n) :
    bytesAt (List.replicate n 0) i k = some (List.replicate k 0) := by
  unfold bytesAt
  rw [if_pos (by rwa [List.length_replicate]), List.drop_replicate, List.take_replicate]
  congr 2
  omega

/-- The loop over the fields fills in their entries. The vtable stands in front of `rest`. -/
theorem run_writeFields {loc n : Nat} {fields : List (Nat × Nat)} {vt rest : List UInt8}
    (hproper : Proper (fields.map Prod.snd)) (hfit : ∀ f ∈ fields, f.2 + 2 ≤ n)
    (hlength : vt.length = n)
    (hzero : ∀ f ∈ fields, bytesAt vt f.2 2 = some (le 2 0)) (hbuf : b.buf = vt ++ rest) :
    ∃ vt', (∀ asserts, writeFields loc fields asserts b =
        some ((), { b with buf := vt' ++ rest })) ∧ vt'.length = n ∧
      (∀ f ∈ fields, bytesAt vt' f.2 2 = some (le 2 (loc - f.1))) ∧
      ∀ i, (∀ f ∈ fields, i + 2 ≤ f.2 ∨ f.2 + 2 ≤ i) → bytesAt vt' i 2 = bytesAt vt i 2 := by
  induction fields generalizing b vt with
  | nil =>
      refine ⟨vt, fun asserts => ?_, hlength, fun f hf => absurd hf List.not_mem_nil,
        fun i _ => rfl⟩
      rw [writeFields, run_pure, ← hbuf]
  | cons f fields ih =>
      obtain ⟨off, id⟩ := f
      have hid : id + 2 ≤ n := hfit (off, id) List.mem_cons_self
      have hwidth : id + (le 2 (loc - off)).length ≤ vt.length := by
        rw [Bytes.length_le]
        omega
      -- the other fields of the list lie elsewhere in the vtable
      have hother : ∀ f ∈ fields, id + 2 ≤ f.2 ∨ f.2 + 2 ≤ id := by
        intro f hf
        have hnodup := hproper.nodup
        rw [List.map_cons, List.nodup_cons] at hnodup
        have hne : f.2 ≠ id := fun heq => hnodup.1 (List.mem_map.2 ⟨f, hf, heq⟩)
        have heven := hproper.even f.2 (List.mem_map_of_mem (List.mem_cons_of_mem _ hf))
        have heven' := hproper.even id List.mem_cons_self
        omega
      have hread : readScalar 2 b.buf id = some 0 := by
        have hhere := bytesAt_shift (hzero (off, id) List.mem_cons_self) [] rest
        rw [List.nil_append, List.length_nil, Nat.zero_add] at hhere
        rw [hbuf, readScalar, hhere, Option.map_some, ofLe_le, Nat.zero_mod]
      have hkeep : ∀ f ∈ fields,
          bytesAt (write id (le 2 (loc - off)) vt) f.2 2 = some (le 2 0) := by
        intro f hf
        rw [bytesAt_write_of_disjoint hwidth (by rw [Bytes.length_le]; have := hother f hf; omega)]
        exact hzero f (List.mem_cons_of_mem _ hf)
      have hproper' : Proper (fields.map Prod.snd) :=
        ⟨(List.nodup_cons.1 hproper.nodup).2,
          fun i hi => hproper.even i (List.mem_cons_of_mem _ hi),
          fun i hi => hproper.low i (List.mem_cons_of_mem _ hi)⟩
      obtain ⟨vt', hrun, hlength', hstored, hframe⟩ := ih
        (b := { b with buf := write id (le 2 (loc - off)) b.buf }) hproper'
        (fun f hf => hfit f (List.mem_cons_of_mem _ hf))
        (by rw [length_write hwidth, hlength]) hkeep
        (by rw [hbuf, write_append_left hwidth])
      refine ⟨vt', fun asserts => ?_, hlength', ?_, ?_⟩
      · rw [writeFields, run_bind_of (run_assertThat fun _ => decide_eq_true hread),
          run_bind_of (run_modify _), hrun]
      · intro f hf
        rcases List.mem_cons.1 hf with rfl | hf
        · rw [hframe id hother]
          have hhere := bytesAt_write hwidth
          rwa [Bytes.length_le] at hhere
        · exact hstored f hf
      · intro i hi
        rw [hframe i fun f hf => hi f (List.mem_cons_of_mem _ hf),
          bytesAt_write_of_disjoint hwidth
            (by rw [Bytes.length_le]; have := hi (off, id) List.mem_cons_self; omega)]


theorem maxVoffset_even {fields : List (Nat × Nat)} (h : ∀ f ∈ fields, f.2 % 2 = 0) :
    maxVoffset fields % 2 = 0 := by
  induction fields with
  | nil => rfl
  | cons g fields ih =>
      show max g.2 (maxVoffset fields) % 2 = 0
      have hg := h g List.mem_cons_self
      have hrest := ih fun f hf => h f (List.mem_cons_of_mem g hf)
      omega

/-- The vtable before the entries of the fields are written. -/
def emptyVTable (n tableObjectSize : Nat) : List UInt8 :=
  write 0 (le 2 n) (write 2 (le 2 tableObjectSize) (List.replicate n 0))

theorem length_write_replicate {n : Nat} (hn : 4 ≤ n) (size : Nat) :
    (write 2 (le 2 size) (List.replicate n 0)).length = n := by
  rw [length_write (by rw [Bytes.length_le, List.length_replicate]; omega),
    List.length_replicate]

theorem length_emptyVTable {n : Nat} (hn : 4 ≤ n) (size : Nat) :
    (emptyVTable n size).length = n := by
  have hinner := length_write_replicate hn size
  rw [emptyVTable, length_write (by rw [Bytes.length_le, hinner]; omega), hinner]

theorem emptyVTable_size {n : Nat} (hn : 4 ≤ n) (size : Nat) :
    bytesAt (emptyVTable n size) 0 2 = some (le 2 n) := by
  have hinner := length_write_replicate hn size
  have hfit : 0 + (le 2 n).length ≤ (write 2 (le 2 size) (List.replicate n 0)).length := by
    rw [Bytes.length_le, hinner]
    omega
  have h := bytesAt_write hfit
  rwa [Bytes.length_le] at h

theorem emptyVTable_slot {n id : Nat} (size : Nat) (hlow : 4 ≤ id) (hid : id + 2 ≤ n) :
    bytesAt (emptyVTable n size) id 2 = some (le 2 0) := by
  have hinner := length_write_replicate (Nat.le_trans hlow (Nat.le_of_add_right_le hid)) size
  rw [emptyVTable, bytesAt_write_of_disjoint (by rw [Bytes.length_le, hinner]; omega)
      (by rw [Bytes.length_le]; omega),
    bytesAt_write_of_disjoint (by rw [Bytes.length_le, List.length_replicate]; omega)
      (by rw [Bytes.length_le]; omega), bytesAt_replicate hid, Bytes.le_zero]

/-- The vtable that `endTable` writes before it looks for an older one. -/
theorem run_vtable {loc size : Nat} {fields : List (Nat × Nat)} {rest : List UInt8}
    (hproper : Proper (fields.map Prod.snd))
    (hbuf : b.buf = emptyVTable (vtableSize fields) size ++ rest) :
    ∃ vt, (∀ asserts, writeFields loc fields asserts b =
        some ((), { b with buf := vt ++ rest })) ∧ Entries vt (vtableSize fields) loc fields := by
  have hn : 4 ≤ vtableSize fields := Nat.le_max_right _ _
  have heven : ∀ f ∈ fields, f.2 % 2 = 0 :=
    fun f hf => hproper.even f.2 (List.mem_map_of_mem hf)
  have hlow : ∀ f ∈ fields, 4 ≤ f.2 := fun f hf => hproper.low f.2 (List.mem_map_of_mem hf)
  have hfit : ∀ f ∈ fields, f.2 + 2 ≤ vtableSize fields := by
    intro f hf
    have := le_maxVoffset hf
    unfold vtableSize
    omega
  have hsize : vtableSize fields % 2 = 0 := by
    have := maxVoffset_even heven
    unfold vtableSize
    omega
  obtain ⟨vt, hrun, hlength, hstored, hframe⟩ := run_writeFields hproper hfit
    (length_emptyVTable hn size) (fun f hf => emptyVTable_slot size (hlow f hf) (hfit f hf)) hbuf
  refine ⟨vt, hrun, hlength, ?_, hstored, ?_⟩
  · rw [hframe 0 fun f hf => .inl (by have := hlow f hf; omega), emptyVTable_size hn]
  · intro id hid hid4 hlt hnot
    rw [hframe id, emptyVTable_slot size hid4 (by omega)]
    intro f hf
    have hne : f.2 ≠ id := fun heq => hnot (List.mem_map.2 ⟨f, hf, heq⟩)
    have := heven f hf
    omega


/-- What stands in a vtable stands in the buffer that holds it. -/
theorem holds_entry {buf vt bytes : List UInt8} {v i n : Nat} (h : Holds buf v vt)
    (hentry : bytesAt vt i n = some bytes) : Holds buf (v - i) bytes := by
  have hi : i + n ≤ vt.length := by
    unfold bytesAt at hentry
    split at hentry
    · assumption
    · cases hentry
  obtain ⟨front, rest, rfl, rfl⟩ := h
  have hplace : vt.length + rest.length - i ≤ (front ++ vt ++ rest).length := by
    simp only [List.length_append]
    omega
  refine holds_of_bytesAt (n := n) hplace ?_
  have hshift := bytesAt_shift hentry front rest
  have haddress : (front ++ vt ++ rest).length - (vt.length + rest.length - i) =
      front.length + i := by
    simp only [List.length_append]
    omega
  rwa [haddress]

/-- The table reads its fields through the vtable that was chosen for it. -/
theorem Entries.reads {vt buf : List UInt8} {n loc v : Nat} {fields : List (Nat × Nat)}
    (h : Entries vt n loc fields)
    (hword : Holds buf loc (le 4 (unsigned 4 ((v : Int) - loc)))) (hvt : Holds buf v vt)
    (hsize : buf.length < 2147483648) (hn : n < 65536)
    (hfit : ∀ f ∈ fields, f.2 < n) :
    (∀ f ∈ fields, Reads (getOptionalFieldOffset f.2) buf loc ((loc - f.1) % 65536)) ∧
      ∀ id, id % 2 = 0 → 4 ≤ id → id ∉ fields.map Prod.snd →
        Reads (getOptionalFieldOffset id) buf loc 0 := by
  have hlocle := hword.le_length
  have hvle := hvt.le_length
  have hnv : n ≤ v := h.length ▸ hvt.length_le
  have hrange : ((256 ^ 4 : Nat) : Int) = 4294967296 := rfl
  have hdistance : signed 4 (unsigned 4 ((v : Int) - loc)) = (v : Int) - loc :=
    signed_unsigned (by rw [hrange]; omega) (by rw [hrange]; omega)
  have hlt : unsigned 4 ((v : Int) - loc) < 4294967296 := unsigned_lt 4 _
  have hhead : Holds buf v (le 2 n) := holds_entry hvt h.size
  constructor
  · intro f hf
    have hentry : bytesAt vt f.2 2 = some (le 2 ((loc - f.1) % 65536)) := by
      rw [h.stored f hf, ← le_mod 2 (loc - f.1)]
      rfl
    exact reads_getOptionalFieldOffset hword hlt hvle hdistance hhead hn
      (Nat.mod_lt _ (by decide)) (fun _ => holds_entry hvt hentry)
      (fun hge => absurd (hfit f hf) (Nat.not_lt.2 hge)) hnv
  · intro id heven hlow hnot
    exact reads_getOptionalFieldOffset hword hlt hvle hdistance hhead hn (by decide)
      (fun hid => holds_entry hvt (h.absent id heven hlow hid hnot)) (fun _ => rfl) hnv

/-- An older vtable that is the same as the new one. -/
theorem holds_of_sameVTable {vt rest : List UInt8} {v : Nat}
    (h : sameVTable (vt ++ rest) vt.length v = true) (hv : v ≤ rest.length) :
    Holds rest v vt := by
  have hfront : bytesAt (vt ++ rest) 0 vt.length = some vt := by
    have hall := (Holds.push vt rest).bytesAt
    rwa [List.length_append, Nat.sub_self] at hall
  unfold sameVTable at h
  rw [Bool.and_eq_true, decide_eq_true_eq, decide_eq_true_eq, hfront] at h
  exact (holds_of_bytesAt (by rw [List.length_append]; omega) h.2).of_append hv

/-- No older vtable is the same: the new one is remembered. -/
theorem run_closeTable_new {loc : Nat} {vt rest : List UInt8}
    (hbuf : b.buf = vt ++ (le 4 0 ++ rest)) (hloc : loc = 4 + rest.length)
    (hfind : b.vtables.find? (sameVTable b.buf vt.length) = none) (asserts : Bool) :
    closeTable loc vt.length asserts b = checked asserts (vt.length + loc) ((),
      { b with
        buf := vt ++ (le 4 (unsigned 4 (((vt.length + loc : Nat) : Int) - loc)) ++ rest)
        vtables := b.vtables ++ [vt.length + loc], nested := false }) := by
  have hlength : b.buf.length = vt.length + loc := by
    rw [hbuf, hloc]
    simp only [List.length_append, Bytes.length_le]
  have hrun : dedupVTable loc vt.length asserts b = some (vt.length + loc, b) := by
    rw [dedupVTable, hfind, hlength]
  have hremember : rememberVTable (vt.length + loc) asserts b =
      checked asserts (vt.length + loc)
        ((), { b with vtables := b.vtables ++ [vt.length + loc] }) := by
    unfold rememberVTable
    rw [run_bind_of run_getSize, if_pos hlength.symm, ← hlength]
    exact run_bind_last run_ensureSpace (run_modify _)
  have hright := write_append_right vt 0
    (le 4 (unsigned 4 (((vt.length + loc : Nat) : Int) - loc))) (le 4 0 ++ rest)
  rw [Nat.add_zero, write_zero (by rw [Bytes.length_le, Bytes.length_le])] at hright
  unfold closeTable
  rw [run_bind_of hrun]
  refine run_bind_last hremember ?_
  rw [run_modify]
  dsimp only
  rw [hlength, Nat.add_sub_cancel, hbuf, hright]

/-- An older vtable is the same: the new one is taken back. -/
theorem run_closeTable_old {loc v : Nat} {vt rest : List UInt8}
    (hbuf : b.buf = vt ++ (le 4 0 ++ rest)) (hloc : loc = 4 + rest.length) (hv : v ≤ rest.length)
    (hfind : b.vtables.find? (sameVTable b.buf vt.length) = some v) (asserts : Bool) :
    closeTable loc vt.length asserts b = some ((),
      { b with buf := le 4 (unsigned 4 ((v : Int) - loc)) ++ rest, nested := false }) := by
  have hsize : (le 4 0 ++ rest).length = loc := by
    rw [List.length_append, Bytes.length_le, hloc]
  have hdrop : b.buf.drop (b.buf.length - loc) = le 4 0 ++ rest := by
    rw [hbuf, List.length_append, hsize, Nat.add_sub_cancel, List.drop_left]
  have hrun : dedupVTable loc vt.length asserts b = some (v, { b with buf := le 4 0 ++ rest }) := by
    rw [dedupVTable, hfind, hdrop]
  have hremember : rememberVTable v asserts { b with buf := le 4 0 ++ rest } =
      some ((), { b with buf := le 4 0 ++ rest }) := by
    have hne : v ≠ loc := by omega
    unfold rememberVTable
    rw [run_bind_of run_getSize, hsize, if_neg hne]
    rfl
  unfold closeTable
  rw [run_bind_of hrun, run_bind_of hremember, run_modify]
  dsimp only
  rw [hsize, Nat.sub_self, write_zero (by rw [Bytes.length_le, Bytes.length_le])]

/-- The vtable is a new one in front of the table or an older one behind it. `rest` is what
was in the buffer before the word for the distance. -/
theorem run_closeTable {loc : Nat} {vt rest : List UInt8} (hbuf : b.buf = vt ++ (le 4 0 ++ rest))
    (hloc : loc = 4 + rest.length) (hold : ∀ v ∈ b.vtables, v ≤ rest.length)
    (hpos : 0 < vt.length) :
    ∃ (vtUse : Nat) (front : List UInt8) (vtables : List Nat) (p : Nat),
      (∀ asserts, closeTable loc vt.length asserts b = checked asserts p ((),
        { b with
          buf := front ++ (le 4 (unsigned 4 ((vtUse : Int) - loc)) ++ rest)
          vtables, nested := false })) ∧
      p ≤ front.length + loc ∧ front.length ≤ vt.length ∧
      Holds (front ++ (le 4 (unsigned 4 ((vtUse : Int) - loc)) ++ rest)) vtUse vt ∧
      (∀ v ∈ vtables, v ≤ front.length + loc) ∧
      (b.vtables.find? (sameVTable b.buf vt.length) = none →
        front = vt ∧ vtables = b.vtables ++ [vt.length + loc]) := by
  cases hfind : b.vtables.find? (sameVTable b.buf vt.length) with
  | none =>
      refine ⟨vt.length + loc, vt, b.vtables ++ [vt.length + loc], vt.length + loc,
        run_closeTable_new hbuf hloc hfind, Nat.le_refl _, Nat.le_refl _, ?_, ?_,
        fun _ => ⟨rfl, rfl⟩⟩
      · have hpush := Holds.push vt
          (le 4 (unsigned 4 (((vt.length + loc : Nat) : Int) - loc)) ++ rest)
        rwa [List.length_append, Bytes.length_le, ← hloc] at hpush
      · intro v hv
        rcases List.mem_append.1 hv with hv | hv
        · have := hold v hv
          omega
        · exact Nat.le_of_eq (List.mem_singleton.1 hv)
  | some v =>
      have hv := hold v (List.mem_of_find?_eq_some hfind)
      refine ⟨v, [], b.vtables, 0, ?_, Nat.zero_le _, Nat.zero_le _, ?_, ?_, nofun⟩
      · intro asserts
        rw [run_closeTable_old hbuf hloc hv hfind, checked_zero, List.nil_append]
      · have hsame := List.find?_some hfind
        rw [hbuf] at hsame
        have hlength : v ≤ (le 4 0 ++ rest).length := by
          rw [List.length_append]
          omega
        rw [List.nil_append]
        exact ((holds_of_sameVTable hsame hlength).of_append hv).prepend _
      · intro v hv
        have := hold v hv
        omega

theorem run_newVTable {start loc : Nat} (hproper : Proper (b.fields.map Prod.snd)) :
    ∃ vt, (∀ asserts, (asserts = true → loc - start < 65536) →
        newVTable start loc b.fields asserts b =
          checked asserts b.buf.length ((), { b with buf := vt ++ b.buf, fields := [] })) ∧
      Entries vt (vtableSize b.fields) loc b.fields := by
  have hn : 4 ≤ vtableSize b.fields := Nat.le_max_right _ _
  have hinner : 2 + (le 2 (loc - start)).length ≤
      (List.replicate (vtableSize b.fields) (0 : UInt8)).length := by
    rw [Bytes.length_le, List.length_replicate]
    omega
  have houter : 0 + (le 2 (vtableSize b.fields)).length ≤
      (write 2 (le 2 (loc - start)) (List.replicate (vtableSize b.fields) 0)).length := by
    rw [Bytes.length_le, length_write_replicate hn]
    omega
  let empty : Builder :=
    { b with buf := emptyVTable (vtableSize b.fields) (loc - start) ++ b.buf }
  have hempty : empty.buf = emptyVTable (vtableSize b.fields) (loc - start) ++ b.buf := rfl
  obtain ⟨vt, hwrite, hentries⟩ := run_vtable hproper hempty
  refine ⟨vt, fun asserts hsize => ?_, hentries⟩
  refine run_bind_last (run_makeSpace _) ?_
  rw [run_bind_of (run_assertThat fun h => decide_eq_true (hsize h)),
    run_bind_of (run_modify _), run_bind_of (run_modify _)]
  simp only [write_append_left hinner, write_append_left houter]
  exact run_bind_of (hwrite asserts)

/-- What `endTable` leaves behind: the table is at the offset `loc`, and each field is found
at its place, cut to 16 bits, or found not to be stored. -/
structure Closed (b b' : Builder) (loc top : Nat) : Prop where
  grows : ∃ front, b'.buf = front ++ b.buf ∧ front.length ≤ top + 9
  fields : b'.fields = []
  nested : b'.nested = false
  minalign : b'.minalign = max b.minalign 4
  vtables : ∀ v ∈ b'.vtables, v ≤ b'.buf.length
  le_length : loc ≤ b'.buf.length
  stored : b'.buf.length < 2147483648 → ∀ f ∈ b.fields,
    Reads (getOptionalFieldOffset f.2) b'.buf loc ((loc - f.1) % 65536)
  absent : b'.buf.length < 2147483648 → ∀ id, id % 2 = 0 → 4 ≤ id → id ∉ b.fields.map Prod.snd →
    Reads (getOptionalFieldOffset id) b'.buf loc 0

/-- The table has a vtable of its own, which is now at the front of the buffer. -/
structure Fresh (b b' : Builder) (loc : Nat) : Prop where
  length : b'.buf.length = vtableSize b.fields + loc
  vtables : b'.vtables = b.vtables ++ [b'.buf.length]
  size : Holds b'.buf b'.buf.length (le 2 (vtableSize b.fields))

/-- No vtable of the builder has `n` as its size. -/
def NoVTable (b : Builder) (n : Nat) : Prop :=
  ∀ v ∈ b.vtables, ∃ k, k < 65536 ∧ k ≠ n ∧ Holds b.buf v (le 2 k)

theorem sameVTable_eq_false {buf : List UInt8} {n k v : Nat} (hk : k < 65536) (hne : k ≠ n)
    (h : Holds buf v (le 2 k)) : sameVTable buf n v = false := by
  rw [sameVTable, h.readScalar_two hk]
  simp [hne]

/-- The sizes of the older vtables tell them from a new one. -/
theorem NoVTable.find?_eq_none {n : Nat} {buf front : List UInt8} (h : NoVTable b n)
    (hbuf : buf = front ++ b.buf) : b.vtables.find? (sameVTable buf n) = none := by
  rw [List.find?_eq_none]
  intro v hv
  obtain ⟨k, hk, hne, hholds⟩ := h v hv
  rw [hbuf, sameVTable_eq_false hk hne (hholds.prepend front)]
  decide

/-- The parts of `endTable`, one after the other. -/
theorem run_endTable_of {start p : Nat} {full b' : Builder} {asserts : Bool}
    (hnested : asserts = true → b.nested = true)
    (hmake : newVTable start (b.next 4) b.fields asserts (b.push 4 0) =
      checked asserts (b.next 4) ((), full))
    (hclose : closeTable (b.next 4) (vtableSize b.fields) asserts full =
      checked asserts p ((), b')) :
    endTable start asserts b = checked asserts (max (b.next 4) p) (b.next 4, b') := by
  have hfields : (b.push 4 0).fields = b.fields := rfl
  unfold endTable
  rw [run_bind_of (run_assertThat hnested)]
  refine run_bind_next (run_pushElement 4 0) ?_ ?_
  · rw [run_bind_of run_get, hfields]
    exact run_bind_max hmake (run_bind_last hclose (run_pure _))
  · refine Nat.le_trans ?_ (Nat.le_max_left _ _)
    exact Nat.le_add_left _ _

theorem run_endTable (start : Nat) {top : Nat} (hproper : Proper (b.fields.map Prod.snd))
    (htop : ∀ f ∈ b.fields, f.2 ≤ top) (htop2 : 2 ≤ top) (htop' : top + 2 < 65536)
    (hold : ∀ v ∈ b.vtables, v ≤ b.buf.length) :
    ∃ b' p, (∀ asserts, (asserts = true → b.nested = true ∧ b.next 4 - start < 65536) →
        endTable start asserts b = checked asserts p (b.next 4, b')) ∧
      p ≤ b'.buf.length ∧ b.next 4 ≤ p ∧ Closed b b' (b.next 4) top ∧
      (NoVTable b (vtableSize b.fields) → Fresh b b' (b.next 4)) := by
  have hnext := b.length_push 4 0
  have hn : vtableSize b.fields ≤ top + 2 := by
    have := maxVoffset_le htop
    unfold vtableSize
    omega
  have hlength := b.le_length_aligned 0 4
  obtain ⟨vt, hnew, hentries⟩ : ∃ vt, (∀ asserts, (asserts = true → b.next 4 - start < 65536) →
      newVTable start (b.next 4) b.fields asserts (b.push 4 0) =
        checked asserts (b.push 4 0).buf.length
          ((), { b.push 4 0 with buf := vt ++ (b.push 4 0).buf, fields := [] })) ∧
      Entries vt (vtableSize b.fields) (b.next 4) b.fields :=
    run_newVTable hproper
  have hvt := hentries.length
  have hvt4 : 4 ≤ vt.length := hvt ▸ Nat.le_max_right _ _
  let full : Builder := { b.push 4 0 with buf := vt ++ (b.push 4 0).buf, fields := [] }
  have hfull : full.buf = vt ++ (le 4 0 ++ (b.aligned 0 4).buf) := rfl
  obtain ⟨vtUse, front, vtables, p, hclose, hp, hfront, hholds, hvtables, hfresh⟩ :=
    run_closeTable hfull rfl (fun v hv => Nat.le_trans (hold v hv) hlength) (by omega)
  have hloc : 4 + (b.aligned 0 4).buf.length = b.next 4 := rfl
  rw [hloc] at hclose hholds hvtables hp hfresh
  have hword := (Holds.push (le 4 (unsigned 4 ((vtUse : Int) - b.next 4)))
    (b.aligned 0 4).buf).prepend front
  rw [Bytes.length_le, hloc] at hword
  have hsize : (front ++ (le 4 (unsigned 4 ((vtUse : Int) - b.next 4)) ++
      (b.aligned 0 4).buf)).length = front.length + b.next 4 := by
    rw [List.length_append, List.length_append, Bytes.length_le, hloc]
  have hreads := fun hsmall => hentries.reads hword hholds hsmall (by omega)
    (fun f hf => by
      have := le_maxVoffset hf
      unfold vtableSize
      omega)
  refine ⟨{ full with
      buf := front ++ (le 4 (unsigned 4 ((vtUse : Int) - b.next 4)) ++ (b.aligned 0 4).buf)
      vtables, nested := false }, max (b.next 4) p, ?_, ?_, Nat.le_max_left _ _,
    ⟨?_, rfl, rfl, rfl, ?_, hword.le_length, fun h => (hreads h).1, fun h => (hreads h).2⟩, ?_⟩
  · intro asserts h
    have hmake := (hnew asserts fun ha => (h ha).2).trans (congrArg (checked asserts · _) hnext)
    exact run_endTable_of (fun ha => (h ha).1) hmake (hvt ▸ hclose asserts)
  · rw [hsize]
    omega
  · refine ⟨front ++ (le 4 (unsigned 4 ((vtUse : Int) - b.next 4)) ++
      List.replicate (paddingBytes (b.buf.length + 0) 4) 0), ?_, ?_⟩
    · simp only [List.append_assoc]
      rfl
    · simp only [List.length_append, Bytes.length_le, List.length_replicate, paddingBytes_four]
      omega
  · intro v hv
    rw [hsize]
    exact hvtables v hv
  · intro hno
    obtain ⟨front', hfront'⟩ := b.buf_push 4 0
    have hbehind : full.buf = (vt ++ front') ++ b.buf := by
      rw [List.append_assoc, ← hfront']
    obtain ⟨rfl, rfl⟩ := hfresh ((hvt ▸ hno).find?_eq_none hbehind)
    refine ⟨?_, ?_, ?_⟩
    · rw [hsize, hvt]
    · rw [hsize]
      rfl
    · have hhead := holds_entry (Holds.push front
        (le 4 (unsigned 4 ((vtUse : Int) - b.next 4)) ++ (b.aligned 0 4).buf)) hentries.size
      rw [Nat.sub_zero, ← List.length_append] at hhead
      exact hhead

end VTable

end FlatBuffers
