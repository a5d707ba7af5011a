import Grit.Library.FlatObjects

/-!
# How large a FlatBuffer gets

No call makes the buffer smaller, apart from the vtables that are dropped within `endTable`.
So the calls that build a message either stay within the largest size, with the assertions
or without, or they end the program with the assertions and leave a buffer that is too large
without them.
-/

namespace FlatBuffers

open Bytes

section Growth

variable {α β : Type}

/-- The calls add at least `k` bytes, and succeed without the assertions. -/
structure Expands (k : Nat) (x : Build α) : Prop where
  grows : ∀ asserts b a b', x asserts b = some (a, b') → b.buf.length + k ≤ b'.buf.length
  total : ∀ b, ∃ r, x false b = some r

/-- With the assertions the calls do not succeed on a buffer of the largest size. -/
def Stops (x : Build α) : Prop :=
  ∀ b : Builder, maxBufferSize ≤ b.buf.length → x true b = none

theorem Expands.weaken {k : Nat} {x : Build α} (h : Expands k x) : Expands 0 x :=
  ⟨fun asserts b a b' hrun => by have := h.grows asserts b a b' hrun; omega, h.total⟩

theorem expands_pure (a : α) : Expands 0 (pure a : Build α) where
  grows asserts b a' b' h := by
    obtain ⟨-, rfl⟩ := Prod.mk.inj (Option.some.inj h)
    exact Nat.le_refl _
  total b := ⟨_, rfl⟩

theorem Expands.bind {j k : Nat} {x : Build α} {f : α → Build β} (hx : Expands j x)
    (hf : ∀ a, Expands k (f a)) : Expands (j + k) (x >>= f) where
  grows asserts b c b' h := by
    obtain ⟨a, b₁, hrun, hrun'⟩ := bind_eq_some.1 h
    have hfirst := hx.grows _ _ _ _ hrun
    have hsecond := (hf a).grows _ _ _ _ hrun'
    omega
  total b := by
    obtain ⟨⟨a, b₁⟩, hrun⟩ := hx.total b
    obtain ⟨r, hrun'⟩ := (hf a).total b₁
    exact ⟨r, by rw [run_bind_of hrun, hrun']⟩

/-- Calls that need not add anything, one after the other. -/
theorem Expands.andThen {x : Build α} {f : α → Build β} (hx : Expands 0 x)
    (hf : ∀ a, Expands 0 (f a)) : Expands 0 (x >>= f) :=
  hx.bind hf

theorem expands_modify {f : Builder → Builder} (h : ∀ b, (f b).buf = b.buf) :
    Expands 0 (modify f : Build Unit) where
  grows asserts b a b' hrun := by
    obtain ⟨-, rfl⟩ := Prod.mk.inj (Option.some.inj hrun)
    rw [h]
    exact Nat.le_refl _
  total b := ⟨_, rfl⟩

theorem expands_get : Expands 0 (get : Build Builder) where
  grows asserts b a b' hrun := by
    obtain ⟨-, rfl⟩ := Prod.mk.inj (Option.some.inj hrun)
    exact Nat.le_refl _
  total b := ⟨_, rfl⟩

theorem expands_getSize : Expands 0 getSize where
  grows asserts b a b' hrun := by
    obtain ⟨-, rfl⟩ := Prod.mk.inj (Option.some.inj hrun)
    exact Nat.le_refl _
  total b := ⟨_, rfl⟩

theorem expands_assertThat (holds : Builder → Bool) : Expands 0 (assertThat holds) where
  grows asserts b a b' hrun := by
    unfold assertThat at hrun
    split at hrun
    · cases hrun
    · obtain ⟨-, rfl⟩ := Prod.mk.inj (Option.some.inj hrun)
      exact Nat.le_refl _
  total b := ⟨_, rfl⟩

theorem eq_of_checked {x : Option (α × Builder)} {asserts : Bool} {peak : Nat}
    {r r' : α × Builder}
    (h : x = checked asserts peak r) (hx : x = some r') : r' = r := by
  rw [hx, checked] at h
  split at h
  · cases h
  · exact Option.some.inj h

/-- Calls that end the program after some that check the size. -/
theorem run_bind_stops {x : Build α} {f : α → Build β} {b b₁ : Builder} {a : α} {peak : Nat}
    (hx : x true b = checked true peak (a, b₁)) (hf : f a true b₁ = none) :
    (x >>= f) true b = none := by
  cases hrun : x true b with
  | none => exact run_bind_none f hrun
  | some r =>
      rw [eq_of_checked hx hrun] at hrun
      rw [run_bind_of hrun, hf]

/-- Calls that are known to give a builder, but for the check of the size. -/
theorem expands_of_checked {k : Nat} {x : Build α} {peak : Builder → Nat}
    {r : Builder → α × Builder} (h : ∀ asserts b, x asserts b = checked asserts (peak b) (r b))
    (hgrows : ∀ b, b.buf.length + k ≤ (r b).2.buf.length) : Expands k x where
  grows asserts b a b' hrun := by
    have heq := hgrows b
    rwa [← eq_of_checked (h asserts b) hrun] at heq
  total b := ⟨_, (h false b).trans (checked_false _ _)⟩

theorem stops_of_checked {x : Build α} {peak : Builder → Nat} {r : Builder → α × Builder}
    (h : ∀ asserts b, x asserts b = checked asserts (peak b) (r b))
    (hpeak : ∀ b, b.buf.length ≤ peak b) : Stops x := by
  intro b hb
  rw [h, checked_true, if_pos (Nat.le_trans hb (hpeak b))]

theorem Stops.bind {x : Build α} (h : Stops x) (f : α → Build β) : Stops (x >>= f) :=
  fun b hb => run_bind_none f (h b hb)

theorem Stops.after {x : Build α} {f : α → Build β} (hx : Expands 0 x) (hf : ∀ a, Stops (f a)) :
    Stops (x >>= f) := by
  intro b hb
  cases hrun : x true b with
  | none => exact run_bind_none f hrun
  | some r =>
      obtain ⟨a, b₁⟩ := r
      rw [run_bind_of hrun]
      exact hf a b₁ (Nat.le_trans hb (hx.grows _ _ _ _ hrun))

theorem expands_makeSpace (bytes : List UInt8) : Expands bytes.length (makeSpace bytes) := by
  refine expands_of_checked (fun _ _ => run_makeSpace bytes) fun b => ?_
  rw [List.length_append]
  omega

theorem expands_pushBytes (bytes : List UInt8) : Expands 0 (pushBytes bytes) := by
  unfold pushBytes
  split
  · exact expands_pure _
  · exact (expands_makeSpace bytes).weaken

theorem expands_preAlign (len alignment : Nat) : Expands 0 (preAlign len alignment) :=
  expands_of_checked (fun _ _ => run_preAlign len alignment)
    fun b => b.le_length_aligned len alignment

theorem stops_preAlign (len alignment : Nat) : Stops (preAlign len alignment) :=
  stops_of_checked (fun _ _ => run_preAlign len alignment) fun _ => Nat.le_refl _

theorem expands_pushElement (width element : Nat) : Expands width (pushElement width element) := by
  refine expands_of_checked (fun _ _ => run_pushElement width element) fun b => ?_
  have hge := b.le_length_aligned 0 width
  rw [b.length_push, Builder.next]
  omega

theorem stops_pushElement (width element : Nat) : Stops (pushElement width element) :=
  stops_of_checked (fun _ _ => run_pushElement width element)
    fun b => b.le_length_aligned 0 width

theorem expands_notNested : Expands 0 notNested :=
  (expands_assertThat _).andThen fun _ => expands_assertThat _

/-! ### Tables -/

theorem expands_startTable : Expands 0 startTable :=
  expands_notNested.andThen fun _ =>
    Expands.andThen (expands_modify fun _ => rfl) fun _ => expands_getSize

theorem expands_addElement (width field e def' : Nat) :
    Expands 0 (addElement width field e def') := by
  unfold addElement
  split
  · exact expands_pure _
  · refine (expands_pushElement width e).weaken.andThen fun _ => ?_
    exact (expands_assertThat _).andThen fun _ => expands_modify fun _ => rfl

theorem expands_referTo (off : Nat) : Expands 0 (referTo off) :=
  (expands_preAlign 0 4).andThen fun _ => (expands_assertThat _).andThen fun _ =>
    expands_getSize.andThen fun _ => expands_pure _

theorem expands_addOffset (field off : Nat) : Expands 0 (addOffset field off) := by
  unfold addOffset
  split
  · exact expands_pure _
  · exact (expands_referTo off).andThen fun _ => expands_addElement 4 field _ 0

theorem expands_add (a : Add) : Expands 0 (add a) := by
  cases a with
  | element width field e def' => exact expands_addElement width field e def'
  | offset field off => exact expands_addOffset field off

theorem expands_addAll (adds : List Add) : Expands 0 (addAll adds) := by
  induction adds with
  | nil => exact expands_pure _
  | cons a adds ih => exact (expands_add a).andThen fun _ => ih

theorem le_length_write (i : Nat) (bytes b : List UInt8) :
    b.length ≤ (write i bytes b).length := by
  simp only [write, List.length_append, List.length_take, List.length_drop]
  omega

theorem expands_write (i : Nat) (bytes : List UInt8) :
    Expands 0 (modify fun b => { b with buf := write i bytes b.buf } : Build Unit) where
  grows asserts b a b' hrun := by
    obtain ⟨-, rfl⟩ := Prod.mk.inj (Option.some.inj hrun)
    exact le_length_write i bytes b.buf
  total b := ⟨_, rfl⟩

theorem expands_writeFields (loc : Nat) (fields : List (Nat × Nat)) :
    Expands 0 (writeFields loc fields) := by
  induction fields with
  | nil => exact expands_pure _
  | cons f fields ih =>
      exact (expands_assertThat _).andThen fun _ => (expands_write _ _).andThen fun _ => ih

theorem expands_newVTable (start loc : Nat) (fields : List (Nat × Nat)) :
    Expands 0 (newVTable start loc fields) :=
  (expands_makeSpace _).weaken.andThen fun _ => (expands_assertThat _).andThen fun _ =>
    (expands_write _ _).andThen fun _ => (expands_write _ _).andThen fun _ =>
      (expands_writeFields loc fields).andThen fun _ => expands_modify fun _ => rfl

theorem expands_rememberVTable (vtUse : Nat) : Expands 0 (rememberVTable vtUse) := by
  refine expands_getSize.andThen fun size => ?_
  split
  · exact Expands.andThen (expands_assertThat _) fun _ => expands_modify fun _ => rfl
  · exact expands_pure _

/-- The table itself stays in the buffer when its vtable is dropped. -/
theorem grows_closeTable {loc vt1Size : Nat} {asserts : Bool} {b b' : Builder}
    (hloc : loc ≤ b.buf.length) (h : closeTable loc vt1Size asserts b = some ((), b')) :
    loc ≤ b'.buf.length := by
  obtain ⟨vtUse, b₁, hdedup, hrest⟩ := bind_eq_some.1 h
  have hkept : loc ≤ b₁.buf.length := by
    unfold dedupVTable at hdedup
    split at hdedup
    · obtain ⟨-, rfl⟩ := Prod.mk.inj (Option.some.inj hdedup)
      rw [List.length_drop]
      omega
    · obtain ⟨-, rfl⟩ := Prod.mk.inj (Option.some.inj hdedup)
      exact hloc
  obtain ⟨_, b₂, hremember, hlast⟩ := bind_eq_some.1 hrest
  have hsame := (expands_rememberVTable vtUse).grows _ _ _ _ hremember
  obtain ⟨-, rfl⟩ := Prod.mk.inj (Option.some.inj hlast)
  exact Nat.le_trans hkept (Nat.le_trans hsame (le_length_write _ _ _))

theorem total_closeTable (loc vt1Size : Nat) (b : Builder) :
    ∃ b', closeTable loc vt1Size false b = some ((), b') := by
  obtain ⟨⟨vtUse, b₁⟩, hdedup⟩ : ∃ r, dedupVTable loc vt1Size false b = some r := by
    unfold dedupVTable
    split
    · exact ⟨_, rfl⟩
    · exact ⟨_, rfl⟩
  obtain ⟨⟨_, b₂⟩, hremember⟩ := (expands_rememberVTable vtUse).total b₁
  exact ⟨_, by rw [closeTable, run_bind_of hdedup, run_bind_of hremember, run_modify]⟩

theorem expands_endTable (start : Nat) : Expands 0 (endTable start) where
  grows asserts b loc b' h := by
    obtain ⟨_, b₁, hassert, h⟩ := bind_eq_some.1 h
    obtain ⟨loc', b₂, hpush, h⟩ := bind_eq_some.1 h
    obtain ⟨_, b₃, hget, h⟩ := bind_eq_some.1 h
    obtain ⟨_, b₄, hnew, h⟩ := bind_eq_some.1 h
    obtain ⟨_, b₅, hclose, h⟩ := bind_eq_some.1 h
    have hfirst := (expands_assertThat _).grows _ _ _ _ hassert
    have hsecond := (expands_pushElement 4 0).grows _ _ _ _ hpush
    have hthird := expands_get.grows _ _ _ _ hget
    have hfourth := (expands_newVTable _ _ _).grows _ _ _ _ hnew
    have hlast := (expands_pure _).grows _ _ _ _ h
    have hloc : loc' = b₂.buf.length := by
      obtain ⟨rfl, rfl⟩ := Prod.mk.inj (eq_of_checked (run_pushElement 4 0) hpush)
      exact (b₁.length_push 4 0).symm
    have hclosed := grows_closeTable (by omega) hclose
    omega
  total b := by
    obtain ⟨⟨_, b₁⟩, hassert⟩ := (expands_assertThat fun b => b.nested).total b
    obtain ⟨⟨loc, b₂⟩, hpush⟩ := (expands_pushElement 4 0).total b₁
    obtain ⟨⟨_, b₃⟩, hnew⟩ := (expands_newVTable start loc b₂.fields).total b₂
    obtain ⟨b₄, hclose⟩ := total_closeTable loc (vtableSize b₂.fields) b₃
    exact ⟨_, by rw [endTable, run_bind_of hassert, run_bind_of hpush, run_bind_of run_get,
      run_bind_of hnew, run_bind_of hclose, run_pure]⟩

theorem expands_table (adds : List Add) : Expands 0 (table adds) :=
  expands_startTable.andThen fun _ => (expands_addAll adds).andThen fun _ => expands_endTable _

theorem stops_table (adds : List Add) : Stops (table adds) :=
  Stops.after expands_startTable fun _ => Stops.after (expands_addAll adds) fun _ =>
    Stops.after (expands_assertThat _) fun _ => (stops_pushElement 4 0).bind _

/-! ### Strings and vectors -/

theorem expands_createString (str : List UInt8) : Expands 0 (createString str) :=
  expands_notNested.andThen fun _ => (expands_preAlign _ 4).andThen fun _ =>
    (expands_makeSpace _).weaken.andThen fun _ => (expands_pushBytes str).andThen fun _ =>
      (expands_pushElement 4 _).weaken.andThen fun _ => expands_getSize

theorem expands_pushOffsets (offs : List Nat) : Expands 0 (pushOffsets offs) := by
  induction offs with
  | nil => exact expands_pure _
  | cons off offs ih =>
      exact ih.andThen fun _ => (expands_referTo off).andThen fun _ =>
        (expands_pushElement 4 _).weaken.andThen fun _ => expands_pure _

theorem expands_createVector (offs : List Nat) : Expands 0 (createVector offs) := by
  have hstart : Expands 0 (startVector offs.length 4) :=
    expands_notNested.andThen fun _ => Expands.andThen (expands_modify fun _ => rfl) fun _ =>
      (expands_preAlign _ 4).andThen fun _ => expands_preAlign _ 4
  have hend : Expands 0 (endVector offs.length) :=
    (expands_assertThat _).andThen fun _ =>
      Expands.andThen (expands_modify fun _ => rfl) fun _ => (expands_pushElement 4 _).weaken
  exact hstart.andThen fun _ => (expands_pushOffsets offs).andThen fun _ => hend

theorem stops_createVector (offs : List Nat) : Stops (createVector offs) := by
  refine Stops.bind (Stops.after expands_notNested fun _ => ?_) _
  exact Stops.after (expands_modify fun _ => rfl) fun _ => (stops_preAlign _ 4).bind _

theorem expands_finish (root : Nat) : Expands 4 (finish root) := by
  have hlast : Expands (4 + 0) (do
      let distance ← referTo root
      let _ ← pushElement 4 distance : Build Unit) :=
    Nat.add_comm 0 (4 + 0) ▸ (expands_referTo root).bind fun distance =>
      (expands_pushElement 4 distance).bind fun _ => expands_pure _
  have hforget : ∀ b : Builder, ({ b with vtables := [] } : Builder).buf = b.buf := fun _ => rfl
  have hall := expands_notNested.bind fun _ => (expands_modify hforget).bind fun _ =>
    expands_get.bind fun b => (expands_preAlign 4 b.minalign).bind fun _ => hlast
  rwa [Nat.zero_add, Nat.zero_add, Nat.zero_add, Nat.zero_add] at hall

theorem stops_finish (root : Nat) : Stops (finish root) :=
  Stops.after expands_notNested fun _ => Stops.after (expands_modify fun _ => rfl) fun _ =>
    Stops.after expands_get fun b => (stops_preAlign 4 b.minalign).bind _

end Growth

/-! ### Steps that yield an object -/

section Yields

variable {α β : Type}

/-- The buffer gets too large: with the assertions the calls end the program. -/
structure Over (x : Build α) (b : Builder) : Prop where
  stops : x true b = none
  large : ∀ a b', x false b = some (a, b') → maxBufferSize ≤ b'.buf.length

theorem Over.bind {x : Build α} {f : α → Build β} {b : Builder} (h : Over x b)
    (hf : ∀ a, Expands 0 (f a)) : Over (x >>= f) b where
  stops := run_bind_none f h.stops
  large c b₂ hrun := by
    obtain ⟨a, b₁, hx, hrun'⟩ := bind_eq_some.1 hrun
    exact Nat.le_trans (h.large a b₁ hx) ((hf a).grows _ _ _ _ hrun')

theorem Over.of_large {x : Build α} {b : Builder} (hx : Expands 0 x) (hstops : Stops x)
    (hb : maxBufferSize ≤ b.buf.length) : Over x b :=
  ⟨hstops b hb, fun _ _ hrun => Nat.le_trans hb (hx.grows _ _ _ _ hrun)⟩

/-- The calls end with `Q`, or the buffer gets too large. -/
def Yields (x : Build α) (b : Builder) (Q : α → Builder → Prop) : Prop :=
  (∃ a b' p, (∀ asserts, x asserts b = checked asserts p (a, b')) ∧ p ≤ b'.buf.length ∧
    Grows b b' ∧ (b'.buf.length < 2147483648 → Q a b')) ∨ Over x b

theorem yields_pure {a : α} {b : Builder} {Q : α → Builder → Prop} (hready : Ready b)
    (h : b.buf.length < 2147483648 → Q a b) : Yields (pure a) b Q :=
  Or.inl ⟨a, b, 0, fun _ => (checked_zero _).symm, Nat.zero_le _, Grows.refl hready, h⟩

theorem Yields.bind {x : Build α} {f : α → Build β} {b : Builder} {Q : α → Builder → Prop}
    {R : β → Builder → Prop} (hx : Yields x b Q) (hexpands : ∀ a, Expands 0 (f a))
    (hf : ∀ a b', Grows b b' → (b'.buf.length < 2147483648 → Q a b') → Yields (f a) b' R) :
    Yields (x >>= f) b R := by
  rcases hx with ⟨a, b₁, p, hrun, hp, hgrows, hQ⟩ | hover
  · rcases hf a b₁ hgrows hQ with ⟨c, b₂, q, hrun', hq, hgrows', hR⟩ | hover
    · have hle := hgrows'.length_le
      exact Or.inl ⟨c, b₂, max p q, fun asserts => run_bind_max (hrun asserts) (hrun' asserts),
        by omega, hgrows.trans hgrows', hR⟩
    · have hunchecked := (hrun false).trans (checked_false _ _)
      refine Or.inr ⟨run_bind_stops (hrun true) hover.stops, fun c b₂ hall => ?_⟩
      rw [run_bind_of hunchecked] at hall
      exact hover.large c b₂ hall
  · exact Or.inr (hover.bind hexpands)

theorem Yields.imp {x : Build α} {b : Builder} {Q R : α → Builder → Prop} (h : Yields x b Q)
    (himp : ∀ a b', Grows b b' → Q a b' → R a b') : Yields x b R := by
  rcases h with ⟨a, b', p, hrun, hp, hgrows, hQ⟩ | hover
  · exact Or.inl ⟨a, b', p, hrun, hp, hgrows, fun hsmall => himp a b' hgrows (hQ hsmall)⟩
  · exact Or.inr hover

theorem yields_createString {b : Builder} (hready : Ready b) (str : List UInt8) :
    Yields (createString str) b fun o b' => o ≠ 0 ∧ Reads string b'.buf o str := by
  have hlength := b.length_withString str
  refine Or.inl ⟨_, _, _, fun asserts => run_createString fun _ => ⟨hready.nested, hready.fields⟩,
    Nat.sub_le _ _, Builder.grows_withString hready str, fun hsmall => ⟨by omega, ?_⟩⟩
  exact reads_string str _ (by omega)

theorem yields_createVector {read : Reader α} {l : List α} {offs : List Nat} {b : Builder}
    (hready : Ready b) (hlocal : Local read)
    (hoffs : b.buf.length < 2147483648 →
      List.Forall₂ (fun off a => off ≠ 0 ∧ Reads read b.buf off a) offs l) :
    Yields (createVector offs) b fun o b' => o ≠ 0 ∧ Reads (vector read) b'.buf o l := by
  by_cases hb : maxBufferSize ≤ b.buf.length
  · exact Or.inr (.of_large (expands_createVector offs) (stops_createVector offs) hb)
  · have hitems := hoffs (by unfold maxBufferSize at hb; omega)
    have hplace : ∀ off ∈ offs, off ≠ 0 ∧ off ≤ b.buf.length := by
      intro off hoff
      obtain ⟨i, hi, rfl⟩ := List.getElem_of_mem hoff
      have hitem := hitems.get hi (hitems.length_eq ▸ hi)
      exact ⟨hitem.1, hitem.2.1⟩
    obtain ⟨b', o, p, hrun, hp, hgrows, hpos, hreads⟩ := run_createVector hready hplace
    exact Or.inl ⟨o, b', p, hrun, hp, hgrows, fun hsmall =>
      ⟨hpos, hreads hsmall α read l hlocal (hitems.imp fun _ _ h => h.2)⟩⟩

theorem yields_tabled {adds : List Add} {top : Nat} {b : Builder} {Q : Nat → Builder → Prop}
    (hready : Ready b) (htabular : Tabular adds top) (htop : 2 ≤ top)
    (hsmall : 7 * adds.length + top < 60000)
    (htarget : b.buf.length < 2147483648 →
      ∀ field off, .offset field off ∈ adds → off ≤ b.buf.length)
    (hQ : b.buf.length < 2147483648 → ∀ o b', Holding b.buf b' o adds → Q o b') :
    Yields (table adds) b Q := by
  by_cases hb : maxBufferSize ≤ b.buf.length
  · exact Or.inr (.of_large (expands_table adds) (stops_table adds) hb)
  · have hroom : b.buf.length < 2147483648 := by unfold maxBufferSize at hb; omega
    obtain ⟨b', o, p, hrun, hp, htabled⟩ := run_table hready htabular (htarget hroom) htop hsmall
      (Nat.lt_of_not_le hb)
    exact Or.inl ⟨o, b', p, hrun, hp, htabled.grows,
      fun hsmall => hQ hroom o b' (htabled.holding hsmall)⟩

/-- A finished buffer. With the assertions it has `2 ^ 31` bytes at most, and is the same as
without them; its root is read from the beginning, whatever follows. -/
theorem Yields.finish {x : Build Nat} {b : Builder} {read : Reader α} {a : α}
    (h : Yields x b fun o b' => o ≠ 0 ∧ Reads read b'.buf o a) (hlocal : Local read)
    (htotal : ∀ b, ∃ r, x false b = some r) :
    ∃ b', (x >>= FlatBuffers.finish) false b = some ((), b') ∧
      (x >>= FlatBuffers.finish) true b =
        (if b'.buf.length ≤ 2147483648 then some ((), b') else none) ∧
      (b'.buf.length ≤ 2147483648 → ∀ rest, getRoot read (b'.buf ++ rest) = some a) := by
  -- without the assertions there is always a buffer
  have hlarge : ∀ o b₁, x false b = some (o, b₁) → maxBufferSize ≤ b₁.buf.length →
      (x >>= FlatBuffers.finish) true b = none →
      ∃ b', (x >>= FlatBuffers.finish) false b = some ((), b') ∧
        (x >>= FlatBuffers.finish) true b =
          (if b'.buf.length ≤ 2147483648 then some ((), b') else none) ∧
        (b'.buf.length ≤ 2147483648 → ∀ rest, getRoot read (b'.buf ++ rest) = some a) := by
    intro o b₁ hrun hb₁ hnone
    obtain ⟨⟨_, b'⟩, hfinish⟩ := (expands_finish o).total b₁
    have hgrows := (expands_finish o).grows _ _ _ _ hfinish
    have hover : ¬ b'.buf.length ≤ 2147483648 := by unfold maxBufferSize at hb₁; omega
    refine ⟨b', by rw [run_bind_of hrun, hfinish], ?_, fun hle => absurd hle hover⟩
    rw [hnone, if_neg hover]
  rcases h with ⟨o, b₁, p, hrun, hp, hgrows, hQ⟩ | hover
  · have hunchecked := (hrun false).trans (checked_false _ _)
    by_cases hsmall : b₁.buf.length < 2147483648
    · obtain ⟨hpos, hreads⟩ := hQ hsmall
      obtain ⟨hfinish, hmod, hlength, hroot⟩ := run_finish hgrows.ready ⟨hpos, hreads.1⟩
      have hall := fun asserts => run_bind_next (hrun asserts) (hfinish asserts) (by omega)
      refine ⟨b₁.finished o, (hall false).trans (checked_false _ _), ?_,
        fun hle => hroot hle α read a hlocal hreads⟩
      rw [hall, checked_true]
      have hlast : maxBufferSize ≤ (b₁.finished o).buf.length - 4 ↔
          ¬ (b₁.finished o).buf.length ≤ 2147483648 := by
        unfold maxBufferSize
        omega
      simp only [hlast, ite_not]
    · have hb₁ : maxBufferSize ≤ b₁.buf.length := by unfold maxBufferSize; omega
      exact hlarge o b₁ hunchecked hb₁ (run_bind_stops (hrun true) (stops_finish o b₁ hb₁))
  · obtain ⟨⟨o, b₁⟩, hrun⟩ := htotal b
    exact hlarge o b₁ hrun (hover.large o b₁ hrun) (run_bind_none _ hover.stops)

end Yields

end FlatBuffers
