import Grit.Library.FlatGrowth
import Grit.Message.Wire

/-!
# The round trip of a message

Each part of a message is built in front of the parts it refers to and reads back as what
was written; later parts do not disturb it. So the whole message comes back, provided that
its integers are of the width of the fields and that its bytes are not too many for the
builder.
-/

namespace Grit.Wire

open Bytes FlatBuffers

/-! ### Strings and vectors -/

/-- The calls build an object that reads as `a`. -/
structure Builds {α : Type} (x : Build Nat) (read : Reader α) (a : α) : Prop where
  expands : Expands 0 x
  yields : ∀ b, Ready b → Yields x b fun o b' => o ≠ 0 ∧ Reads read b'.buf o a

theorem fromUTF8?_bytes (s : String) : String.fromUTF8? ⟨(bytes s).toArray⟩ = some s := by
  have hbytes : (⟨(bytes s).toArray⟩ : ByteArray) = s.toByteArray := by rw [bytes]
  unfold String.fromUTF8?
  rw [hbytes, dif_pos s.isValidUTF8]
  rfl

theorem local_getString : Local getString :=
  local_string.bind fun _ _ _ _ _ _ h => h

theorem reads_getString {buf : List UInt8} {o : Nat} {s : String}
    (h : Reads string buf o (bytes s)) : Reads getString buf o s :=
  h.bind ⟨h.1, fromUTF8?_bytes s⟩

theorem builds_createString (s : String) : Builds (createString s) getString s where
  expands := expands_createString (bytes s)
  yields _ hready := (FlatBuffers.yields_createString hready (bytes s)).imp
    fun _ _ _ h => ⟨h.1, reads_getString h.2⟩

section Optional

variable {α : Type} {create : α → Build Nat} {read : Reader α}

theorem expands_optional {x : Option α} (hcreate : ∀ a, x = some a → Builds (create a) read a) :
    Expands 0 (optional create x) := by
  cases x with
  | none => exact expands_pure 0
  | some a => exact (hcreate a rfl).expands

theorem yields_optional {x : Option α} {b : Builder}
    (hcreate : ∀ a, x = some a → Builds (create a) read a) (hready : Ready b) :
    Yields (optional create x) b fun o b' => Refers read b'.buf x o := by
  cases x with
  | none => exact yields_pure hready fun _ => rfl
  | some a => exact (hcreate a rfl).yields b hready

theorem expands_createAll {l : List α} (hcreate : ∀ a ∈ l, Builds (create a) read a) :
    Expands 0 (createAll create l) := by
  induction l with
  | nil => exact expands_pure []
  | cons a l ih =>
      refine (hcreate a List.mem_cons_self).expands.andThen fun _ => ?_
      exact (ih fun a' ha' => hcreate a' (List.mem_cons_of_mem a ha')).andThen fun _ =>
        expands_pure _

theorem yields_createAll {l : List α} {b : Builder} (hlocal : Local read)
    (hcreate : ∀ a ∈ l, Builds (create a) read a) (hready : Ready b) :
    Yields (createAll create l) b fun offs b' =>
      List.Forall₂ (fun off a => off ≠ 0 ∧ Reads read b'.buf off a) offs l := by
  induction l generalizing b with
  | nil => exact yields_pure hready fun _ => .nil
  | cons a l ih =>
      have htail : ∀ a' ∈ l, Builds (create a') read a' :=
        fun a' ha' => hcreate a' (List.mem_cons_of_mem a ha')
      have hrest : ∀ o, Expands 0 (do
          let offs ← createAll create l
          return o :: offs : Build (List Nat)) :=
        fun o => (expands_createAll htail).andThen fun _ => expands_pure _
      refine ((hcreate a List.mem_cons_self).yields b hready).bind hrest fun o b₁ hgrows ho => ?_
      refine (ih htail hgrows.ready).bind (fun _ => expands_pure _) fun offs b₂ hgrows' hoffs => ?_
      refine yields_pure hgrows'.ready fun hsmall => ?_
      have hfirst := ho (Nat.lt_of_le_of_lt hgrows'.length_le hsmall)
      exact .cons ⟨hfirst.1, hgrows'.reads hlocal hfirst.2⟩ (hoffs hsmall)

theorem builds_createVector {l : List α} (hlocal : Local read)
    (hcreate : ∀ a ∈ l, Builds (create a) read a) :
    Builds (createVector create l) (vector read) l where
  expands := (expands_createAll hcreate).andThen fun offs => expands_createVector offs
  yields _ hready := (yields_createAll hlocal hcreate hready).bind
    (fun offs => expands_createVector offs) fun _ _ hgrows hoffs =>
      FlatBuffers.yields_createVector hgrows.ready hlocal hoffs

end Optional

/-! ### Fields -/

/-- The value fits a field of the type `int`. -/
def Int32 (value : Int) : Prop := -2147483648 ≤ value ∧ value < 2147483648

instance (value : Int) : Decidable (Int32 value) := by unfold Int32; infer_instance

/-- The command stands for its integer. -/
def CmdValid (cmd : Cmd) : Prop := Int32 (code cmd) ∧ cmdOf (code cmd) = cmd

instance (cmd : Cmd) : Decidable (CmdValid cmd) := by unfold CmdValid; infer_instance

/-- The offsets among the fields. -/
def targets (adds : List Add) : List Nat :=
  adds.filterMap fun
    | .offset _ off => some off
    | .element .. => none

theorem mem_targets {adds : List Add} {field off : Nat} (h : .offset field off ∈ adds) :
    off ∈ targets adds :=
  List.mem_filterMap.2 ⟨_, h, rfl⟩

/-- The fields of a table in generated code and their widths. -/
def Layout (fields widths : List Nat) : Prop :=
  fields.length ≤ 7 ∧ fields.Nodup ∧ (∀ id ∈ fields, id % 2 = 0 ∧ 4 ≤ id ∧ id ≤ 16) ∧
    ∀ w ∈ widths, w = 1 ∨ w = 4

instance (fields widths : List Nat) : Decidable (Layout fields widths) := by
  unfold Layout
  infer_instance

theorem Layout.tabular {adds : List Add}
    (h : Layout (adds.map Add.field) (adds.map Add.width)) : Tabular adds 16 :=
  ⟨⟨h.2.1, fun id hid => (h.2.2.1 id hid).1, fun id hid => (h.2.2.1 id hid).2.1⟩, h.2.2.2,
    fun id hid => (h.2.2.1 id hid).2.2⟩

/-- A table whose layout, which does not depend on the values, is given as literals. -/
theorem yields_table {α : Type} {read : Reader α} {a : α} {adds : List Add} {b : Builder}
    (fields widths offs : List Nat) (hfields : adds.map Add.field = fields)
    (hwidths : adds.map Add.width = widths) (hoffs : targets adds = offs)
    (hlayout : Layout fields widths) (hready : Ready b)
    (hread : b.buf.length < 2147483648 → (∀ off ∈ offs, off ≤ b.buf.length) ∧
      ∀ b' o, Holding b.buf b' o adds → Reads read b'.buf o a) :
    Yields (table adds) b fun o b' => o ≠ 0 ∧ Reads read b'.buf o a := by
  subst hfields hwidths hoffs
  have hlength : (adds.map Add.field).length = adds.length := List.length_map _
  have hcount := hlayout.1
  refine yields_tabled hready hlayout.tabular (by omega) (by omega)
    (fun hsmall field off h => (hread hsmall).1 off (mem_targets h)) fun hsmall o b' hholding => ?_
  exact ⟨hholding.pos, (hread hsmall).2 b' o hholding⟩

section Holding

variable {buf : List UInt8} {b' : Builder} {loc : Nat} {adds : List Add}

theorem reads_getBool {field : Nat} {value : Bool} (h : Holding buf b' loc adds)
    (hmem : bool field value ∈ adds) : Reads (getBool field) b'.buf loc value := by
  have hbyte := h.element _ _ _ _ hmem (by cases value <;> decide)
  refine ⟨hbyte.1, ?_⟩
  unfold getBool
  rw [hbyte.2, Option.bind_eq_bind, Option.bind_some]
  cases value <;> rfl

theorem reads_getInt32_of_absent {field : Nat}
    (h : Reads (getOptionalFieldOffset field) buf loc 0) : Reads (getInt32 field) buf loc 0 := by
  have hword := reads_getField_of_absent 4 0 h
  refine ⟨hword.1, ?_⟩
  unfold getInt32
  rw [hword.2, Option.bind_eq_bind, Option.bind_some]
  decide

theorem reads_getBool_of_absent {field : Nat}
    (h : Reads (getOptionalFieldOffset field) buf loc 0) :
    Reads (getBool field) buf loc false := by
  have hbyte := reads_getField_of_absent 1 0 h
  refine ⟨hbyte.1, ?_⟩
  unfold getBool
  rw [hbyte.2, Option.bind_eq_bind, Option.bind_some]
  rfl

theorem reads_getCmd_of_int32 {n : Int} (h : Reads (getInt32 4) buf loc n) :
    Reads getCmd buf loc (cmdOf n) := by
  refine ⟨h.1, ?_⟩
  unfold getCmd
  rw [h.2, Option.bind_eq_bind, Option.bind_some]

theorem reads_getInt32_of_field {field : Nat} {value : Int} (hvalue : Int32 value)
    (h : Reads (getField 4 field 0) buf loc (unsigned 4 value)) :
    Reads (getInt32 field) buf loc value := by
  have hrange : ((256 ^ 4 : Nat) : Int) = 4294967296 := rfl
  have hsigned : signed 4 (unsigned 4 value) = value :=
    signed_unsigned (by rw [hrange]; have := hvalue.1; omega)
      (by rw [hrange]; have := hvalue.2; omega)
  refine ⟨h.1, ?_⟩
  unfold getInt32
  rw [h.2, Option.bind_eq_bind, Option.bind_some, hsigned]

theorem reads_getInt32 {field : Nat} {value : Int} (h : Holding buf b' loc adds)
    (hmem : int32 field value ∈ adds) (hvalue : Int32 value) :
    Reads (getInt32 field) b'.buf loc value :=
  reads_getInt32_of_field hvalue (h.element _ _ _ _ hmem (unsigned_lt 4 value))

theorem reads_getCmd {cmd : Cmd} (h : Holding buf b' loc adds)
    (hmem : int32 4 (code cmd) ∈ adds) (hcmd : CmdValid cmd) :
    Reads getCmd b'.buf loc cmd := by
  have hread := reads_getCmd_of_int32 (reads_getInt32 h hmem hcmd.1)
  rwa [hcmd.2] at hread

end Holding

theorem local_getInt32 (field : Nat) : Local (getInt32 field) :=
  (local_getField 4 field 0).bind fun _ => local_pure _

theorem local_getBool (field : Nat) : Local (getBool field) :=
  (local_getField 1 field 0).bind fun _ => local_pure _

theorem local_getCmd : Local getCmd := (local_getInt32 4).bind fun _ => local_pure _

/-! ### Tables -/

theorem local_readData : Local readData :=
  (local_getString.getPointer 4).bind fun _ => (local_getString.getPointer 6).bind fun _ =>
    (local_getString.getPointer 8).bind fun _ => local_pure _

theorem expands_string (x : Option String) : Expands 0 (optional createString x) :=
  expands_optional fun s _ => builds_createString s

theorem yields_string {x : Option String} {b : Builder} (hready : Ready b) :
    Yields (optional createString x) b fun o b' => Refers getString b'.buf x o :=
  yields_optional (fun s _ => builds_createString s) hready

/-- The key, attribute and value of an item or of a statement are built one after the other. -/
def strings (key attr value : Option String) (f : Nat → Nat → Nat → Build Nat) : Build Nat := do
  let key ← optional createString key
  let attr ← optional createString attr
  let value ← optional createString value
  f key attr value

section Strings

variable {key attr value : Option String} {f : Nat → Nat → Nat → Build Nat}

theorem expands_strings (hf : ∀ k a v, Expands 0 (f k a v)) :
    Expands 0 (strings key attr value f) :=
  (expands_string key).andThen fun k => (expands_string attr).andThen fun a =>
    (expands_string value).andThen fun v => hf k a v

theorem yields_strings {b : Builder} {Q : Nat → Builder → Prop} (hready : Ready b)
    (hf : ∀ k a v, Expands 0 (f k a v))
    (hyields : ∀ k a v b', Ready b' → (b'.buf.length < 2147483648 →
      Refers getString b'.buf key k ∧ Refers getString b'.buf attr a ∧
        Refers getString b'.buf value v) → Yields (f k a v) b' Q) :
    Yields (strings key attr value f) b Q := by
  refine (yields_string hready).bind (fun k => (expands_string attr).andThen fun a =>
    (expands_string value).andThen fun v => hf k a v) fun k b₁ hgrows₁ hkey => ?_
  refine (yields_string hgrows₁.ready).bind (fun a => (expands_string value).andThen
    fun v => hf k a v) fun a b₂ hgrows₂ hattr => ?_
  refine (yields_string hgrows₂.ready).bind (hf k a) fun v b₃ hgrows₃ hvalue => ?_
  refine hyields k a v b₃ hgrows₃.ready fun hsmall => ⟨?_, ?_, hvalue hsmall⟩
  · have hle := hgrows₃.length_le
    have hrefers := hgrows₂.refers local_getString
      (hkey (Nat.lt_of_le_of_lt (Nat.le_trans hgrows₂.length_le hle) hsmall))
    exact hgrows₃.refers local_getString hrefers
  · exact hgrows₃.refers local_getString (hattr (Nat.lt_of_le_of_lt hgrows₃.length_le hsmall))

end Strings

theorem builds_data (d : FlatData) : Builds (data d) readData d where
  expands := expands_strings fun _ _ _ => expands_table _
  yields b hready := by
    refine yields_strings hready (fun _ _ _ => expands_table _)
      fun key attr value b₃ hready₃ hrefers => ?_
    refine yields_table [8, 6, 4] [4, 4, 4] [value, attr, key] rfl rfl rfl (by decide) hready₃
      fun hsmall => ?_
    obtain ⟨hkey, hattr, hvalue⟩ := hrefers hsmall
    refine ⟨by simp [hkey.le_length, hattr.le_length, hvalue.le_length], fun b' o h => ?_⟩
    exact (h.offset 4 key (by simp) _ _ _ local_getString hkey).bind
      ((h.offset 6 attr (by simp) _ _ _ local_getString hattr).bind
        ((h.offset 8 value (by simp) _ _ _ local_getString hvalue).bind (Reads.done h.le_length)))

theorem local_readIpAndPort : Local readIpAndPort :=
  (local_getString.getPointer 4).bind fun _ => (local_getInt32 6).bind fun _ _ _ _ _ _ h => h

theorem builds_ipAndPort (server : IpAndPort) (hport : Int32 server.port) :
    Builds (ipAndPort server) readIpAndPort server where
  expands := (builds_createString server.ip).expands.andThen fun _ => expands_table _
  yields b hready := by
    refine ((builds_createString server.ip).yields b hready).bind (fun _ => expands_table _)
      fun ip b₁ hgrows hip => ?_
    refine yields_table [6, 4] [4, 4] [ip] rfl rfl rfl (by decide) hgrows.ready fun hsmall => ?_
    have hrefers : Refers getString b₁.buf (some server.ip) ip := hip hsmall
    refine ⟨by simp [hrefers.le_length], fun b' o h => ?_⟩
    exact (h.offset 4 ip (by simp) _ _ _ local_getString hrefers).bind
      ((reads_getInt32 h (by simp) hport).bind ⟨h.le_length, rfl⟩)

theorem local_readGtmMsg : Local readGtmMsg :=
  local_getCmd.bind fun _ => (local_getInt32 6).bind fun _ => (local_getBool 8).bind fun _ =>
    (local_getString.getPointer 10).bind fun _ => local_pure _

theorem local_readAppMsg : Local readAppMsg :=
  local_getCmd.bind fun _ => (local_getInt32 6).bind fun _ =>
    (local_readIpAndPort.vector.getPointer 8).bind fun _ => local_pure _

theorem local_readESMsg : Local readESMsg :=
  local_getCmd.bind fun _ => (local_getInt32 6).bind fun _ => (local_getBool 8).bind fun _ =>
    (local_getInt32 10).bind fun _ => (local_getString.getPointer 12).bind fun _ =>
      (local_getString.getPointer 14).bind fun _ => (local_getString.getPointer 16).bind fun _ =>
        local_pure _

theorem local_readDbMsg : Local readDbMsg :=
  (local_getInt32 4).bind fun _ => (local_readData.vector.getPointer 6).bind fun _ => local_pure _

theorem local_readDbServiceMsg : Local readDbServiceMsg :=
  local_getCmd.bind fun _ => (local_getInt32 6).bind fun _ => (local_getBool 8).bind fun _ =>
    (local_readData.vector.getPointer 10).bind fun _ =>
      (local_readData.vector.getPointer 12).bind fun _ => local_pure _

theorem local_readDbtlMsg : Local readDbtlMsg :=
  local_getCmd.bind fun _ => (local_getInt32 6).bind fun _ =>
    (local_readData.vector.getPointer 8).bind fun _ => local_pure _

theorem local_readDbtmMsg : Local readDbtmMsg :=
  local_getCmd.bind fun _ => (local_getInt32 6).bind fun _ => (local_getBool 8).bind fun _ =>
    (local_getInt32 10).bind fun _ => local_pure _

theorem local_readLogPlayerMsg : Local readLogPlayerMsg :=
  local_getCmd.bind fun _ => (local_getInt32 6).bind fun _ => (local_getInt32 8).bind fun _ =>
    local_pure _

/-- A read or write set, which may be left out. -/
theorem builds_dataSet (l : List FlatData) : Builds (createVector data l) (vector readData) l :=
  builds_createVector local_readData fun d _ => builds_data d

theorem expands_dataSet (x : Option (List FlatData)) :
    Expands 0 (optional (createVector data) x) :=
  expands_optional fun l _ => builds_dataSet l

theorem yields_dataSet {x : Option (List FlatData)} {b : Builder} (hready : Ready b) :
    Yields (optional (createVector data) x) b fun o b' => Refers (vector readData) b'.buf x o :=
  yields_optional (fun l _ => builds_dataSet l) hready

/-! ### Messages -/

theorem builds_gtmMsg {m : GtmMsg} (hcmd : CmdValid m.cmd) (htxid : Int32 m.txid) :
    Builds (object (.server (.gtmMsg m))) readGtmMsg m where
  expands := (expands_string m.transType).andThen fun _ => expands_table _
  yields b hready := by
    refine (yields_string hready).bind (fun _ => expands_table _)
      fun transType b₁ hgrows hrefers => ?_
    refine yields_table [10, 6, 4, 8] [4, 4, 4, 1] [transType] rfl rfl rfl (by decide)
      hgrows.ready fun hsmall => ?_
    have htransType := hrefers hsmall
    refine ⟨by simp [htransType.le_length], fun b' o h => ?_⟩
    exact (reads_getCmd h (by simp) hcmd).bind ((reads_getInt32 h (by simp) htxid).bind
      ((reads_getBool h (by simp)).bind
        ((h.offset 10 transType (by simp) _ _ _ local_getString htransType).bind
          (Reads.done h.le_length))))

theorem builds_appMsg {m : AppMsg} (hcmd : CmdValid m.cmd) (htxid : Int32 m.txid)
    (hlist : ∀ l, m.list = some l → ∀ server ∈ l, Int32 server.port) :
    Builds (object (.server (.appMsg m))) readAppMsg m := by
  have hvector : ∀ l, m.list = some l →
      Builds (createVector ipAndPort l) (vector readIpAndPort) l :=
    fun l hl => builds_createVector local_readIpAndPort fun server hserver =>
      builds_ipAndPort server (hlist l hl server hserver)
  refine ⟨(expands_optional hvector).andThen fun _ => expands_table _, fun b hready => ?_⟩
  refine (yields_optional hvector hready).bind (fun _ => expands_table _)
    fun list b₁ hgrows hrefers => ?_
  refine yields_table [8, 6, 4] [4, 4, 4] [list] rfl rfl rfl (by decide) hgrows.ready
    fun hsmall => ?_
  refine ⟨by simp [(hrefers hsmall).le_length], fun b' o h => ?_⟩
  exact (reads_getCmd h (by simp) hcmd).bind ((reads_getInt32 h (by simp) htxid).bind
    ((h.offset 8 list (by simp) _ _ _ local_readIpAndPort.vector (hrefers hsmall)).bind
      (Reads.done h.le_length)))

theorem builds_dbServiceMsg {m : DbServiceMsg} (hcmd : CmdValid m.cmd) (htxid : Int32 m.txid) :
    Builds (object (.server (.dbServiceMsg m))) readDbServiceMsg m where
  expands := (expands_dataSet m.readSet).andThen fun _ =>
    (expands_dataSet m.writeSet).andThen fun _ => expands_table _
  yields b hready := by
    refine (yields_dataSet hready).bind
      (fun _ => (expands_dataSet m.writeSet).andThen fun _ => expands_table _)
      fun readSet b₁ hgrows₁ hrefers₁ => ?_
    refine (yields_dataSet hgrows₁.ready).bind (fun _ => expands_table _)
      fun writeSet b₂ hgrows₂ hrefers₂ => ?_
    refine yields_table [12, 10, 6, 4, 8] [4, 4, 4, 4, 1] [writeSet, readSet] rfl rfl rfl
      (by decide) hgrows₂.ready fun hsmall => ?_
    have hreadSet := hgrows₂.refers local_readData.vector
      (hrefers₁ (Nat.lt_of_le_of_lt hgrows₂.length_le hsmall))
    have hwriteSet := hrefers₂ hsmall
    refine ⟨by simp [hreadSet.le_length, hwriteSet.le_length], fun b' o h => ?_⟩
    exact (reads_getCmd h (by simp) hcmd).bind ((reads_getInt32 h (by simp) htxid).bind
      ((reads_getBool h (by simp)).bind
        ((h.offset 10 readSet (by simp) _ _ _ local_readData.vector hreadSet).bind
          ((h.offset 12 writeSet (by simp) _ _ _ local_readData.vector hwriteSet).bind
            (Reads.done h.le_length)))))

theorem builds_dbtlMsg {m : DbtlMsg} (hcmd : CmdValid m.cmd) (htxid : Int32 m.txid) :
    Builds (object (.server (.dbtlMsg m))) readDbtlMsg m where
  expands := (expands_dataSet m.data).andThen fun _ => expands_table _
  yields b hready := by
    refine (yields_dataSet hready).bind (fun _ => expands_table _)
      fun data b₁ hgrows hrefers => ?_
    refine yields_table [8, 6, 4] [4, 4, 4] [data] rfl rfl rfl (by decide) hgrows.ready
      fun hsmall => ?_
    refine ⟨by simp [(hrefers hsmall).le_length], fun b' o h => ?_⟩
    exact (reads_getCmd h (by simp) hcmd).bind ((reads_getInt32 h (by simp) htxid).bind
      ((h.offset 8 data (by simp) _ _ _ local_readData.vector (hrefers hsmall)).bind
        (Reads.done h.le_length)))

theorem builds_esMsg {m : ESMsg} (hcmd : CmdValid m.cmd) (htxid : Int32 m.txid)
    (htype : Int32 m.type) :
    Builds (object (.server (.esMsg m))) readESMsg m where
  expands := expands_strings fun _ _ _ => expands_table _
  yields b hready := by
    refine yields_strings hready (fun _ _ _ => expands_table _)
      fun key attr val b₃ hready₃ hrefers => ?_
    refine yields_table [16, 14, 12, 10, 6, 4, 8] [4, 4, 4, 4, 4, 4, 1] [val, attr, key]
      rfl rfl rfl (by decide) hready₃ fun hsmall => ?_
    obtain ⟨hkey, hattr, hval⟩ := hrefers hsmall
    refine ⟨by simp [hkey.le_length, hattr.le_length, hval.le_length], fun b' o h => ?_⟩
    exact (reads_getCmd h (by simp) hcmd).bind ((reads_getInt32 h (by simp) htxid).bind
      ((reads_getBool h (by simp)).bind ((reads_getInt32 h (by simp) htype).bind
        ((h.offset 12 key (by simp) _ _ _ local_getString hkey).bind
          ((h.offset 14 attr (by simp) _ _ _ local_getString hattr).bind
            ((h.offset 16 val (by simp) _ _ _ local_getString hval).bind
              (Reads.done h.le_length)))))))

theorem builds_dbtmMsg {m : DbtmMsg} (hcmd : CmdValid m.cmd) (htxid : Int32 m.txid)
    (hlsn : Int32 m.lsn) :
    Builds (object (.server (.dbtmMsg m))) readDbtmMsg m where
  expands := expands_table _
  yields b hready := by
    refine yields_table [10, 6, 4, 8] [4, 4, 4, 1] [] rfl rfl rfl (by decide) hready
      fun _ => ⟨by simp, fun b' o h => ?_⟩
    exact (reads_getCmd h (by simp) hcmd).bind ((reads_getInt32 h (by simp) htxid).bind
      ((reads_getBool h (by simp)).bind ((reads_getInt32 h (by simp) hlsn).bind
        (Reads.done h.le_length))))

theorem builds_logPlayerMsg {m : LogPlayerMsg} (hcmd : CmdValid m.cmd) (htxid : Int32 m.txid)
    (hid : Int32 m.id) :
    Builds (object (.server (.logPlayerMsg m))) readLogPlayerMsg m where
  expands := expands_table _
  yields b hready := by
    refine yields_table [8, 6, 4] [4, 4, 4] [] rfl rfl rfl (by decide) hready
      fun _ => ⟨by simp, fun b' o h => ?_⟩
    exact (reads_getCmd h (by simp) hcmd).bind ((reads_getInt32 h (by simp) htxid).bind
      ((reads_getInt32 h (by simp) hid).bind (Reads.done h.le_length)))

theorem builds_dbMsg {m : DbMsg} (htxid : Int32 m.txid) :
    Builds (object (.dbMsg m)) readDbMsg m where
  expands := (expands_dataSet m.writeSet).andThen fun _ => expands_table _
  yields b hready := by
    refine (yields_dataSet hready).bind (fun _ => expands_table _)
      fun writeSet b₁ hgrows hrefers => ?_
    refine yields_table [6, 4] [4, 4] [writeSet] rfl rfl rfl (by decide) hgrows.ready
      fun hsmall => ?_
    refine ⟨by simp [(hrefers hsmall).le_length], fun b' o h => ?_⟩
    exact (reads_getInt32 h (by simp) htxid).bind
      ((h.offset 6 writeSet (by simp) _ _ _ local_readData.vector (hrefers hsmall)).bind
        (Reads.done h.le_length))

/-- The integers of a message fit their fields. -/
def Valid : Msg → Prop
  | .server (.gtmMsg m) => CmdValid m.cmd ∧ Int32 m.txid
  | .server (.appMsg m) =>
      CmdValid m.cmd ∧ Int32 m.txid ∧ ∀ l ∈ m.list, ∀ server ∈ l, Int32 server.port
  | .server (.dbServiceMsg m) => CmdValid m.cmd ∧ Int32 m.txid
  | .server (.dbtlMsg m) => CmdValid m.cmd ∧ Int32 m.txid
  | .server (.esMsg m) => CmdValid m.cmd ∧ Int32 m.txid ∧ Int32 m.type
  | .server (.dbtmMsg m) => CmdValid m.cmd ∧ Int32 m.txid ∧ Int32 m.lsn
  | .server (.logPlayerMsg m) => CmdValid m.cmd ∧ Int32 m.txid ∧ Int32 m.id
  | .dbMsg m => Int32 m.txid

theorem Local.getAny {α : Type} {read : Reader α} (hlocal : Local read) (wrap : α → Msg) :
    Local (getAny read wrap) :=
  (hlocal.getPointer 6).bind fun _ _ _ _ _ _ h => h

theorem local_readRootMsg : Local readRootMsg := by
  refine (local_getField 1 4 0).bind fun anyType => ?_
  unfold getAnyAs
  split
  · exact Local.getAny local_readGtmMsg _
  · exact Local.getAny local_readAppMsg _
  · exact Local.getAny local_readDbServiceMsg _
  · exact Local.getAny local_readDbtlMsg _
  · exact Local.getAny local_readESMsg _
  · exact Local.getAny local_readDbtmMsg _
  · exact Local.getAny local_readDbMsg _
  · exact Local.getAny local_readLogPlayerMsg _
  · exact fun _ _ _ _ _ h => nomatch h

/-- The root table with its type around a table. -/
theorem yields_root {α : Type} {read : Reader α} (wrap : α → Msg) {a : α} {anyType any : Nat}
    {b : Builder} (hlocal : Local read) (htype : getAnyAs anyType = getAny read wrap)
    (hbyte : anyType < 256) (hready : Ready b)
    (hany : b.buf.length < 2147483648 → any ≠ 0 ∧ Reads read b.buf any a) :
    Yields (createRootMsg anyType any) b fun o b' =>
      o ≠ 0 ∧ Reads readRootMsg b'.buf o (wrap a) := by
  refine yields_table [6, 4] [4, 1] [any] rfl rfl rfl (by decide) hready fun hsmall => ?_
  have hrefers : Refers read b.buf (some a) any := hany hsmall
  refine ⟨by simp [hrefers.le_length], fun b' o h => ?_⟩
  refine (h.element 1 4 anyType 0 (by simp) hbyte).bind ?_
  rw [htype]
  exact (h.offset 6 any (by simp) _ _ _ hlocal hrefers).bind ⟨h.le_length, rfl⟩

/-- The table of a message within its root. -/
theorem Builds.root {α : Type} {x : Build Nat} {read : Reader α} {a : α} (hx : Builds x read a)
    (wrap : α → Msg) {anyType : Nat} (hlocal : Local read)
    (htype : getAnyAs anyType = getAny read wrap) (hbyte : anyType < 256) :
    Builds (x >>= fun any => createRootMsg anyType any) readRootMsg (wrap a) where
  expands := hx.expands.andThen fun _ => expands_table _
  yields b hready := (hx.yields b hready).bind (fun _ => expands_table _) fun _ _ hgrows hany =>
    yields_root wrap hlocal htype hbyte hgrows.ready hany

theorem tag_lt (m : Msg) : tag m < 256 := by
  unfold tag
  split <;> decide

theorem builds_root {m : Msg} (hvalid : Valid m) :
    Builds (object m >>= fun any => createRootMsg (tag m) any) readRootMsg m := by
  have hbyte := tag_lt m
  cases m with
  | dbMsg m => exact (builds_dbMsg hvalid).root .dbMsg local_readDbMsg rfl hbyte
  | server m =>
      cases m with
      | gtmMsg m =>
          exact (builds_gtmMsg hvalid.1 hvalid.2).root (fun m => .server (.gtmMsg m))
            local_readGtmMsg rfl hbyte
      | appMsg m =>
          exact (builds_appMsg hvalid.1 hvalid.2.1 hvalid.2.2).root (fun m => .server (.appMsg m))
            local_readAppMsg rfl hbyte
      | dbServiceMsg m =>
          exact (builds_dbServiceMsg hvalid.1 hvalid.2).root (fun m => .server (.dbServiceMsg m))
            local_readDbServiceMsg rfl hbyte
      | dbtlMsg m =>
          exact (builds_dbtlMsg hvalid.1 hvalid.2).root (fun m => .server (.dbtlMsg m))
            local_readDbtlMsg rfl hbyte
      | esMsg m =>
          exact (builds_esMsg hvalid.1 hvalid.2.1 hvalid.2.2).root (fun m => .server (.esMsg m))
            local_readESMsg rfl hbyte
      | dbtmMsg m =>
          exact (builds_dbtmMsg hvalid.1 hvalid.2.1 hvalid.2.2).root
            (fun m => .server (.dbtmMsg m)) local_readDbtmMsg rfl hbyte
      | logPlayerMsg m =>
          exact (builds_logPlayerMsg hvalid.1 hvalid.2.1 hvalid.2.2).root
            (fun m => .server (.logPlayerMsg m)) local_readLogPlayerMsg rfl hbyte

theorem build_spec {m : Msg} (hvalid : Valid m) :
    ∃ b', build m false Builder.init = some ((), b') ∧
      build m true Builder.init =
        (if b'.buf.length ≤ 2147483648 then some ((), b') else none) ∧
      (b'.buf.length ≤ 2147483648 → ∀ rest, decode (b'.buf ++ rest) = some m) := by
  have hroot := builds_root hvalid
  have hbuild : build m = (object m >>= fun any => createRootMsg (tag m) any) >>= finish := by
    rw [bind_assoc]
    rfl
  rw [hbuild]
  exact (hroot.yields Builder.init ready_init).finish local_readRootMsg hroot.expands.total

end Grit.Wire
