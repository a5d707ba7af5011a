import Grit.Message.Size

/-!
# The first message of a transaction

`App::startTran` opens the table of its message and creates the string for the type of the
transaction while the table is still open. The builder forbids that by an assertion. Without
the assertion the string lies inside the table, and the place of the command, which was
written before it, has to fit the 16 bits of an entry of the vtable.
-/

namespace Grit.Wire

open Bytes FlatBuffers

def startTran (type : String) : Build Unit := do
  let start ← startTable
  add (int32 4 (code .kGetTxid))
  let trantype ← createString type
  add (.offset 10 trantype)
  let orc ← endTable start
  let msg ← createRootMsg 1 orc
  finish msg

/-- The bytes that the application sends to the GTM. -/
def startTranBytes (asserts : Bool) (type : String) : Option (List UInt8) :=
  (startTran type asserts Builder.init).map fun result => result.2.buf

/-- With the assertions no object can be started inside a table. -/
theorem run_createString_of_nested {b : Builder} (hnested : b.nested = true) (s : String) :
    createString s true b = none := by
  have hassert : assertThat (fun b => !b.nested) true b = none := by
    rw [assertThat, hnested]
    rfl
  exact run_bind_none _ (run_bind_none _ hassert)

/-- The builder once the command is written into the open table. -/
def opened : Builder :=
  { Builder.init with nested := true }.store 4 4 (unsigned 4 (code .kGetTxid))

theorem length_opened : opened.buf.length = 4 := by decide

/-- The beginning of `startTran`, up to the string. -/
theorem run_startTran (asserts : Bool) (type : String) :
    startTran type asserts Builder.init = (do
      let trantype ← createString type
      add (.offset 10 trantype)
      let orc ← endTable 0
      let msg ← createRootMsg 1 orc
      finish msg : Build Unit) asserts opened := by
  have hadd : add (int32 4 (code .kGetTxid)) asserts { Builder.init with nested := true } =
      some ((), opened) := by
    have hfit : (int32 4 (code .kGetTxid)).Fits 0 := ⟨.inr rfl, fun _ _ h => nomatch h⟩
    rw [run_add hfit (by decide) (by decide), checked, if_neg fun h => absurd h.2 (by decide)]
    rfl
  unfold startTran
  rw [run_bind_of (run_startTable fun _ => ⟨rfl, rfl⟩)]
  exact run_bind_of hadd

theorem startTranBytes_of_asserts (type : String) : startTranBytes true type = none := by
  have hstring := run_createString_of_nested (b := opened) rfl type
  rw [startTranBytes, run_startTran, Option.map_eq_none_iff]
  exact run_bind_none _ hstring

/-- The builder once the string is written, inside the open table. -/
def withType (type : String) : Builder := opened.withString (bytes type)

theorem length_withType (type : String) :
    (withType type).buf.length % 4 = 0 ∧ (bytes type).length + 9 ≤ (withType type).buf.length ∧
      (withType type).buf.length ≤ (bytes type).length + 12 := by
  have hlength := length_opened
  have hmod := opened.length_aligned_mod ((bytes type).length + 1)
  have hle := opened.length_aligned_le ((bytes type).length + 1)
    (.inr rfl : 4 = 1 ∨ 4 = 4)
  have hge := opened.le_length_aligned ((bytes type).length + 1) 4
  rw [withType, Builder.length_withString]
  omega

theorem next_withType (type : String) :
    (withType type).next 4 = 4 + (withType type).buf.length := by
  rw [Builder.next, Builder.aligned_of_dvd (length_withType type).1]

/-- The builder once all fields of the table are written. -/
def filled (type : String) : Builder :=
  (withType type).store 4 10 ((withType type).next 4 - (withType type).buf.length)

theorem length_filled (type : String) :
    (filled type).buf.length = 4 + (withType type).buf.length := by
  rw [← next_withType]
  exact (withType type).length_push 4 _

theorem next_filled (type : String) :
    (filled type).next 4 = 8 + (withType type).buf.length := by
  have haligned : ((filled type).aligned 0 4).buf = (filled type).buf := by
    refine Builder.aligned_of_dvd ?_
    have hmod := (length_withType type).1
    rw [length_filled]
    omega
  rw [Builder.next, haligned, length_filled]
  omega

theorem run_filled {type : String} (hsize : (bytes type).length ≤ 65523) :
    createString type false opened = some ((withType type).buf.length, withType type) ∧
      add (.offset 10 (withType type).buf.length) false (withType type) =
        some ((), filled type) := by
  have hbounds := length_withType type
  have hnested : false = true → opened.nested = false ∧ opened.fields = [] := fun h => nomatch h
  refine ⟨(run_createString hnested).trans (checked_false _ _), ?_⟩
  refine (run_add ⟨.inr rfl, ?_⟩ ?_ (by omega)).trans (checked_false _ _)
  · intro field off h
    injection h with _ h
    exact Nat.le_of_eq h.symm
  · show ¬(withType type).buf.length = 0
    omega

theorem fields_filled (type : String) :
    (filled type).fields = [(4, 4), ((withType type).next 4, 10)] := rfl

theorem run_orc (type : String) :
    ∃ b', endTable 0 false (filled type) = some ((filled type).next 4, b') ∧
      Closed (filled type) b' ((filled type).next 4) 10 ∧ NoVTable b' 8 := by
  have hproper : Proper ((filled type).fields.map Prod.snd) := by
    rw [fields_filled]
    exact ⟨by simp, by simp, by simp⟩
  have htop : ∀ f ∈ (filled type).fields, f.2 ≤ 10 := by
    rw [fields_filled]
    simp
  obtain ⟨b', p, hrun, -, -, hclosed, hfresh⟩ := run_endTable 0 hproper htop (by decide) (by decide)
    (fun _ hv => nomatch hv)
  have h := hfresh fun _ hv => nomatch hv
  refine ⟨b', (hrun false fun h => nomatch h).trans (checked_false _ _), hclosed, fun v hv => ?_⟩
  rw [h.vtables] at hv
  exact ⟨12, by decide, by decide, List.mem_singleton.1 hv ▸ h.size⟩

/-- What the GTM reads from the table of `startTran`. -/
def requested (cmd : Cmd) (type : String) : GtmMsg :=
  { cmd, txid := 0, isLocalConflict := false, transType := some type }

section Reading

variable {type : String} {b' : Builder}

theorem length_closed (hsize : (bytes type).length ≤ 65523)
    (hclosed : Closed (filled type) b' ((filled type).next 4) 10) :
    b'.buf.length < 70000 := by
  have hbounds := length_withType type
  obtain ⟨front, hbuf, hfront⟩ := hclosed.grows
  rw [hbuf, List.length_append, length_filled]
  omega

theorem reads_requested {n : Int} (hsize : (bytes type).length ≤ 65523)
    (hclosed : Closed (filled type) b' ((filled type).next 4) 10)
    (hcmd : Reads (getInt32 4) b'.buf ((filled type).next 4) n) :
    Reads readGtmMsg b'.buf ((filled type).next 4) (requested (cmdOf n) type) := by
  have hbounds := length_withType type
  have hnext := next_withType type
  have hend := next_filled type
  have hshort := length_closed hsize hclosed
  have htxid := hclosed.absent (by omega) 6 (by decide) (by decide)
    (show 6 ∉ [4, 10] by decide)
  have hconflict := hclosed.absent (by omega) 8 (by decide) (by decide)
    (show 8 ∉ [4, 10] by decide)
  have hstring : Reads getString (filled type).buf (withType type).buf.length type := by
    obtain ⟨front, hfront⟩ := (withType type).buf_push 4
      ((withType type).next 4 - (withType type).buf.length)
    have hbuf : (filled type).buf = front ++ (withType type).buf := hfront
    rw [hbuf]
    exact (reads_getString (reads_string (bytes type) _
      (by omega))).prepend local_getString front
  have hmem : ((withType type).next 4, 10) ∈ (filled type).fields := by
    rw [fields_filled]
    simp
  have htype := hclosed.getPointer (by omega) hmem (by omega) (by omega) (by omega) (by omega)
    ((withType type).holds_push 4 _) local_getString hstring
  exact (reads_getCmd_of_int32 hcmd).bind ((reads_getInt32_of_absent htxid).bind
    ((reads_getBool_of_absent hconflict).bind (htype.bind (Reads.done hclosed.le_length))))

theorem mem_fields_filled : (4, 4) ∈ (filled type).fields := by
  rw [fields_filled]
  exact List.mem_cons_self

/-- The command is found if its distance from the beginning of the table, with the whole
string in between, fits 16 bits. -/
theorem reads_command (hshort : b'.buf.length < 70000) (hplace : (filled type).next 4 - 4 < 65536)
    (hclosed : Closed (filled type) b' ((filled type).next 4) 10) :
    Reads (getInt32 4) b'.buf ((filled type).next 4) (code .kGetTxid) := by
  have hend := next_filled type
  have hcommand : Holds opened.buf 4 (le 4 (unsigned 4 (code .kGetTxid))) :=
    ({ Builder.init with nested := true } : Builder).holds_push 4 _
  have hwith : ∃ front, (withType type).buf = front ++ opened.buf := by
    refine ⟨le 4 (bytes type).length ++ (bytes type ++ ([0] ++ List.replicate
      (paddingBytes (opened.buf.length + ((bytes type).length + 1)) 4) 0)), ?_⟩
    simp only [withType, Builder.withString, Builder.aligned, List.append_assoc]
  obtain ⟨front, hfront⟩ := hwith
  obtain ⟨front', hfront'⟩ := (withType type).buf_push 4
    ((withType type).next 4 - (withType type).buf.length)
  have hbuf : (filled type).buf = front' ++ (withType type).buf := hfront'
  have hholds : Holds (filled type).buf 4 (le 4 (unsigned 4 (code .kGetTxid))) := by
    rw [hbuf, hfront]
    exact (hcommand.prepend front).prepend front'
  exact reads_getInt32_of_field (by decide)
    (hclosed.getField (by omega) 0 mem_fields_filled (by omega) hplace hholds (unsigned_lt 4 _))

/-- At a distance of exactly `2 ^ 16` the entry is 0, as if no command had been written. -/
theorem reads_lost_command (hshort : b'.buf.length < 70000)
    (hplace : (filled type).next 4 - 4 = 65536)
    (hclosed : Closed (filled type) b' ((filled type).next 4) 10) :
    Reads (getInt32 4) b'.buf ((filled type).next 4) 0 := by
  have hentry := hclosed.stored (by omega) _ mem_fields_filled
  rw [hplace] at hentry
  exact reads_getInt32_of_absent hentry

end Reading

/-- Built with the assertions, the application ends at the string, whatever the type. Built
without them it sends a message that the GTM reads as a request for that type, if the type
has at most 65519 bytes; the next four lengths give a message without a command. -/
theorem startTranBytes_spec (type : String) :
    startTranBytes true type = none ∧
      ((bytes type).length ≤ 65523 → ∃ bs, startTranBytes false type = some bs ∧
        ∀ rest, decode (bs ++ rest) = some (.server (.gtmMsg (requested
          (if (bytes type).length ≤ 65519 then .kGetTxid else .other 0) type)))) := by
  refine ⟨startTranBytes_of_asserts type, fun hle => ?_⟩
  have hbounds := length_withType type
  have hend := next_filled type
  obtain ⟨hstring, hadd⟩ := run_filled hle
  obtain ⟨b', hrun, hclosed, hnew⟩ := run_orc type
  have hlength := length_closed hle hclosed
  have hroom : b'.buf.length < maxBufferSize := by
    unfold maxBufferSize
    omega
  have hready : Ready b' := by
    refine ⟨hclosed.fields, hclosed.nested, hclosed.vtables, ?_⟩
    have hminalign : (filled type).minalign = 4 := rfl
    rw [hclosed.minalign, hminalign]
    decide
  have hread : Reads readGtmMsg b'.buf ((filled type).next 4) (requested
      (if (bytes type).length ≤ 65519 then .kGetTxid else .other 0) type) := by
    split
    next => exact reads_requested hle hclosed (reads_command hlength (by omega) hclosed)
    next => exact reads_requested hle hclosed (reads_lost_command hlength (by omega) hclosed)
  have htype : getAnyAs 1 = getAny readGtmMsg fun m => .server (.gtmMsg m) := rfl
  have horc : (filled type).next 4 ≠ 0 := by omega
  obtain ⟨b'', hroot, -, hdecode⟩ := (yields_root _ local_readGtmMsg htype (by decide) hready
    fun _ => ⟨horc, hread⟩).finish local_readRootMsg (expands_table _).total
  obtain ⟨b₁, hsame, hsize⟩ := run_root 1 hready ⟨horc, hclosed.le_length⟩ (by decide) hnew hroom
  have heq : b'' = b₁ := by
    rw [hsame false, checked_false] at hroot
    exact (Prod.mk.inj (Option.some.inj hroot)).2.symm
  refine ⟨b''.buf, ?_, hdecode ?_⟩
  · rw [startTranBytes, run_startTran, run_bind_of hstring, run_bind_of hadd, run_bind_of hrun,
      hroot, Option.map_some]
  · rw [heq, hsize, roundUp]
    omega

theorem startTranBytes_transfer :
    (bytes "transfer").length ≤ 65523 ∧ ∃ bs, startTranBytes false "transfer" = some bs ∧
      ∀ rest, decode (bs ++ rest) = some (.server (.gtmMsg (requested
        (if (bytes "transfer").length ≤ 65519 then .kGetTxid else .other 0) "transfer"))) :=
  ⟨by decide, (startTranBytes_spec "transfer").2 (by decide)⟩

end Grit.Wire
