import Mathlib.Data.List.Basic
import Grit.App.Scanner

/-!
# The fields of a statement

What the parser does with a statement depends on the number of its fields. With the word of an
accepted command and a number as the type it sends the fields as a message, or throws if there
are not enough of them. There are two exceptions. The message, or the strings that are built
before a field is missing, may be too large; and a statement of the greatest length must not end
before the parser stops advancing.
-/

namespace Grit

open Cmd

namespace App

/-- The words that `add` compares the first field with. -/
inductive Word where
  | add
  | delete
  | change
  | search
deriving DecidableEq, Repr

namespace Word

def literal : Word → List Char
  | add => "add".toList
  | delete => "delete".toList
  | change => "Change".toList
  | search => "Search".toList

def cmd : Word → Cmd
  | add => kAdd
  | delete => kDelete
  | change => kChange
  | search => kSearch

/-- Whether the statements of the word carry an attribute and a value. -/
def carries : Word → Bool
  | add | change => true
  | delete | search => false

/-- The number of fields of a statement. -/
def required (w : Word) : Nat := if w.carries then 5 else 3

/-- The parser advances behind this number of fields. -/
def advances (w : Word) : Nat := if w.carries then 4 else 3

theorem command_literal (c : Cmd) (w : Word) : command c w.literal = w.cmd := by
  cases w <;> rfl

theorem carries_iff (w : Word) : w.carries = true ↔ w.cmd = kAdd ∨ w.cmd = kChange := by
  cases w <;> decide

theorem carries_of_lt (w : Word) (h : 3 < w.required) : w.carries = true := by
  cases w
  · rfl
  · exact absurd h (by decide)
  · rfl
  · exact absurd h (by decide)

theorem required_le (w : Word) : w.required ≤ w.advances + 1 := by
  cases w <;> decide

end Word

/-- The message has the parts of the fields. -/
structure IsMessage (w : Word) (txid : Int) (fs : List (List Char)) (m : ESMsg) : Prop where
  cmd_eq : m.cmd = w.cmd
  txid_eq : m.txid = txid
  type_eq : fs[1]?.bind stoi = some m.type
  key_eq : m.key = fs[2]?.map String.ofList
  attr_eq : m.attr = if w.carries then fs[3]?.map String.ofList else none
  val_eq : m.val = if w.carries then fs[4]?.map String.ofList else none

/-- The size of a buffer with these strings. -/
def stringsSize (strings : List (List Char)) : Nat :=
  strings.foldl (fun size str => FlatBuffers.afterString str.length size) 0

/-- The size of the message for the fields. -/
def messageSize (w : Word) (txid : Int) (fs : List (List Char)) : Nat :=
  Wire.esSize (stringsSize ((fs.drop 2).take (w.required - 2))) w.cmd txid
    ((fs[1]?.bind stoi).getD 0) w.carries

theorem le_afterString (n size : Nat) : size ≤ FlatBuffers.afterString n size := by
  rw [FlatBuffers.afterString, FlatBuffers.roundUp]
  omega

theorem le_esSize (size : Nat) (cmd : Cmd) (txid type : Int) (carries : Bool) :
    size ≤ Wire.esSize size cmd txid type carries := by
  rw [Wire.esSize, FlatBuffers.roundUp]
  omega

/-! ### The outcome by the number of fields -/

section Fields

variable {α β : Type} {w : Word} {c : Cmd} {full : Bool} {txid : Int} {f : List Char}
  {fs : List (List Char)}

@[simp]
theorem error_bind (e : Fault) (k : α → Except Fault β) : Except.error e >>= k = .error e := rfl

@[simp]
theorem takeField_cons : takeField (f :: fs) = .ok (f, fs) := rfl

@[simp]
theorem advance_cons : advance full (f :: fs) = .ok (f :: fs) := by
  simp [advance]

theorem advance_ok (h : full = true → fs ≠ []) : advance full fs = .ok fs :=
  if_neg fun hfs => h hfs.1 hfs.2

theorem room_of_lt {size : Nat} (h : ¬ size ≤ 2147483648) : room size = .error .aborted := if_neg h

/-- What happens if a field is looked for where there is none. -/
def atEnd (full : Bool) : Fault := if full then .undefined else .thrown

theorem takeField_end (k : List Char × List (List Char) → Except Fault β) :
    (advance full [] >>= fun fs => takeField fs >>= k) = .error (atEnd full) := by
  cases full <;> rfl

theorem readFields_enough (hcmd : command c f = w.cmd)
    (htype : ∀ typ ∈ fs[0]?, ∃ n, stoi typ = some n) (hn : w.required ≤ (f :: fs).length)
    (hfull : full = true → w.advances < (f :: fs).length)
    (hsize : messageSize w txid (f :: fs) ≤ 2147483648) :
    ∃ m, readFields full c txid (f :: fs) = .ok (m, messageSize w txid (f :: fs)) ∧
      IsMessage w txid (f :: fs) m := by
  have hthree : 3 ≤ w.required := by cases w <;> decide
  obtain ⟨typ, key, rest, rfl⟩ : ∃ typ key rest, fs = typ :: key :: rest := by
    match fs, hn with
    | [], hn => exact absurd (hthree.trans hn) (by simp)
    | [_], hn => exact absurd (hthree.trans hn) (by simp)
    | typ :: key :: rest, _ => exact ⟨typ, key, rest, rfl⟩
  obtain ⟨n, htyp⟩ := htype typ rfl
  by_cases hw : w.carries = true
  · obtain ⟨attr, val, rest, rfl⟩ : ∃ attr val rest', rest = attr :: val :: rest' := by
      match rest, hn with
      | [], hn => simp [Word.required, hw] at hn
      | [_], hn => simp [Word.required, hw] at hn
      | attr :: val :: rest', _ => exact ⟨attr, val, rest', rfl⟩
    have heq : messageSize w txid (f :: typ :: key :: attr :: val :: rest) =
        Wire.esSize (stringsSize [key, attr, val]) w.cmd txid n true := by
      simp [messageSize, Word.required, hw, htyp]
    rw [heq] at hsize ⊢
    have hlast := le_esSize (stringsSize [key, attr, val]) w.cmd txid n true
    have hval : stringsSize [key, attr] ≤ stringsSize [key, attr, val] := le_afterString _ _
    have hattr : stringsSize [key] ≤ stringsSize [key, attr] := le_afterString _ _
    have hrooms : room (FlatBuffers.afterString key.length 0) = .ok (stringsSize [key]) ∧
        room (FlatBuffers.afterString attr.length (stringsSize [key])) =
          .ok (stringsSize [key, attr]) ∧
        room (FlatBuffers.afterString val.length (stringsSize [key, attr])) =
          .ok (stringsSize [key, attr, val]) :=
      ⟨room_of_le (hattr.trans (by omega)), room_of_le (hval.trans (by omega)),
        room_of_le (hlast.trans hsize)⟩
    refine ⟨createESMsg w.cmd txid false n (some (String.ofList key))
      (some (String.ofList attr)) (some (String.ofList val)), ?_, ?_⟩
    · simp [readFields, htyp, orThrow, hcmd, w.carries_iff.1 hw, hrooms, room_of_le hsize]
    · exact ⟨rfl, rfl, htyp, rfl, by simp [createESMsg, hw], by simp [createESMsg, hw]⟩
  · have hrest : full = true → rest ≠ [] := by
      rintro hf rfl
      simpa [Word.advances, hw] using hfull hf
    have heq : messageSize w txid (f :: typ :: key :: rest) =
        Wire.esSize (stringsSize [key]) w.cmd txid n false := by
      simp [messageSize, Word.required, hw, htyp]
    rw [heq] at hsize ⊢
    have hlast := le_esSize (stringsSize [key]) w.cmd txid n false
    have hkey : room (FlatBuffers.afterString key.length 0) = .ok (stringsSize [key]) :=
      room_of_le (hlast.trans hsize)
    refine ⟨createESMsg w.cmd txid false n (some (String.ofList key)), ?_, ?_⟩
    · simp [readFields, htyp, orThrow, hcmd, advance_ok hrest, mt w.carries_iff.2 hw, hkey,
        room_of_le hsize]
    · exact ⟨rfl, rfl, htyp, rfl, by simp [createESMsg, hw], by simp [createESMsg, hw]⟩

/-- A field that is missing is looked for behind the end of the statement, once the strings before
it are built. -/
theorem readFields_few (hcmd : command c f = w.cmd)
    (htype : ∀ typ ∈ fs[0]?, ∃ n, stoi typ = some n) (hn : (f :: fs).length < w.required) :
    readFields full c txid (f :: fs) =
      if stringsSize ((f :: fs).drop 2) ≤ 2147483648 then .error (atEnd full)
      else .error .aborted := by
  match fs, hn with
  | [], _ => simp [readFields, takeField_end, stringsSize]
  | [typ], _ =>
      obtain ⟨n, htyp⟩ := htype typ rfl
      simp [readFields, htyp, orThrow, takeField_end, stringsSize]
  | [typ, key], hn =>
      obtain ⟨n, htyp⟩ := htype typ rfl
      have hw := w.carries_of_lt hn
      by_cases hsize : stringsSize [key] ≤ 2147483648
      · have hkey : room (FlatBuffers.afterString key.length 0) = .ok (stringsSize [key]) :=
          room_of_le hsize
        simp [readFields, htyp, orThrow, hcmd, w.carries_iff.1 hw, takeField_end, hkey, hsize]
      · have hkey : room (FlatBuffers.afterString key.length 0) = .error .aborted :=
          room_of_lt hsize
        simp [readFields, htyp, orThrow, hkey, hsize]
  | [typ, key, attr], hn =>
      obtain ⟨n, htyp⟩ := htype typ rfl
      have hw := w.carries_of_lt (Nat.lt_of_succ_lt hn)
      have hle : stringsSize [key] ≤ stringsSize [key, attr] := le_afterString _ _
      by_cases hsize : stringsSize [key] ≤ 2147483648
      · have hkey : room (FlatBuffers.afterString key.length 0) = .ok (stringsSize [key]) :=
          room_of_le hsize
        by_cases hsize' : stringsSize [key, attr] ≤ 2147483648
        · have hattr : room (FlatBuffers.afterString attr.length (stringsSize [key])) =
              .ok (stringsSize [key, attr]) := room_of_le hsize'
          simp [readFields, htyp, orThrow, hcmd, w.carries_iff.1 hw, takeField_end, hkey, hattr,
            hsize', -bind_pure_comp]
        · have hattr : room (FlatBuffers.afterString attr.length (stringsSize [key])) =
              .error .aborted := room_of_lt hsize'
          simp [readFields, htyp, orThrow, hcmd, w.carries_iff.1 hw, hkey, hattr, hsize']
      · have hkey : room (FlatBuffers.afterString key.length 0) = .error .aborted :=
          room_of_lt hsize
        have hsize' : ¬ stringsSize [key, attr] ≤ 2147483648 := by omega
        simp [readFields, htyp, orThrow, hkey, hsize']
  | _ :: _ :: _ :: _ :: rest, hn =>
      have hle : w.required ≤ 5 := by cases w <;> decide
      simp only [List.length_cons] at hn
      omega

theorem takeField_bind_eq_ok {k : List Char × List (List Char) → Except Fault β} {b : β} :
    takeField fs >>= k = .ok b ↔ ∃ f fs', fs = f :: fs' ∧ k (f, fs') = .ok b := by
  cases fs with
  | nil => simp [takeField]
  | cons f fs => simp

theorem advance_bind_eq_ok {k : List (List Char) → Except Fault β} {b : β} :
    advance full fs >>= k = .ok b ↔ (full = true → fs ≠ []) ∧ k fs = .ok b := by
  unfold advance
  split <;> simp_all

theorem room_bind_eq_ok {size : Nat} {k : Nat → Except Fault β} {b : β} :
    room size >>= k = .ok b ↔ size ≤ 2147483648 ∧ k size = .ok b := by
  unfold room
  split <;> simp [*]

theorem orThrow_bind_eq_ok {x : Option α} {k : α → Except Fault β} {b : β} :
    orThrow x >>= k = .ok b ↔ ∃ a, x = some a ∧ k a = .ok b := by
  cases x <;> simp [orThrow]

/-- What a statement has that is read to its end. -/
theorem readFields_ok {m : ESMsg} {size : Nat}
    (h : readFields full c txid (f :: fs) = .ok (m, size)) :
    m.cmd = command c f ∧ fs[0]?.bind stoi = some m.type ∧
      (m.cmd = w.cmd → w.required ≤ (f :: fs).length ∧
        (full = true → w.advances < (f :: fs).length) ∧
        size = messageSize w txid (f :: fs) ∧ size ≤ 2147483648) := by
  simp only [readFields, takeField_bind_eq_ok, advance_bind_eq_ok, orThrow_bind_eq_ok,
    room_bind_eq_ok] at h
  obtain ⟨_, _, hfs, -, typ, _, rfl, n, htyp, -, key, rest, rfl, -, hkey, h⟩ := h
  obtain ⟨rfl, rfl⟩ := List.cons.inj hfs
  split at h
  · rename_i hcarries
    simp only [takeField_bind_eq_ok, advance_bind_eq_ok, room_bind_eq_ok] at h
    obtain ⟨attr, _, rfl, -, -, val, _, rfl, -, hsize, h⟩ := h
    obtain ⟨rfl, rfl⟩ := Prod.mk.inj (Except.ok.inj h)
    refine ⟨rfl, htyp, fun hcmd => ?_⟩
    replace hcmd : command c f = w.cmd := hcmd
    have hw := w.carries_iff.2 (hcmd ▸ hcarries)
    refine ⟨by simp [Word.required, hw], by simp [Word.advances, hw], ?_, hsize⟩
    simp [messageSize, stringsSize, Word.required, hw, htyp, hcmd]
  · rename_i hbare
    obtain ⟨hsize, h⟩ := room_bind_eq_ok.1 h
    obtain ⟨rfl, rfl⟩ := Prod.mk.inj (Except.ok.inj h)
    refine ⟨rfl, htyp, fun hcmd => ?_⟩
    replace hcmd : command c f = w.cmd := hcmd
    have hw := mt w.carries_iff.1 (hcmd ▸ hbare)
    refine ⟨by simp [Word.required, hw], fun hfull => ?_, ?_, hsize⟩
    · have hpos := List.length_pos_iff.2 (hkey hfull)
      simp [Word.advances, hw]
      omega
    · simp [messageSize, stringsSize, Word.required, hw, htyp, hcmd]

end Fields

/-! ### Statements as fields -/

section Split

variable {C : Type*} {w : Word} {c : Cmd} {str : List Char} {a : App C}

theorem intAdd_error {e : Fault} (h : intStatement c a.txid str = .error e) :
    intAdd c str a = .error e := by
  rw [intAdd, h]

theorem intAdd_ok {m : ESMsg} {size : Nat} {conn : C}
    (h : intStatement c a.txid str = .ok (m, size)) (hconn : a.connList.head? = some conn)
    (hsize : size ≤ maxInt) : intAdd c str a = .ok (conn, m) := by
  obtain ⟨rest, hlist⟩ := List.head?_eq_some_iff.1 hconn
  rw [intAdd, h, hlist]
  exact if_pos hsize

theorem intStatement_of_intAdd {conn : C} {m : ESMsg} (h : intAdd c str a = .ok (conn, m)) :
    ∃ size, size ≤ maxInt ∧ intStatement c a.txid str = .ok (m, size) := by
  unfold intAdd at h
  split at h
  · cases h
  · cases h
  · rename_i m' size _ _ hm _
    split at h
    · rename_i hsize
      cases h
      exact ⟨size, hsize, hm⟩
    · cases h

/-- A statement with the word and, if it has a second field, a number as its type. -/
structure Readable (w : Word) (str : List Char) : Prop where
  length_lt : str.length < 2 ^ 31
  word_eq : (str.splitOn ' ')[0]? = some w.literal
  type_eq : ∀ typ ∈ (str.splitOn ' ')[1]?, ∃ n, stoi typ = some n

namespace Readable

theorem split (h : Readable w str) :
    ∃ fs, str.splitOn ' ' = w.literal :: fs ∧ ∀ typ ∈ fs[0]?, ∃ n, stoi typ = some n := by
  obtain ⟨fs, hfs⟩ := List.head?_eq_some_iff.1 (List.head?_eq_getElem? ▸ h.word_eq)
  refine ⟨fs, hfs, ?_⟩
  have htype := h.type_eq
  rw [hfs] at htype
  exact htype

theorem intStatement_enough (h : Readable w str) (c : Cmd) (txid : Int)
    (hn : w.required ≤ (str.splitOn ' ').length)
    (hfull : str.length = maxInt → w.advances < (str.splitOn ' ').length)
    (hsize : messageSize w txid (str.splitOn ' ') ≤ 2147483648) :
    ∃ m, intStatement c txid str = .ok (m, messageSize w txid (str.splitOn ' ')) ∧
      IsMessage w txid (str.splitOn ' ') m := by
  obtain ⟨fs, hfs, htype⟩ := h.split
  rw [hfs] at hn hfull hsize
  rw [intStatement_eq h.length_lt, hfs]
  exact readFields_enough (w.command_literal c) htype hn (by simpa using hfull) hsize

theorem intStatement_few (h : Readable w str) (c : Cmd) (txid : Int)
    (hn : (str.splitOn ' ').length < w.required) :
    intStatement c txid str =
      if stringsSize ((str.splitOn ' ').drop 2) ≤ 2147483648
      then .error (atEnd (str.length = maxInt)) else .error .aborted := by
  obtain ⟨fs, hfs, htype⟩ := h.split
  rw [hfs] at hn
  rw [intStatement_eq h.length_lt, hfs]
  exact readFields_few (w.command_literal c) htype hn

theorem intStatement_ok (h : Readable w str) {c : Cmd} {txid : Int} {m : ESMsg} {size : Nat}
    (hm : intStatement c txid str = .ok (m, size)) :
    (str.length = maxInt → w.advances < (str.splitOn ' ').length) ∧
      size = messageSize w txid (str.splitOn ' ') := by
  obtain ⟨fs, hfs, -⟩ := h.split
  rw [intStatement_eq h.length_lt, hfs] at hm
  obtain ⟨hcmd, -, hrest⟩ := readFields_ok hm
  obtain ⟨-, hfull, hsize, -⟩ := hrest (hcmd.trans (w.command_literal c))
  rw [hfs]
  exact ⟨by simpa using hfull, hsize⟩

end Readable

/-- The call sends the fields of the statement, or throws if there are not enough of them. -/
structure SplitsFields (w : Word) (c : Cmd) (str : List Char) (a : App C) : Prop where
  sends : w.required ≤ (str.splitOn ' ').length → ∃ conn m, a.connList.head? = some conn ∧
    intAdd c str a = .ok (conn, m) ∧ IsMessage w a.txid (str.splitOn ' ') m
  throws : (str.splitOn ' ').length < w.required → intAdd c str a = .error .thrown

theorem Readable.splitsFields (hstr : Readable w str)
    (hsend : w.required ≤ (str.splitOn ' ').length →
      a.connList ≠ [] ∧ messageSize w a.txid (str.splitOn ' ') < 2147483648)
    (hstrings : (str.splitOn ' ').length < w.required →
      stringsSize ((str.splitOn ' ').drop 2) ≤ 2147483648)
    (hfull : str.length = maxInt → w.advances < (str.splitOn ' ').length) :
    SplitsFields w c str a where
  sends hn := by
    obtain ⟨hconn, hsize⟩ := hsend hn
    obtain ⟨m, hm, hmsg⟩ := hstr.intStatement_enough c a.txid hn hfull (Nat.le_of_lt hsize)
    have hhead := List.head?_eq_some_head hconn
    exact ⟨_, m, hhead, intAdd_ok hm hhead (Nat.le_of_lt_succ hsize), hmsg⟩
  throws hn := by
    have hshort : str.length ≠ maxInt := fun h =>
      absurd (hfull h) (by have := w.required_le; omega)
    have hfew := hstr.intStatement_few c a.txid hn
    rw [if_pos (hstrings hn), decide_eq_false hshort] at hfew
    exact intAdd_error hfew

/-- The parser splits the statement into its fields, provided that there is a connection to send
to and the message has fewer than `2 ^ 31` bytes; that the strings which are built before a field
is missing have no more than `2 ^ 31` bytes; and that a statement of the greatest length has a
further field wherever the parser goes on. -/
theorem splitsFields_iff (w : Word) (c : Cmd) (str : List Char) (a : App C)
    (hstr : Readable w str) :
    SplitsFields w c str a ↔
      (w.required ≤ (str.splitOn ' ').length →
        a.connList ≠ [] ∧ messageSize w a.txid (str.splitOn ' ') < 2147483648) ∧
      ((str.splitOn ' ').length < w.required →
        stringsSize ((str.splitOn ' ').drop 2) ≤ 2147483648) ∧
      (str.length = maxInt → w.advances < (str.splitOn ' ').length) := by
  constructor
  · intro h
    by_cases hn : w.required ≤ (str.splitOn ' ').length
    · obtain ⟨conn, m, hconn, hsent, -⟩ := h.sends hn
      obtain ⟨size, hsize, hm⟩ := intStatement_of_intAdd hsent
      obtain ⟨hfull, rfl⟩ := hstr.intStatement_ok hm
      refine ⟨fun _ => ⟨?_, Nat.lt_succ_of_le hsize⟩, fun hfew => absurd hn (by omega), hfull⟩
      rintro hnil
      simp [hnil] at hconn
    · have hfew := Nat.lt_of_not_le hn
      have hthrown := h.throws hfew
      have hend := hstr.intStatement_few c a.txid hfew
      split at hend
      · rename_i hsize
        rw [intAdd_error hend] at hthrown
        refine ⟨fun henough => absurd henough hn, fun _ => hsize, fun hfull => ?_⟩
        rw [decide_eq_true hfull] at hthrown
        cases hthrown
      · rw [intAdd_error hend] at hthrown
        cases hthrown
  · rintro ⟨hsend, hstrings, hfull⟩
    exact hstr.splitsFields hsend hstrings hfull

theorem stringsSize_le (strings : List (List Char)) :
    stringsSize strings ≤ total strings + 8 * strings.length := by
  have hfold : ∀ size, strings.foldl (fun size str => FlatBuffers.afterString str.length size)
      size ≤ size + (total strings + 8 * strings.length) := by
    induction strings with
    | nil => exact fun size => Nat.le_refl size
    | cons str strings ih =>
        intro size
        have hstr := afterString_le str.length size
        have hrest := ih (FlatBuffers.afterString str.length size)
        simp only [List.foldl_cons, total, List.foldr_cons, List.length_cons] at hrest ⊢
        omega
  exact (hfold 0).trans (Nat.le_of_eq (Nat.zero_add _))

theorem total_sublist {fs fs' : List (List Char)} (h : fs.Sublist fs') : total fs ≤ total fs' := by
  induction h with
  | slnil => exact Nat.le_refl _
  | cons f _ ih => exact ih.trans (Nat.le_add_left _ _)
  | cons_cons f _ ih => exact Nat.add_le_add_left ih _

/-- With a connection, every statement is split that is not too long. -/
theorem splitsFields_of_short (c : Cmd) (hstr : Readable w str)
    (hlen : str.length + 100 ≤ maxInt) (hconn : a.connList ≠ []) : SplitsFields w c str a := by
  have htotal := total_splitOn str
  have hle : ∀ fs : List (List Char), fs.Sublist (str.splitOn ' ') → fs.length ≤ 3 →
      stringsSize fs ≤ str.length + 24 := by
    intro fs hfs hthree
    have hsize := stringsSize_le fs
    have hpart := total_sublist hfs
    omega
  have hrequired : w.required ≤ 5 := by cases w <;> decide
  unfold maxInt at hlen
  refine hstr.splitsFields (fun _ => ⟨hconn, ?_⟩) (fun hn => ?_) fun hmax => ?_
  · have hstrings := hle (((str.splitOn ' ').drop 2).take (w.required - 2))
      ((List.take_sublist _ _).trans (List.drop_sublist _ _)) (by rw [List.length_take]; omega)
    have hsize := esSize_le (stringsSize (((str.splitOn ' ').drop 2).take (w.required - 2)))
      w.cmd a.txid (((str.splitOn ' ')[1]?.bind stoi).getD 0) w.carries
    rw [messageSize]
    omega
  · have hstrings := hle ((str.splitOn ' ').drop 2) (List.drop_sublist _ _)
      (by rw [List.length_drop]; omega)
    omega
  · unfold maxInt at hmax
    omega

/-- An application with one connection. -/
def connected : App Unit := { init 7 with connList := [()] }

theorem splitsFields_search : SplitsFields .search kAdd "Search 1  x".toList connected := by
  have hstr : Readable .search "Search 1  x".toList := by
    refine ⟨by decide, by decide, fun typ htyp => ⟨1, ?_⟩⟩
    obtain rfl : "1".toList = typ := Option.some.inj htyp
    decide
  exact (splitsFields_iff .search kAdd _ connected hstr).2 ⟨by decide, by decide⟩

/-- The statement `add 1xx..x`, which has two fields. -/
def twoFields (n : Nat) : List Char := "add".toList ++ ' ' :: '1' :: List.replicate n 'x'

theorem length_twoFields (n : Nat) : (twoFields n).length = n + 5 := by
  simp [twoFields]

theorem splitOn_twoFields (n : Nat) :
    (twoFields n).splitOn ' ' = ["add".toList, '1' :: List.replicate n 'x'] := by
  have hrest : ' ' ∉ '1' :: List.replicate n 'x' := by simp
  rw [twoFields, List.splitOn_append_cons_self_of_not_mem (by decide),
    List.splitOn_eq_singleton hrest]

theorem stoi_twoFields (n : Nat) : stoi ('1' :: List.replicate n 'x') = some 1 := by
  have hdigits : ('1' :: List.replicate n 'x').takeWhile Char.isDigit = ['1'] := by
    cases n <;> simp [List.replicate_succ]
  have hskip : ('1' :: List.replicate n 'x').dropWhile isSpace = '1' :: List.replicate n 'x' := by
    rw [List.dropWhile_cons_of_neg (by decide)]
  rw [stoi, hskip]
  simp [sign, hdigits, digits]

theorem readable_twoFields {n : Nat} (hn : n + 5 < 2 ^ 31) : Readable .add (twoFields n) := by
  refine ⟨by rwa [length_twoFields], by rw [splitOn_twoFields]; rfl, ?_⟩
  rw [splitOn_twoFields]
  intro typ htyp
  obtain rfl : '1' :: List.replicate n 'x' = typ := Option.some.inj htyp
  exact ⟨1, stoi_twoFields n⟩

/-- A statement of the greatest length with a missing field does not throw. -/
theorem not_splitsFields_twoFields :
    Readable .add (twoFields 2147483642) ∧
      ¬ SplitsFields .add kAdd (twoFields 2147483642) connected := by
  have hstr : Readable .add (twoFields 2147483642) := readable_twoFields (by decide)
  have hn : ((twoFields 2147483642).splitOn ' ').length < Word.add.required := by
    rw [splitOn_twoFields]
    decide
  have hend := hstr.intStatement_few kAdd connected.txid hn
  rw [decide_eq_true (by rw [length_twoFields, maxInt])] at hend
  refine ⟨hstr, fun h => ?_⟩
  have hthrown := h.throws hn
  split at hend
  · rw [intAdd_error hend] at hthrown
    cases hthrown
  · rw [intAdd_error hend] at hthrown
    cases hthrown

end Split

end App

end Grit
