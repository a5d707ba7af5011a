import Mathlib.Algebra.Group.Nat.Defs
import Mathlib.Data.List.TakeWhile
import Grit.App.Basic
import Grit.Library.Runs
import Grit.Message.Size

/-!
# The statement parser with its `int` positions and its builder

`add` holds the positions and the length of the statement in variables of type `int`. Here they
are: the length is the size modulo `2 ^ 32`, and an increment beyond the largest `int` is
undefined behaviour. A missing field leads to an exception of `substr`, as the position is then
one beyond the end. A string is built as soon as it is read, and an assertion of the builder ends
the program. The size of the message is passed to `send` as an `int`.

`readFields` is what the parser does, told on the fields between the blanks and on the size of
the buffer: it takes the next field, and advances to the one after it. A statement with the
largest `int` as its length ends where the position cannot be incremented.
-/

namespace Grit

open Cmd

namespace App

/-- How a call ends without sending: by an uncaught exception, with undefined behaviour, by an
assertion of the builder, or with a size that is negative as an `int`. -/
inductive Fault where
  | thrown
  | undefined
  | aborted
  | negative
deriving DecidableEq, Repr

def maxInt : Nat := 2147483647

/-- `int len = str.size()`. -/
def intLength (str : List Char) : Int := Int.bmod str.length (2 ^ 32)

/-- `++pos2`. -/
def increment (pos2 : Nat) : Except Fault Nat :=
  if pos2 = maxInt then .error .undefined else .ok (pos2 + 1)

/-- The loop `while (pos2 < len && str[pos2] != ' ') pos2++`; the increment cannot overflow. -/
def intScanLoop (str : List Char) (len : Int) : Nat → Nat → Nat
  | 0, pos2 => pos2
  | fuel + 1, pos2 =>
      if pos2 < len ∧ str[pos2]? ≠ some ' ' then intScanLoop str len fuel (pos2 + 1) else pos2

def intScan (str : List Char) (pos2 : Nat) : Nat :=
  intScanLoop str (intLength str) str.length pos2

/-- A call of the library that may throw. -/
def orThrow {α : Type} : Option α → Except Fault α
  | none => .error .thrown
  | some a => .ok a

/-- The field that starts at `pos1`, and the position of its end. -/
def intField (str : List Char) (pos1 : Nat) : Except Fault (List Char × Nat) := do
  let pos2 := intScan str pos1
  let s ← orThrow (substr str pos1 (pos2 - pos1))
  return (s, pos2)

/-- Calls of the builder, with its assertions. -/
def built {α : Type} (x : FlatBuffers.Build α) (builder : FlatBuffers.Builder) :
    Except Fault (α × FlatBuffers.Builder) :=
  match x true builder with
  | none => .error .aborted
  | some r => .ok r

/-- A character of a string as a byte. -/
def byte (c : Char) : UInt8 := UInt8.ofNat c.toNat

def createString (str : List Char) : FlatBuffers.Build Nat :=
  FlatBuffers.createString (str.map byte)

/-- The message that `add` builds for a statement, and its size. -/
def intStatement (cmd : Cmd) (txid : Int) (str : List Char) : Except Fault (ESMsg × Nat) := do
  let (type, pos2) ← intField str 0
  let pos1 ← increment pos2
  let cmd := command cmd type
  let (typ, pos2) ← intField str pos1
  let typ ← orThrow (stoi typ)
  let pos1 ← increment pos2
  let (key, pos2) ← intField str pos1
  let (keyOff, builder) ← built (createString key) FlatBuffers.Builder.init
  let pos1 ← increment pos2
  if cmd = kAdd ∨ cmd = kChange then
    let (attr, pos2) ← intField str pos1
    let (attrOff, builder) ← built (createString attr) builder
    let pos1 ← increment pos2
    let (val, _) ← intField str pos1
    let (valOff, builder) ← built (createString val) builder
    let (_, builder) ← built (Wire.finishES cmd txid typ keyOff attrOff valOff) builder
    return (createESMsg cmd txid false typ (some (String.ofList key))
      (some (String.ofList attr)) (some (String.ofList val)), builder.buf.length)
  else
    let (_, builder) ← built (Wire.finishES cmd txid typ keyOff 0 0) builder
    return (createESMsg cmd txid false typ (some (String.ofList key)), builder.buf.length)

variable {C : Type*}

/-- `add`: the message goes over the first connection; `front()` of an empty list is undefined. -/
def intAdd (cmd : Cmd) (str : List Char) (a : App C) : Except Fault (C × ESMsg) :=
  match intStatement cmd a.txid str, a.connList with
  | .error e, _ => .error e
  | .ok _, [] => .error .undefined
  | .ok (m, size), conn :: _ => if size ≤ maxInt then .ok (conn, m) else .error .negative

/-! ### The fields -/

def takeField : List (List Char) → Except Fault (List Char × List (List Char))
  | [] => .error .thrown
  | f :: fs => .ok (f, fs)

/-- The parser goes on behind the end of a field; `full` tells that the position of the end of
the statement cannot be incremented. -/
def advance (full : Bool) (fs : List (List Char)) : Except Fault (List (List Char)) :=
  if full = true ∧ fs = [] then .error .undefined else .ok fs

/-- The buffer gets to a size; the builder allows `2 ^ 31` bytes at most. -/
def room (size : Nat) : Except Fault Nat :=
  if size ≤ 2147483648 then .ok size else .error .aborted

def readFields (full : Bool) (cmd : Cmd) (txid : Int) (fs : List (List Char)) :
    Except Fault (ESMsg × Nat) := do
  let (type, fs) ← takeField fs
  let fs ← advance full fs
  let cmd := command cmd type
  let (typ, fs) ← takeField fs
  let typ ← orThrow (stoi typ)
  let fs ← advance full fs
  let (key, fs) ← takeField fs
  let size ← room (FlatBuffers.afterString key.length 0)
  let fs ← advance full fs
  if cmd = kAdd ∨ cmd = kChange then
    let (attr, fs) ← takeField fs
    let size ← room (FlatBuffers.afterString attr.length size)
    let fs ← advance full fs
    let (val, _) ← takeField fs
    let size ← room (FlatBuffers.afterString val.length size)
    let size ← room (Wire.esSize size cmd txid typ true)
    return (createESMsg cmd txid false typ (some (String.ofList key))
      (some (String.ofList attr)) (some (String.ofList val)), size)
  else
    let size ← room (Wire.esSize size cmd txid typ false)
    return (createESMsg cmd txid false typ (some (String.ofList key)), size)

/-! ### The parser reads the fields -/

/-- The fields from the position on are `fs`. -/
def StartsAt (str : List Char) (pos : Nat) (fs : List (List Char)) : Prop :=
  pos ≤ str.length ∧ fs = (str.drop pos).splitOn ' ' ∨ pos = str.length + 1 ∧ fs = []

theorem intLength_eq {str : List Char} (hlen : str.length < 2 ^ 31) :
    intLength str = str.length := by
  unfold intLength
  rw [Int.bmod_eq_of_le]
  · omega
  · omega

theorem intScanLoop_eq {str : List Char} {len : Int} (hlen : len = str.length) (fuel pos : Nat) :
    intScanLoop str len fuel pos = scanLoop str fuel pos := by
  subst hlen
  induction fuel generalizing pos with
  | zero => rfl
  | succ fuel ih =>
      unfold intScanLoop scanLoop
      cases hc : str[pos]? with
      | none =>
          have hle : str.length ≤ pos := List.getElem?_eq_none_iff.1 hc
          rw [if_neg (by omega)]
      | some c =>
          obtain ⟨hlt, -⟩ := List.getElem?_eq_some_iff.1 hc
          simp [hlt, ih]

theorem intScan_eq {str : List Char} (hlen : str.length < 2 ^ 31) (pos : Nat) :
    intScan str pos = scan str pos :=
  intScanLoop_eq (intLength_eq hlen) str.length pos

theorem scan_eq (str : List Char) (pos : Nat) :
    scan str pos = pos + (firstWord (str.drop pos)).length :=
  scanLoop_eq str str.length pos (by omega)

/-- The first field of a text is its first word. Either it is the whole text, or the other
fields are those behind the blank after it. -/
theorem splitOn_firstWord (str : List Char) :
    str.splitOn ' ' = [firstWord str] ∧ (firstWord str).length = str.length ∨
      str.splitOn ' ' = firstWord str :: (str.drop ((firstWord str).length + 1)).splitOn ' ' ∧
        (firstWord str).length < str.length := by
  by_cases hmem : ' ' ∈ str
  · obtain ⟨w, rest, rfl, hw⟩ := List.eq_append_cons_of_mem hmem
    have hfirst : firstWord (w ++ ' ' :: rest) = w := by
      rw [firstWord, List.takeWhile_append_of_pos]
      · simp
      · intro c hc
        simpa using ne_of_mem_of_not_mem hc hw
    right
    rw [hfirst, List.splitOn_append_cons_self_of_not_mem hw, List.drop_length_add_append]
    simp
  · have hfirst : firstWord str = str := by
      rw [firstWord, List.takeWhile_eq_self_iff]
      intro c hc
      simpa using ne_of_mem_of_not_mem hc hmem
    left
    rw [hfirst, List.splitOn_eq_singleton hmem]
    exact ⟨rfl, rfl⟩

/-- From a position where fields start, the first of them is read up to its end, and the others
start behind it. -/
theorem startsAt_cons {str : List Char} {pos : Nat} {f : List Char} {fs : List (List Char)}
    (h : StartsAt str pos (f :: fs)) :
    substr str pos (scan str pos - pos) = some f ∧ StartsAt str (scan str pos + 1) fs := by
  rcases h with ⟨hpos, hfs⟩ | ⟨-, hfs⟩
  · have hdrop : (str.drop pos).length = str.length - pos := List.length_drop
    have htake : (str.drop pos).take (firstWord (str.drop pos)).length = firstWord (str.drop pos) :=
      (List.prefix_iff_eq_take.1 (List.takeWhile_prefix _)).symm
    rw [scan_eq, Nat.add_sub_cancel_left, substr, if_pos hpos, htake]
    rcases splitOn_firstWord (str.drop pos) with ⟨hsplit, hlen⟩ | ⟨hsplit, hlen⟩
    · obtain ⟨rfl, rfl⟩ := List.cons.inj (hfs.trans hsplit)
      exact ⟨rfl, Or.inr ⟨by omega, rfl⟩⟩
    · obtain ⟨rfl, rfl⟩ := List.cons.inj (hfs.trans hsplit)
      refine ⟨rfl, Or.inl ⟨by omega, ?_⟩⟩
      rw [List.drop_drop, Nat.add_assoc]
  · cases hfs

theorem startsAt_nil {str : List Char} {pos : Nat} (h : StartsAt str pos []) :
    substr str pos (scan str pos - pos) = none := by
  rcases h with ⟨-, hfs⟩ | ⟨hpos, -⟩
  · exact absurd hfs.symm (List.splitOn_ne_nil ' ' _)
  · rw [substr, if_neg (by omega)]

theorem intField_lockstep {str : List Char} (hlen : str.length < 2 ^ 31) {pos : Nat}
    {fs : List (List Char)} (h : StartsAt str pos fs) :
    Lockstep (fun x y => x.1 = y.1 ∧ StartsAt str (x.2 + 1) y.2)
      (intField str pos) (takeField fs) := by
  rw [intField, intScan_eq hlen]
  cases fs with
  | nil =>
      rw [startsAt_nil h]
      exact .error _
  | cons f fs =>
      obtain ⟨hsub, hnext⟩ := startsAt_cons h
      rw [hsub]
      exact .ok ⟨rfl, hnext⟩

theorem increment_lockstep {str : List Char} (hlen : str.length < 2 ^ 31) {pos : Nat}
    {fs : List (List Char)} (h : StartsAt str (pos + 1) fs) :
    Lockstep (StartsAt str) (increment pos) (advance (str.length = maxInt) fs) := by
  have hnil : fs = [] ↔ pos = str.length := by
    rcases h with ⟨hpos, rfl⟩ | ⟨hpos, rfl⟩
    · have hne := List.splitOn_ne_nil ' ' (str.drop (pos + 1))
      simp only [hne, false_iff]
      omega
    · simp only [true_iff]
      omega
  have hle : pos ≤ str.length := by
    rcases h with ⟨hpos, -⟩ | ⟨hpos, -⟩ <;> omega
  have hmax : pos = maxInt ↔ str.length = maxInt ∧ fs = [] := by
    rw [hnil, maxInt]
    omega
  by_cases hfull : str.length = maxInt ∧ fs = []
  · rw [increment, advance, if_pos (hmax.2 hfull), if_pos (by simpa using hfull)]
    exact .error _
  · rw [increment, advance, if_neg (mt hmax.1 hfull), if_neg (by simpa using hfull)]
    exact .ok h

theorem startsAt_zero (str : List Char) : StartsAt str 0 (str.splitOn ' ') :=
  Or.inl ⟨Nat.zero_le _, rfl⟩

/-- A string was built at the front of the buffer, which has the size. -/
structure HasString (b : FlatBuffers.Builder) (x : Nat × FlatBuffers.Builder) (size : Nat) :
    Prop where
  offset : x.1 = x.2.buf.length
  pos : x.2.buf.length ≠ 0
  plain : Wire.Plain x.2
  length : x.2.buf.length = size
  grows : b.buf.length ≤ x.2.buf.length

theorem createString_lockstep {b : FlatBuffers.Builder} (hplain : Wire.Plain b)
    (str : List Char) :
    Lockstep (HasString b) (built (createString str) b)
      (room (FlatBuffers.afterString str.length b.buf.length)) := by
  have hlength := b.length_withString_eq (str.map byte)
  have hgrows : b.buf.length < FlatBuffers.afterString str.length b.buf.length := by
    rw [FlatBuffers.afterString, FlatBuffers.roundUp]
    omega
  rw [List.length_map] at hlength
  rw [built, createString, hplain.run_createString, List.length_map, room]
  by_cases hsize : FlatBuffers.afterString str.length b.buf.length ≤ 2147483648
  · rw [if_pos hsize, if_pos hsize]
    refine .ok ⟨hlength.symm, ?_, hplain.withString _, hlength, ?_⟩
    · show (b.withString (str.map byte)).buf.length ≠ 0
      omega
    · show b.buf.length ≤ (b.withString (str.map byte)).buf.length
      omega
  · rw [if_neg hsize, if_neg hsize]
    exact .error _

theorem finishES_lockstep {b : FlatBuffers.Builder} {carries : Bool} {key attr val : Nat}
    (hplain : Wire.Plain b) (h : Wire.Offsets b carries key attr val) (cmd : Cmd)
    (txid type : Int) :
    Lockstep (fun x size => x.2.buf.length = size)
      (built (Wire.finishES cmd txid type key attr val) b)
      (room (Wire.esSize b.buf.length cmd txid type carries)) := by
  have hrun := Wire.run_finishES hplain h cmd txid type
  rw [built, room]
  cases hfinish : Wire.finishES cmd txid type key attr val true b with
  | none =>
      rw [hfinish, Option.map_none] at hrun
      split at hrun
      · cases hrun
      · rename_i hlarge
        rw [if_neg hlarge]
        exact .error _
  | some r =>
      rw [hfinish, Option.map_some] at hrun
      split at hrun
      · rename_i hsmall
        rw [if_pos hsmall]
        exact .ok (Option.some.inj hrun)
      · cases hrun

/-- The parser reads the fields of the statement one after the other. -/
theorem intStatement_eq {str : List Char} (hlen : str.length < 2 ^ 31) (cmd : Cmd) (txid : Int) :
    intStatement cmd txid str =
      readFields (str.length = maxInt) cmd txid (str.splitOn ' ') := by
  apply Lockstep.eq
  refine (intField_lockstep hlen (startsAt_zero str)).bind ?_
  rintro ⟨type, pos⟩ ⟨_, fs⟩ ⟨rfl, hpos⟩
  refine (increment_lockstep hlen hpos).bind fun pos fs hpos => ?_
  refine (intField_lockstep hlen hpos).bind ?_
  rintro ⟨typ, pos⟩ ⟨_, fs⟩ ⟨rfl, hpos⟩
  refine (Lockstep.refl (orThrow (stoi typ))).bind ?_
  rintro n _ rfl
  refine (increment_lockstep hlen hpos).bind fun pos fs hpos => ?_
  refine (intField_lockstep hlen hpos).bind ?_
  rintro ⟨key, pos⟩ ⟨_, fs⟩ ⟨rfl, hpos⟩
  refine (createString_lockstep Wire.plain_init key).bind ?_
  rintro ⟨keyOff, b₁⟩ _ ⟨hkey, hkey0, hplain₁, rfl, -⟩
  refine (increment_lockstep hlen hpos).bind fun pos fs hpos => ?_
  refine Lockstep.ite ?_ ?_
  · refine (intField_lockstep hlen hpos).bind ?_
    rintro ⟨attr, pos⟩ ⟨_, fs⟩ ⟨rfl, hpos⟩
    refine (createString_lockstep hplain₁ attr).bind ?_
    rintro ⟨attrOff, b₂⟩ _ ⟨hattr, hattr0, hplain₂, rfl, hle₂⟩
    refine (increment_lockstep hlen hpos).bind fun pos fs hpos => ?_
    refine (intField_lockstep hlen hpos).bind ?_
    rintro ⟨val, pos⟩ ⟨_, fs⟩ ⟨rfl, -⟩
    refine (createString_lockstep hplain₂ val).bind ?_
    rintro ⟨valOff, b₃⟩ _ ⟨hval, hval0, hplain₃, rfl, hle₃⟩
    have hoffsets : Wire.Offsets b₃ true keyOff attrOff valOff := by
      dsimp only at hkey hkey0 hattr hattr0 hval hval0 hle₂ hle₃
      exact ⟨⟨by omega, by omega⟩, ⟨by omega, by omega⟩, by omega, by omega⟩
    refine (finishES_lockstep hplain₃ hoffsets _ txid n).bind ?_
    rintro ⟨_, b₄⟩ _ rfl
    exact .ok rfl
  · have hoffsets : Wire.Offsets b₁ false keyOff 0 0 := by
      dsimp only at hkey hkey0
      exact ⟨⟨by omega, by omega⟩, rfl, rfl⟩
    refine (finishES_lockstep hplain₁ hoffsets _ txid n).bind ?_
    rintro ⟨_, b₂⟩ _ rfl
    exact .ok rfl

/-! ### The parser on numbers without a bound -/

theorem orThrow_bind {α β : Type} (x : Option α) (f : α → Option β) :
    orThrow (x >>= f) = orThrow x >>= fun a => orThrow (f a) := by
  cases x <;> rfl

theorem orThrow_ite {α : Type} {p : Prop} [Decidable p] (x y : Option α) :
    orThrow (if p then x else y) = if p then orThrow x else orThrow y :=
  apply_ite orThrow p x y

theorem advance_false (fs : List (List Char)) : advance false fs = .ok fs := by
  simp [advance]

/-- The number of characters of the fields. -/
def total (fs : List (List Char)) : Nat := fs.foldr (fun f n => f.length + n) 0

theorem total_splitOn (str : List Char) : total (str.splitOn ' ') ≤ str.length := by
  induction hn : str.length using Nat.strong_induction_on generalizing str with
  | _ n ih =>
      subst hn
      rcases splitOn_firstWord str with ⟨hsplit, hlen⟩ | ⟨hsplit, hlen⟩
      · rw [hsplit, total, List.foldr_cons, List.foldr_nil, hlen, Nat.add_zero]
      · have hrest := ih _ (by rw [List.length_drop]; omega)
          (str.drop ((firstWord str).length + 1)) rfl
        rw [List.length_drop] at hrest
        rw [hsplit, total, List.foldr_cons, ← total]
        omega

/-- The next field, within a budget of characters. -/
theorem field_lockstep {str : List Char} {pos budget : Nat} {fs : List (List Char)}
    (h : StartsAt str pos fs) (hbudget : total fs ≤ budget) :
    Lockstep (fun x y => x.1 = y.1 ∧ StartsAt str x.2 y.2 ∧ y.1.length + total y.2 ≤ budget)
      (orThrow (field str pos)) (takeField fs) := by
  cases fs with
  | nil =>
      rw [field, startsAt_nil h]
      exact .error _
  | cons f fs =>
      obtain ⟨hsub, hnext⟩ := startsAt_cons h
      rw [field, hsub]
      rw [total, List.foldr_cons, ← total] at hbudget
      exact .ok ⟨rfl, hnext, hbudget⟩

theorem room_of_le {size : Nat} (h : size ≤ 2147483648) : room size = .ok size := if_pos h

theorem afterString_le (n size : Nat) : FlatBuffers.afterString n size ≤ size + n + 8 := by
  rw [FlatBuffers.afterString, FlatBuffers.roundUp]
  omega

theorem intSize_le (value : Int) : Wire.intSize value ≤ 4 := by
  unfold Wire.intSize
  split <;> decide

theorem esSize_le (size : Nat) (cmd : Cmd) (txid type : Int) (carries : Bool) :
    Wire.esSize size cmd txid type carries ≤ size + 73 := by
  have htype := intSize_le type
  have htxid := intSize_le txid
  have hcmd := intSize_le (Wire.code cmd)
  rw [Wire.esSize, FlatBuffers.roundUp]
  split <;> omega

@[simp]
theorem ok_bind {α β : Type} (a : α) (k : α → Except Fault β) : Except.ok a >>= k = k a := rfl

/-- For a short statement the buffer does not get too large. -/
theorem statement_lockstep {str : List Char} (hlen : str.length + 100 ≤ maxInt) (cmd : Cmd)
    (txid : Int) :
    Lockstep (fun m x => m = x.1 ∧ x.2 ≤ maxInt) (orThrow (statement cmd txid str))
      (readFields false cmd txid (str.splitOn ' ')) := by
  unfold maxInt at hlen ⊢
  simp only [statement, readFields, orThrow_bind, orThrow_ite, advance_false, ok_bind]
  refine (field_lockstep (startsAt_zero str) (total_splitOn str)).bind ?_
  rintro ⟨type, pos⟩ ⟨_, fs⟩ ⟨rfl, hpos, hbudget⟩
  refine (field_lockstep hpos (Nat.le_of_add_left_le hbudget)).bind ?_
  rintro ⟨typ, pos⟩ ⟨_, fs⟩ ⟨rfl, hpos, hbudget⟩
  refine (Lockstep.refl (orThrow (stoi typ))).bind ?_
  rintro n _ rfl
  refine (field_lockstep hpos (Nat.le_of_add_left_le hbudget)).bind ?_
  rintro ⟨key, pos⟩ ⟨_, fs⟩ ⟨rfl, hpos, hbudget⟩
  dsimp only at hpos hbudget ⊢
  have hkey := afterString_le key.length 0
  rw [room_of_le (by omega), ok_bind]
  refine Lockstep.ite ?_ ?_
  · refine (field_lockstep hpos (Nat.le_refl _)).bind ?_
    rintro ⟨attr, pos⟩ ⟨_, fs⟩ ⟨rfl, hpos, hbudget'⟩
    dsimp only at hpos hbudget' ⊢
    have hattr := afterString_le attr.length (FlatBuffers.afterString key.length 0)
    rw [room_of_le (by omega), ok_bind]
    refine (field_lockstep hpos (Nat.le_refl _)).bind ?_
    rintro ⟨val, pos⟩ ⟨_, fs⟩ ⟨rfl, -, hbudget''⟩
    dsimp only at hbudget'' ⊢
    have hval := afterString_le val.length
      (FlatBuffers.afterString attr.length (FlatBuffers.afterString key.length 0))
    have hsize := esSize_le (FlatBuffers.afterString val.length
      (FlatBuffers.afterString attr.length (FlatBuffers.afterString key.length 0)))
      (command cmd type) txid n true
    rw [room_of_le (by omega), ok_bind, room_of_le (by omega), ok_bind]
    exact .ok ⟨rfl, by omega⟩
  · have hsize := esSize_le (FlatBuffers.afterString key.length 0) (command cmd type) txid n false
    rw [room_of_le (by omega), ok_bind]
    exact .ok ⟨rfl, by omega⟩

/-- For a short statement the positions may be taken as numbers without a bound, and the builder
may be left out. -/
theorem add_eq (cmd : Cmd) (str : String) (a : App C) (hlen : str.toList.length + 100 ≤ maxInt) :
    a.add cmd str =
      match intAdd cmd str.toList a with
      | .error _ => { a with crashed := true }
      | .ok (conn, m) => { a with out := a.out ++ [.sendEs conn m] } := by
  have hshort : str.toList.length < 2 ^ 31 ∧ str.toList.length ≠ maxInt := by
    unfold maxInt at hlen ⊢
    omega
  have hstep := statement_lockstep hlen cmd a.txid
  have hint := intStatement_eq hshort.1 cmd a.txid
  rw [decide_eq_false hshort.2] at hint
  unfold add intAdd
  rw [hint]
  cases hstatement : statement cmd a.txid str.toList with
  | none =>
      rw [hstatement] at hstep
      generalize readFields false cmd a.txid (str.toList.splitOn ' ') = x at hstep ⊢
      cases hstep
      rfl
  | some m =>
      rw [hstatement] at hstep
      generalize readFields false cmd a.txid (str.toList.splitOn ' ') = x at hstep ⊢
      obtain _ | ⟨rfl, hsize⟩ := hstep
      cases a.connList with
      | nil => rfl
      | cons conn rest => simp only [if_pos hsize]

end App

end Grit
