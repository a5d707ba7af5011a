import Mathlib.Tactic.IntervalCases
import Grit.DbService.Recovery

/-!
# The texts of the statements

The helpers of `dbtm.cc` build the text of a statement. `sqlInsert` renders the transaction with
`to_string`; `sqlDelete` and the two updates append the `int` itself to the string, which appends
the character of that code. The database is a parameter: of it the helpers rely on that the
digits of a number in the condition name the rows of that number, and that another character names
none. So a row is named only if the character happens to be a digit, and it is then the row of that
digit.
-/

namespace Grit

/-- A row of `transInfo` with its column `txid`; the key of the table is another column. -/
structure Row where
  txid : Int
  info : TransInfo
deriving DecidableEq, Repr

namespace Sql

/-- `std::to_string`. -/
def toStr (n : Int) : List Char := (toString n).toList

/-- The character that `operator+=` of a string appends for an `int`. -/
def charOf (n : Int) : Char := Char.ofNat (n % 256).toNat

def insertText : List Char :=
  String.toList
    "INSERT INTO transInfo(txid,lsn,needLocalConflict,needGlobalConflict,fileName)     VALUES ("

def deleteText : List Char := "DELETE FROM transInfo         where txid = ".toList

def updateLocalText : List Char :=
  "UPDATE transInfo SET needLocalConflict=false WHERE txid=".toList

def updateGlobalText : List Char :=
  "UPDATE transInfo SET needGlobalConflict=false WHERE txid=".toList

/-- The text that the helper builds for a statement. -/
def text : Sql → List Char
  | .insert txid lsn fileName =>
      insertText ++ toStr txid ++ [','] ++ toStr lsn ++ ", true, true,".toList ++
        fileName.toList ++ ");".toList
  | .delete txid => deleteText ++ [charOf txid] ++ [';']
  | .updateNeedLocalConflict txid => updateLocalText ++ [charOf txid] ++ [';']
  | .updateNeedGlobalConflict txid => updateGlobalText ++ [charOf txid] ++ [';']

/-- The helpers that append the transaction as an `int`. -/
inductive Helper where
  | sqlDelete
  | sqlUpdateNeedLocalConflict
  | sqlUpdateNeedGlobalConflict
deriving DecidableEq, Repr

def Helper.sql : Helper → Int → Sql
  | .sqlDelete => .delete
  | .sqlUpdateNeedLocalConflict => .updateNeedLocalConflict
  | .sqlUpdateNeedGlobalConflict => .updateNeedGlobalConflict

def Helper.fixed : Helper → List Char
  | .sqlDelete => deleteText
  | .sqlUpdateNeedLocalConflict => updateLocalText
  | .sqlUpdateNeedGlobalConflict => updateGlobalText

theorem text_eq (h : Helper) (txid : Int) :
    (h.sql txid).text = h.fixed ++ [charOf txid] ++ [';'] := by
  cases h with
  | _ => rfl

/-- The database server: `affected` are the rows of a table that the execution of a text deletes or
updates. A number in the condition names the rows of that number; a text whose condition is
another character is an error. -/
structure Database where
  affected : List Char → List Row → List Row
  digits : ∀ (h : Helper) (n : Nat) (table : List Row),
    affected (h.fixed ++ toStr n ++ [';']) table = table.filter fun r => r.txid = (n : Int)
  other : ∀ (h : Helper) (c : Char) (table : List Row), c.isDigit = false →
    affected (h.fixed ++ [c] ++ [';']) table = []

/-! ### The character of a transaction -/

/-- The transaction that the character of `txid` names, if it is a digit. -/
def named (txid : Int) : Option Int :=
  if 48 ≤ txid % 256 ∧ txid % 256 ≤ 57 then some (txid % 256 - 48) else none

theorem toNat_charOf (txid : Int) : (charOf txid).toNat = (txid % 256).toNat := by
  have hvalid : (txid % 256).toNat.isValidChar := Or.inl (by omega)
  rw [charOf, Char.ofNat, dif_pos hvalid]
  rfl

theorem isDigit_charOf (txid : Int) :
    (charOf txid).isDigit = true ↔ 48 ≤ txid % 256 ∧ txid % 256 ≤ 57 := by
  have hcode := toNat_charOf txid
  have hdigit : (charOf txid).isDigit = true ↔
      48 ≤ (charOf txid).toNat ∧ (charOf txid).toNat ≤ 57 := by
    simp [Char.isDigit, UInt32.le_iff_toNat_le]
  rw [hdigit, hcode]
  omega

theorem toStr_natCast (n : Nat) : toStr n = Nat.toDigits 10 n := by
  have hrepr : toString (n : Int) = n.repr := rfl
  rw [toStr, hrepr, Nat.repr_eq_ofList_toDigits, String.toList_ofList]

/-- The digits are the texts of the numbers below ten. -/
theorem toStr_digit {n : Nat} (h : n < 10) : toStr n = [Char.ofNat (48 + n)] := by
  rw [toStr_natCast]
  interval_cases n <;> rfl

theorem charOf_digit {txid : Int} {n : Nat} (h : txid % 256 - 48 = n) (hn : n < 10) :
    [charOf txid] = toStr n := by
  have hcode : (txid % 256).toNat = 48 + n := by omega
  rw [toStr_digit hn, charOf, hcode]

theorem affected_text (db : Database) (h : Helper) (txid : Int) (table : List Row) :
    db.affected (h.sql txid).text table = table.filter fun r => named txid = some r.txid := by
  rw [text_eq, named]
  by_cases hdigit : 48 ≤ txid % 256 ∧ txid % 256 ≤ 57
  · obtain ⟨n, hn⟩ := Int.eq_ofNat_of_zero_le (show 0 ≤ txid % 256 - 48 by omega)
    rw [charOf_digit hn (by omega), db.digits, if_pos hdigit, hn]
    refine List.filter_congr fun r _ => ?_
    simp [eq_comm]
  · have hother : (charOf txid).isDigit = false :=
      Bool.eq_false_iff.2 fun hc => hdigit ((isDigit_charOf txid).1 hc)
    rw [db.other h _ table hother, if_neg hdigit]
    simp

/-! ### Which rows a helper addresses -/

/-- The text is the fixed part with the digits of the transaction. -/
def TextRight (h : Helper) (txid : Int) : Prop :=
  (h.sql txid).text = h.fixed ++ toStr txid ++ [';']

/-- In the given table the text affects the rows of the transaction and no other. -/
def RowsRight (db : Database) (h : Helper) (txid : Int) (table : List Row) : Prop :=
  db.affected (h.sql txid).text table = table.filter fun r => r.txid = txid

structure Addresses (db : Database) (h : Helper) (txid : Int) : Prop where
  text : TextRight h txid
  rows : ∀ table, RowsRight db h txid table

theorem named_lt {txid id : Int} (htxid : 0 ≤ txid) (hid : named txid = some id) : id < txid := by
  unfold named at hid
  split at hid
  · obtain rfl := Option.some.inj hid
    omega
  · simp at hid

/-- The character of a code is not the text of that number. -/
theorem toStr_ne_charOf {txid : Int} (htxid : 0 ≤ txid) : toStr txid ≠ [charOf txid] := by
  obtain ⟨n, rfl⟩ := Int.eq_ofNat_of_zero_le htxid
  intro heq
  have hlength : (Nat.toDigits 10 n).length ≤ 1 := by
    rw [← toStr_natCast, heq, List.length_singleton]
  have hlt : n < 10 := by
    have hle := (Nat.length_toDigits_le_iff (b := 10) (n := n) (by decide) (by decide)).1 hlength
    omega
  rw [toStr_digit hlt, List.cons.injEq] at heq
  have hcode := congrArg Char.toNat heq.1
  rw [toNat_charOf] at hcode
  interval_cases n <;> exact absurd hcode (by decide)

/-- Two selections without a common row agree only if both are empty. -/
theorem filter_eq_filter_iff {p q : Row → Bool} (hdisjoint : ∀ r, p r = true → q r = false)
    (table : List Row) :
    table.filter p = table.filter q ↔ ∀ r ∈ table, q r = false ∧ p r = false := by
  constructor
  · intro heq r hr
    have hiff : p r = true ↔ q r = true := by
      have hmem : r ∈ table.filter p ↔ r ∈ table.filter q := by rw [heq]
      simpa [hr] using hmem
    cases hp : p r with
    | true => exact absurd (hiff.1 hp) (by simp [hdisjoint r hp])
    | false => exact ⟨Bool.eq_false_iff.2 fun hq => absurd (hiff.2 hq) (by simp [hp]), rfl⟩
  · intro hnone
    refine List.filter_congr fun r hr => ?_
    rw [(hnone r hr).1, (hnone r hr).2]

/-- The text is never the right one, and it affects the right rows of a table just if it affects
none: the table has no row of the transaction, nor of the one that the character names. -/
theorem addresses_iff (db : Database) (h : Helper) {txid : Int} (htxid : 0 ≤ txid)
    (table : List Row) :
    ¬ TextRight h txid ∧ (RowsRight db h txid table ↔
      ∀ r ∈ table, r.txid ≠ txid ∧ named txid ≠ some r.txid) := by
  constructor
  · rw [TextRight, text_eq]
    intro heq
    have hmiddle := List.append_cancel_left (List.append_cancel_right heq)
    exact toStr_ne_charOf htxid hmiddle.symm
  · have hdisjoint : ∀ r : Row, decide (named txid = some r.txid) = true →
        decide (r.txid = txid) = false := by
      intro r hr
      have hlt := named_lt htxid (of_decide_eq_true hr)
      exact decide_eq_false (ne_of_lt hlt)
    rw [RowsRight, affected_text, filter_eq_filter_iff hdisjoint]
    simp only [decide_eq_false_iff_not]

/-- On no database does `sqlDelete` of transaction 53 address its rows: it deletes the row of
transaction 5. -/
theorem not_addresses_digit : ¬ ∃ db, Addresses db .sqlDelete 53 := by
  rintro ⟨db, h⟩
  have hrows := h.rows [⟨5, ⟨1, true, true, "5"⟩⟩]
  rw [RowsRight, affected_text] at hrows
  exact absurd hrows (by decide)

/-! ### A database -/

/-- What follows the fixed part of a text. -/
def after : List Char → List Char → Option (List Char)
  | [], s => some s
  | _ :: _, [] => none
  | c :: fixed, d :: s => if c = d then after fixed s else none

def natural (l : List Char) : Option Nat :=
  if l ≠ [] ∧ l.all Char.isDigit then some (Nat.ofDigitChars 10 l 0) else none

/-- The number in the condition of a statement that starts with `fixed`. -/
def condition (fixed s : List Char) : Option Nat :=
  (after fixed s).bind fun rest =>
    if rest.getLast? = some ';' then natural rest.dropLast else none

/-- The number in the condition of a text of one of the helpers. -/
def scan (s : List Char) : Option Nat :=
  condition (Helper.fixed .sqlDelete) s <|>
    condition (Helper.fixed .sqlUpdateNeedLocalConflict) s <|>
      condition (Helper.fixed .sqlUpdateNeedGlobalConflict) s

theorem after_append (fixed s : List Char) : after fixed (fixed ++ s) = some s := by
  induction fixed with
  | nil => rfl
  | cons c fixed ih => simpa [after] using ih

theorem natural_toDigits (n : Nat) : natural (Nat.toDigits 10 n) = some n := by
  have hne : Nat.toDigits 10 n ≠ [] := List.ne_nil_of_length_pos Nat.length_toDigits_pos
  have hall : (Nat.toDigits 10 n).all Char.isDigit = true :=
    List.all_eq_true.2 fun c hc => Nat.isDigit_of_mem_toDigits (by decide) (by decide) hc
  rw [natural, if_pos ⟨hne, hall⟩, Nat.ofDigitChars_ten_toDigits]

/-- Whether two texts have different characters at some position. -/
def clash : List Char → List Char → Bool
  | c :: l, d :: l' => c ≠ d || clash l l'
  | _, _ => false

theorem after_of_clash {fixed l : List Char} (h : clash fixed l = true) (s : List Char) :
    after fixed (l ++ s) = none := by
  induction fixed generalizing l with
  | nil => simp [clash] at h
  | cons c fixed ih =>
      cases l with
      | nil => simp [clash] at h
      | cons d l =>
          by_cases hcd : c = d
          · have hrest : clash fixed l = true := by simpa [clash, hcd] using h
            rw [List.cons_append, after, if_pos hcd, ih hrest]
          · rw [List.cons_append, after, if_neg hcd]

-- Literals are compared as lists of characters; to evaluate `String.toList` on them is slow.
theorem clash_ofList {l l' : List Char} (h : clash l l' = true) :
    clash (String.ofList l).toList (String.ofList l').toList = true := by
  rwa [String.toList_ofList, String.toList_ofList]

theorem condition_self (fixed l : List Char) :
    condition fixed (fixed ++ l ++ [';']) = natural l := by
  rw [condition, List.append_assoc, after_append]
  simp

theorem clash_fixed {h h' : Helper} (hne : h' ≠ h) : clash h'.fixed h.fixed = true := by
  cases h <;> cases h' <;> first
    | exact absurd rfl hne
    | exact clash_ofList rfl

theorem condition_of_ne {h h' : Helper} (hne : h' ≠ h) (l : List Char) :
    condition h'.fixed (h.fixed ++ l ++ [';']) = none := by
  rw [condition, List.append_assoc, after_of_clash (clash_fixed hne), Option.bind_none]

theorem scan_text (h : Helper) (l : List Char) : scan (h.fixed ++ l ++ [';']) = natural l := by
  have hself := condition_self h.fixed l
  have hother := fun h' (hne : h' ≠ h) => condition_of_ne hne l
  cases h with
  | sqlDelete =>
      rw [scan, hself, hother .sqlUpdateNeedLocalConflict (by decide),
        hother .sqlUpdateNeedGlobalConflict (by decide)]
      simp
  | sqlUpdateNeedLocalConflict =>
      rw [scan, hother .sqlDelete (by decide), hself,
        hother .sqlUpdateNeedGlobalConflict (by decide)]
      simp
  | sqlUpdateNeedGlobalConflict =>
      rw [scan, hother .sqlDelete (by decide), hother .sqlUpdateNeedLocalConflict (by decide),
        hself]
      simp

/-- A database that scans the texts of the helpers. -/
def scanner : Database where
  affected s table := table.filter fun r => (scan s).map Int.ofNat = some r.txid
  digits h n table := by
    rw [scan_text, toStr_natCast, natural_toDigits]
    refine List.filter_congr fun r _ => ?_
    simp [eq_comm]
  other h c table hc := by
    rw [scan_text, natural, if_neg (by simp [hc])]
    simp

theorem addresses_iff_other : RowsRight scanner .sqlDelete 5 [⟨6, ⟨1, true, true, "6"⟩⟩] :=
  (addresses_iff scanner .sqlDelete (by decide) _).2.2 (by decide)

end Sql

end Grit
