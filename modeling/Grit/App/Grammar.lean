import Mathlib.Data.List.Basic
import Grit.App.Statements

/-!
# The statements that the parser accepts

The comment at `add` describes statements with the words `node` and `edge` as their types and
with lower case command words. No such statement is accepted, as a type has to be a number. This
is so at every length: of a statement whose length does not fit an `int` the parser sees at most
the beginning.
-/

namespace Grit

open Cmd

namespace App

/-! ### Statements of any length -/

section Length

variable {str : List Char}

theorem intLength_le (str : List Char) : intLength str ≤ str.length ∧ intLength str ≤ maxInt := by
  have hlt := Int.bmod_lt (x := str.length) (m := 2 ^ 32) (by decide)
  unfold intLength maxInt
  rw [Int.bmod_def] at hlt ⊢
  split <;> omega

/-- The loop stops at a blank, or where it started or at the length that it knows. -/
theorem intScanLoop_stops {len : Int} (hlen : len ≤ str.length) (fuel pos : Nat)
    (h : intScanLoop str len fuel pos < len) :
    intScanLoop str len fuel pos = scanLoop str fuel pos := by
  induction fuel generalizing pos with
  | zero => rfl
  | succ fuel ih =>
      unfold intScanLoop at h ⊢
      unfold scanLoop
      split at h
      · rename_i hgo
        rw [if_pos hgo, ih (pos + 1) h]
        cases hc : str[pos]? with
        | none =>
            have hle := List.getElem?_eq_none_iff.1 hc
            omega
        | some c =>
            have hne : c ≠ ' ' := fun heq => hgo.2 (heq ▸ hc)
            simp [hne]
      · rename_i hstop
        have hblank : str[pos]? = some ' ' := by
          by_contra hne
          exact hstop ⟨h, hne⟩
        rw [if_neg hstop, hblank]
        simp

theorem intScanLoop_bounds (str : List Char) (len : Int) (fuel pos : Nat) :
    intScanLoop str len fuel pos = pos ∨
      pos ≤ intScanLoop str len fuel pos ∧ intScanLoop str len fuel pos ≤ len := by
  induction fuel generalizing pos with
  | zero => exact Or.inl rfl
  | succ fuel ih =>
      unfold intScanLoop
      split
      · rename_i hgo
        right
        rcases ih (pos + 1) with heq | hbounds <;> omega
      · exact Or.inl rfl

theorem intScanLoop_le {len : Int} (hlen : len ≤ str.length) (fuel pos : Nat) :
    intScanLoop str len fuel pos ≤ scanLoop str fuel pos := by
  have hge : ∀ fuel pos, pos ≤ scanLoop str fuel pos := by
    intro fuel
    induction fuel with
    | zero => exact fun pos => Nat.le_refl pos
    | succ fuel ih =>
        intro pos
        unfold scanLoop
        split
        · exact Nat.le_refl pos
        · split
          · exact Nat.le_of_succ_le (ih (pos + 1))
          · exact Nat.le_refl pos
  induction fuel generalizing pos with
  | zero => exact Nat.le_refl pos
  | succ fuel ih =>
      by_cases hgo : pos < len ∧ str[pos]? ≠ some ' '
      · have hlt : pos < str.length := by omega
        have hc : str[pos]? = some str[pos] := List.getElem?_eq_getElem hlt
        have hne : str[pos] ≠ ' ' := fun heq => hgo.2 (heq ▸ hc)
        rw [intScanLoop, if_pos hgo, scanLoop, hc]
        simpa [hne] using ih (pos + 1)
      · rw [intScanLoop, if_neg hgo]
        exact hge (fuel + 1) pos

theorem le_intScan (str : List Char) (pos : Nat) : pos ≤ intScan str pos := by
  rcases intScanLoop_bounds str (intLength str) str.length pos with heq | hbounds
  · exact Nat.le_of_eq heq.symm
  · exact hbounds.1

/-- A field is read to its end if the next one starts before the length. -/
theorem startsAt_of_lt {pos : Nat} {s f : List Char} {fs : List (List Char)}
    (h : StartsAt str pos (f :: fs)) (hlt : intScan str pos < intLength str)
    (hsub : substr str pos (intScan str pos - pos) = some s) :
    s = f ∧ StartsAt str (intScan str pos + 1) fs := by
  have hscan : intScan str pos = scan str pos :=
    intScanLoop_stops (intLength_le str).1 str.length pos hlt
  obtain ⟨hfield, hnext⟩ := startsAt_cons h
  rw [hscan] at hsub ⊢
  exact ⟨Option.some.inj (hsub.symm.trans hfield), hnext⟩

/-- A field that is not empty ends at the length at the latest. -/
theorem intScan_of_ne_nil {pos : Nat} {s : List Char}
    (hsub : substr str pos (intScan str pos - pos) = some s) (hne : s ≠ []) :
    intScan str pos = pos + s.length ∧ intScan str pos ≤ intLength str := by
  have hlen := (intLength_le str).1
  unfold substr at hsub
  split at hsub
  · obtain rfl := Option.some.inj hsub
    have hlength : ((str.drop pos).take (intScan str pos - pos)).length =
        min (intScan str pos - pos) (str.length - pos) := by
      rw [List.length_take, List.length_drop]
    have hpos := List.length_pos_iff.2 hne
    rcases intScanLoop_bounds str (intLength str) str.length pos with heq | hbounds
    · have hstay : intScan str pos = pos := heq
      omega
    · have hle : pos ≤ intScan str pos ∧ intScan str pos ≤ intLength str := hbounds
      omega
  · cases hsub

theorem length_of_startsAt {pos : Nat} {f : List Char} (h : StartsAt str pos [f]) :
    pos + f.length = str.length := by
  rcases h with ⟨hpos, hfs⟩ | ⟨-, hfs⟩
  · rcases splitOn_firstWord (str.drop pos) with ⟨hsplit, hlen⟩ | ⟨hsplit, -⟩
    · obtain ⟨rfl, -⟩ := List.cons.inj (hfs.trans hsplit)
      rw [hlen, List.length_drop]
      omega
    · have hnil := (List.cons.inj (hfs.trans hsplit)).2
      exact absurd hnil.symm (List.splitOn_ne_nil ' ' _)
  · cases hfs

/-- A field that is not empty and is read as the last one ends where the statement does. -/
theorem length_le_of_last {pos : Nat} {s : List Char} (hstart : StartsAt str pos [s])
    (hsub : substr str pos (intScan str pos - pos) = some s) (hne : s ≠ []) :
    str.length ≤ maxInt := by
  have hmax := (intLength_le str).2
  have hlength := length_of_startsAt hstart
  obtain ⟨hend, hle⟩ := intScan_of_ne_nil hsub hne
  omega

variable {α β : Type} {k : α → Except Fault β} {b : β}

theorem intField_bind_eq_ok {pos : Nat} {k : List Char × Nat → Except Fault β} :
    intField str pos >>= k = .ok b ↔
      ∃ s, substr str pos (intScan str pos - pos) = some s ∧ k (s, intScan str pos) = .ok b := by
  cases hsub : substr str pos (intScan str pos - pos) with
  | none => simp [intField, hsub, orThrow]
  | some s => simp [intField, hsub, orThrow]

theorem increment_bind_eq_ok {pos : Nat} {k : Nat → Except Fault β} :
    increment pos >>= k = .ok b ↔ pos ≠ maxInt ∧ k (pos + 1) = .ok b := by
  unfold increment
  split <;> simp [*]

theorem built_bind_eq_ok {x : FlatBuffers.Build α} {builder : FlatBuffers.Builder}
    {k : α × FlatBuffers.Builder → Except Fault β} :
    built x builder >>= k = .ok b ↔ ∃ r, x true builder = some r ∧ k r = .ok b := by
  unfold built
  cases x true builder <;> simp

end Length

/-! ### The documented statements -/

inductive Kind where
  | node
  | edge
deriving DecidableEq, Repr

/-- How the commands and the types of statements are spelled. -/
structure Grammar where
  word : Word → List Char
  kind : Kind → List Char

/-- The spelling of the comment at `add`. -/
def documented : Grammar where
  word
    | .add => "add".toList
    | .change => "change".toList
    | .delete => "delete".toList
    | .search => "search".toList
  kind
    | .node => "node".toList
    | .edge => "edge".toList

/-- The spelling that the parser knows, with two numbers for the types. -/
def numbered : Grammar where
  word := Word.literal
  kind
    | .node => "0".toList
    | .edge => "1".toList

/-- The parts of a statement behind the command and the type. -/
structure Parts where
  key : List Char
  attr : List Char
  val : List Char

def Parts.Blankless (p : Parts) : Prop := ' ' ∉ p.key ∧ ' ' ∉ p.attr ∧ ' ' ∉ p.val

/-- The part at the end of a statement. -/
def Parts.last (p : Parts) (w : Word) : List Char := if w.carries then p.val else p.key

namespace Grammar

/-- No spelling of the command or of a type contains a blank. -/
def Blankless (g : Grammar) (w : Word) : Prop := ' ' ∉ g.word w ∧ ∀ k, ' ' ∉ g.kind k

def fields (g : Grammar) (w : Word) (k : Kind) (p : Parts) : List (List Char) :=
  g.word w :: g.kind k :: if w.carries then [p.key, p.attr, p.val] else [p.key]

/-- The text of a statement. -/
def text (g : Grammar) (w : Word) (k : Kind) (p : Parts) : List Char :=
  [' '].intercalate (g.fields w k p)

variable {g : Grammar} {w : Word} {p : Parts}

theorem splitOn_text (hg : g.Blankless w) (hp : p.Blankless) (k : Kind) :
    (g.text w k p).splitOn ' ' = g.fields w k p := by
  apply List.splitOn_intercalate
  · obtain ⟨hkey, hattr, hval⟩ := hp
    have hparts : ∀ f ∈ if w.carries then [p.key, p.attr, p.val] else [p.key], ' ' ∉ f := by
      split <;> simp [hkey, hattr, hval]
    intro f hf
    rcases List.mem_cons.1 hf with rfl | hf
    · exact hg.1
    · rcases List.mem_cons.1 hf with rfl | hf
      · exact hg.2 k
      · exact hparts f hf
  · exact List.cons_ne_nil _ _

theorem length_fields (k : Kind) : (g.fields w k p).length = w.required := by
  cases w <;> rfl

end Grammar

/-- The message has the parts of the statement; the attribute and the value are unset if the
command has none. -/
structure Carries (w : Word) (txid : Int) (p : Parts) (m : ESMsg) : Prop where
  cmd_eq : m.cmd = w.cmd
  txid_eq : m.txid = txid
  key_eq : m.key = some (String.ofList p.key)
  attr_eq : m.attr = if w.carries then some (String.ofList p.attr) else none
  val_eq : m.val = if w.carries then some (String.ofList p.val) else none

variable {C : Type*}

/-- The statements of the two types are sent, and their messages have different types. -/
def Accepted (g : Grammar) (w : Word) (p : Parts) (a : App C) : Prop :=
  ∀ c, ∃ conn node edge, a.connList.head? = some conn ∧
    intAdd c (g.text w .node p) a = .ok (conn, node) ∧ Carries w a.txid p node ∧
    intAdd c (g.text w .edge p) a = .ok (conn, edge) ∧ Carries w a.txid p edge ∧
    node.type ≠ edge.type

theorem command_eq_iff (w : Word) (f : List Char) :
    (∀ c, command c f = w.cmd) ↔ cStr f = w.literal := by
  constructor
  · intro h
    -- a value that no word stands for shows which comparison has succeeded
    have hcommit := h kCommit
    unfold command at hcommit
    split_ifs at hcommit with hadd hdelete hchange hsearch <;> cases w <;> cases hcommit
    · exact hadd
    · exact hdelete
    · exact hchange
    · exact hsearch
  · intro h c
    have hliteral : cStr f = cStr w.literal := by
      rw [h]
      cases w <;> rfl
    rw [← w.command_literal c]
    simp only [command, hliteral]

namespace Grammar

variable {g : Grammar} {w : Word} {p : Parts} {k : Kind}

/-- The length of a statement fits an `int`, and its message is small enough. At the greatest
length the parser must not go on behind the last field. -/
structure Fits (g : Grammar) (w : Word) (k : Kind) (p : Parts) (txid : Int) : Prop where
  length_le : (g.text w k p).length ≤ maxInt
  carries : (g.text w k p).length = maxInt → w.carries = true
  size_lt : messageSize w txid (g.fields w k p) < 2147483648

theorem intStatement_text (hg : g.Blankless w) (hp : p.Blankless)
    (hlen : (g.text w k p).length ≤ maxInt) (c : Cmd) (txid : Int) :
    intStatement c txid (g.text w k p) =
      readFields ((g.text w k p).length = maxInt) c txid (g.fields w k p) := by
  rw [intStatement_eq (Nat.lt_succ_of_le hlen), splitOn_text hg hp]

theorem startsAt_text (hg : g.Blankless w) (hp : p.Blankless) (k : Kind) :
    StartsAt (g.text w k p) 0 (g.fields w k p) := by
  have h := startsAt_zero (g.text w k p)
  rwa [splitOn_text hg hp] at h

/-- A statement that is sent with all its parts has a length that fits an `int`: otherwise the
parser does not see the last part to its end. -/
theorem length_le_of_carries (hg : g.Blankless w) (hp : p.Blankless) (hlast : p.last w ≠ [])
    {c : Cmd} {txid : Int} {m : ESMsg} {size : Nat}
    (hm : intStatement c txid (g.text w k p) = .ok (m, size)) (hcarries : Carries w txid p m) :
    (g.text w k p).length ≤ maxInt := by
  have hstart := startsAt_text hg hp k
  simp only [intStatement, intField_bind_eq_ok, increment_bind_eq_ok, orThrow_bind_eq_ok,
    built_bind_eq_ok] at hm
  obtain ⟨type, htype, -, typ, htyp, n, -, -, key, hkey, _, -, -, hm⟩ := hm
  have hle₁ := le_intScan (g.text w k p) (intScan (g.text w k p) 0 + 1)
  have hle₂ := le_intScan (g.text w k p)
    (intScan (g.text w k p) (intScan (g.text w k p) 0 + 1) + 1)
  split at hm
  · rename_i hcmd
    simp only [intField_bind_eq_ok, increment_bind_eq_ok, built_bind_eq_ok] at hm
    obtain ⟨attr, hattr, _, -, -, val, hval, _, -, _, -, hm⟩ := hm
    obtain ⟨rfl, -⟩ := Prod.mk.inj (Except.ok.inj hm)
    have hw : w.carries = true := w.carries_iff.2 (hcarries.cmd_eq ▸ hcmd)
    have hfields : g.fields w k p = [g.word w, g.kind k, p.key, p.attr, p.val] := by
      simp [fields, hw]
    have hlast' : val = p.val := by
      have h := hcarries.val_eq
      rw [if_pos hw] at h
      exact String.ofList_injective (Option.some.inj h)
    have hne : val ≠ [] := by
      rw [Parts.last, if_pos hw] at hlast
      rwa [hlast']
    obtain ⟨hend, hle⟩ := intScan_of_ne_nil hval hne
    have hpos := List.length_pos_iff.2 hne
    have hle₃ := le_intScan (g.text w k p) (intScan (g.text w k p)
      (intScan (g.text w k p) (intScan (g.text w k p) 0 + 1) + 1) + 1)
    rw [hfields] at hstart
    obtain ⟨-, hstart⟩ := startsAt_of_lt hstart (by omega) htype
    obtain ⟨-, hstart⟩ := startsAt_of_lt hstart (by omega) htyp
    obtain ⟨-, hstart⟩ := startsAt_of_lt hstart (by omega) hkey
    obtain ⟨-, hstart⟩ := startsAt_of_lt hstart (by omega) hattr
    exact length_le_of_last (hlast' ▸ hstart) hval hne
  · rename_i hcmd
    simp only [built_bind_eq_ok] at hm
    obtain ⟨_, -, hm⟩ := hm
    obtain ⟨rfl, -⟩ := Prod.mk.inj (Except.ok.inj hm)
    have hw : ¬ w.carries = true := mt w.carries_iff.1 (hcarries.cmd_eq ▸ hcmd)
    have hfields : g.fields w k p = [g.word w, g.kind k, p.key] := by
      simp [fields, hw]
    have hlast' : key = p.key :=
      String.ofList_injective (Option.some.inj hcarries.key_eq)
    have hne : key ≠ [] := by
      rw [Parts.last, if_neg hw] at hlast
      rwa [hlast']
    obtain ⟨hend, hle⟩ := intScan_of_ne_nil hkey hne
    have hpos := List.length_pos_iff.2 hne
    rw [hfields] at hstart
    obtain ⟨-, hstart⟩ := startsAt_of_lt hstart (by omega) htype
    obtain ⟨-, hstart⟩ := startsAt_of_lt hstart (by omega) htyp
    exact length_le_of_last (hlast' ▸ hstart) hkey hne

theorem carries_of_isMessage {txid : Int} {m : ESMsg} (h : IsMessage w txid (g.fields w k p) m) :
    Carries w txid p m ∧ stoi (g.kind k) = some m.type := by
  refine ⟨⟨h.cmd_eq, h.txid_eq, h.key_eq.trans ?_, h.attr_eq.trans ?_, h.val_eq.trans ?_⟩,
    h.type_eq⟩ <;> cases w <;> rfl

theorem exists_message (hg : g.Blankless w) (hp : p.Blankless) {txid : Int}
    (hfits : g.Fits w k p txid) (hword : cStr (g.word w) = w.literal) {n : Int}
    (htype : stoi (g.kind k) = some n) (c : Cmd) :
    ∃ m, intStatement c txid (g.text w k p) =
        .ok (m, messageSize w txid (g.fields w k p)) ∧ Carries w txid p m ∧ m.type = n := by
  rw [intStatement_text hg hp hfits.length_le]
  have htypes : ∀ typ ∈ (g.fields w k p).tail[0]?, ∃ n, stoi typ = some n := by
    intro typ htyp
    obtain rfl : g.kind k = typ := Option.some.inj htyp
    exact ⟨n, htype⟩
  have hfull : decide ((g.text w k p).length = maxInt) = true →
      w.advances < (g.fields w k p).length := by
    intro hfull
    have hw := hfits.carries (of_decide_eq_true hfull)
    simp [length_fields, Word.advances, Word.required, hw]
  obtain ⟨m, hm, hmsg⟩ : ∃ m, readFields _ c txid (g.fields w k p) =
      .ok (m, messageSize w txid (g.fields w k p)) ∧ IsMessage w txid (g.fields w k p) m :=
    readFields_enough ((command_eq_iff w _).2 hword c) htypes (length_fields k).ge hfull
      (Nat.le_of_lt hfits.size_lt)
  obtain ⟨hcarries, htyp⟩ := carries_of_isMessage hmsg
  exact ⟨m, hm, hcarries, Option.some.inj (htyp.symm.trans htype)⟩

/-- What a statement has that is sent with all its parts. -/
theorem fits_of_carries (hg : g.Blankless w) (hp : p.Blankless)
    (hlen : p.last w = [] → (g.text w k p).length ≤ maxInt) {c : Cmd} {txid : Int} {m : ESMsg}
    {size : Nat} (hm : intStatement c txid (g.text w k p) = .ok (m, size)) (hsize : size ≤ maxInt)
    (hcarries : Carries w txid p m) :
    m.cmd = command c (g.word w) ∧ stoi (g.kind k) = some m.type ∧ g.Fits w k p txid := by
  have hle : (g.text w k p).length ≤ maxInt := by
    by_cases hlast : p.last w = []
    · exact hlen hlast
    · exact length_le_of_carries hg hp hlast hm hcarries
  rw [intStatement_text hg hp hle] at hm
  obtain ⟨hcmd, htype, hrest⟩ : _ ∧ _ ∧ (m.cmd = w.cmd → _) := readFields_ok hm
  obtain ⟨-, hfull, rfl, -⟩ := hrest hcarries.cmd_eq
  refine ⟨hcmd, htype, hle, fun hmax => ?_, Nat.lt_succ_of_le hsize⟩
  have hlt : w.advances < (g.fields w k p).length := hfull (decide_eq_true hmax)
  rw [length_fields] at hlt
  cases w <;> first | rfl | exact absurd hlt (by decide)

end Grammar

/-- The statements are accepted if and only if the word is spelled as the parser spells it, the
types are two numbers, and the statements and their messages are small enough. -/
theorem accepted_iff (g : Grammar) (w : Word) (p : Parts) (a : App C) (hg : g.Blankless w)
    (hp : p.Blankless) (hlen : p.last w = [] → ∀ k, (g.text w k p).length ≤ maxInt)
    (hconn : a.connList ≠ []) :
    Accepted g w p a ↔ cStr (g.word w) = w.literal ∧
      (∃ n e, stoi (g.kind .node) = some n ∧ stoi (g.kind .edge) = some e ∧ n ≠ e) ∧
      ∀ k, g.Fits w k p a.txid := by
  constructor
  · intro h
    have hread : ∀ c k conn m, intAdd c (g.text w k p) a = .ok (conn, m) → Carries w a.txid p m →
        m.cmd = command c (g.word w) ∧ stoi (g.kind k) = some m.type ∧ g.Fits w k p a.txid := by
      intro c k conn m hm hcarries
      obtain ⟨size, hsize, hstatement⟩ := intStatement_of_intAdd hm
      exact Grammar.fits_of_carries hg hp (fun hlast => hlen hlast k) hstatement hsize hcarries
    obtain ⟨conn, node, edge, -, hnode, hncarries, hedge, hecarries, hne⟩ := h kAdd
    obtain ⟨-, hn, hnfits⟩ := hread kAdd .node conn node hnode hncarries
    obtain ⟨-, he, hefits⟩ := hread kAdd .edge conn edge hedge hecarries
    refine ⟨(command_eq_iff w _).1 fun c => ?_, ⟨_, _, hn, he, hne⟩, fun k => ?_⟩
    · obtain ⟨conn, node, edge, -, hnode, hcarries, -⟩ := h c
      rw [← (hread c .node conn node hnode hcarries).1, hcarries.cmd_eq]
    · cases k with
      | node => exact hnfits
      | edge => exact hefits
  · rintro ⟨hword, ⟨n, e, hn, he, hne⟩, hfits⟩ c
    obtain ⟨node, hnode, hncarries, rfl⟩ := Grammar.exists_message hg hp (hfits .node) hword hn c
    obtain ⟨edge, hedge, hecarries, rfl⟩ := Grammar.exists_message hg hp (hfits .edge) hword he c
    have hhead := List.head?_eq_some_head hconn
    exact ⟨_, node, edge, hhead,
      intAdd_ok hnode hhead (Nat.le_of_lt_succ (hfits .node).size_lt), hncarries,
      intAdd_ok hedge hhead (Nat.le_of_lt_succ (hfits .edge).size_lt), hecarries, hne⟩

theorem accepted_numbered :
    Accepted numbered .change ⟨['k'], ['a'], ['v']⟩ connected := by
  have hg : numbered.Blankless .change := ⟨by decide, fun k => by cases k <;> decide⟩
  have hfits : ∀ k, numbered.Fits .change k ⟨['k'], ['a'], ['v']⟩ connected.txid := by
    intro k
    cases k with
    | node => exact ⟨by decide, fun _ => rfl, by decide⟩
    | edge => exact ⟨by decide, fun _ => rfl, by decide⟩
  exact (accepted_iff numbered .change _ connected hg ⟨by decide, by decide, by decide⟩
    (fun h => absurd h (by decide)) (by decide)).2
      ⟨by decide, ⟨0, 1, by decide, by decide, by decide⟩, hfits⟩

theorem blankless_documented (w : Word) : documented.Blankless w := by
  constructor
  · cases w <;> decide
  · intro k
    cases k <;> decide

/-- No beginning of a documented type is a number. -/
theorem stoi_take_kind (k : Kind) (n : Nat) : stoi ((documented.kind k).take n) = none := by
  match n with
  | 0 | 1 | 2 | 3 => cases k <;> decide
  | n + 4 =>
      have hlength : (documented.kind k).length ≤ n + 4 := by cases k <;> simp [documented]
      rw [List.take_of_length_le hlength]
      cases k <;> decide

theorem pos_le_of_startsAt {str f : List Char} {pos : Nat} {fs : List (List Char)}
    (h : StartsAt str pos (f :: fs)) : pos ≤ str.length := by
  rcases h with ⟨hpos, -⟩ | ⟨-, hfs⟩
  · exact hpos
  · cases hfs

/-- The second field that is read is a beginning of the type, or empty if the length is not
greater than that of the command word. -/
theorem intField_documented (w : Word) (k : Kind) {p : Parts} (hp : p.Blankless) :
    intScan (documented.text w k p) 0 ≤ 6 ∧
      ∃ s pos, intField (documented.text w k p) (intScan (documented.text w k p) 0 + 1) =
        .ok (s, pos) ∧ stoi s = none := by
  have hstart := Grammar.startsAt_text (blankless_documented w) hp k
  generalize documented.text w k p = str at hstart ⊢
  have hlen := (intLength_le str).1
  have hle : intScan str 0 ≤ scan str 0 := intScanLoop_le hlen _ _
  obtain ⟨hword, hnext⟩ := startsAt_cons hstart
  have hpos := pos_le_of_startsAt hnext
  have hsix : scan str 0 ≤ 6 := by
    have hlength := congrArg List.length (Option.some.inj hword)
    have hshort : (documented.word w).length ≤ 6 := by cases w <;> decide
    rw [List.length_take, List.length_drop] at hlength
    omega
  refine ⟨hle.trans hsix, (str.drop (intScan str 0 + 1)).take
    (intScan str (intScan str 0 + 1) - (intScan str 0 + 1)),
    intScan str (intScan str 0 + 1), ?_, ?_⟩
  · rw [intField, substr, if_pos (by omega)]
    rfl
  · by_cases hlt : intScan str 0 < intLength str
    · have hscan : intScan str 0 = scan str 0 := intScanLoop_stops hlen str.length 0 hlt
      obtain ⟨hkind, -⟩ := startsAt_cons hnext
      have hle' : intScan str (scan str 0 + 1) ≤ scan str (scan str 0 + 1) :=
        intScanLoop_le hlen _ _
      rw [substr, if_pos hpos] at hkind
      rw [hscan, ← Nat.min_eq_left (Nat.sub_le_sub_right hle' (scan str 0 + 1)), ← List.take_take,
        Option.some.inj hkind]
      exact stoi_take_kind k _
    · rcases intScanLoop_bounds str (intLength str) str.length (intScan str 0 + 1) with
        heq | hbounds
      · have hstay : intScan str (intScan str 0 + 1) = intScan str 0 + 1 := heq
        rw [hstay, Nat.sub_self, List.take_zero]
        decide
      · omega

/-- Every documented statement ends with an exception, as its type is not a number. -/
theorem intAdd_documented (w : Word) (k : Kind) (p : Parts) (c : Cmd) (a : App C)
    (hp : p.Blankless) : intAdd c (documented.text w k p) a = .error .thrown := by
  obtain ⟨hle, s, pos, hfield, hnone⟩ := intField_documented w k hp
  have hne : intScan (documented.text w k p) 0 ≠ maxInt := by
    unfold maxInt
    omega
  have hfirst : intField (documented.text w k p) 0 = .ok ((documented.text w k p).take
      (intScan (documented.text w k p) 0), intScan (documented.text w k p) 0) := rfl
  apply intAdd_error
  simp [intStatement, hfirst, hfield, hnone, orThrow, increment, hne]

theorem not_accepted_documented :
    ¬ Accepted documented .add ⟨['k'], ['a'], ['v']⟩ connected := by
  intro h
  obtain ⟨conn, node, edge, -, hnode, -⟩ := h kAdd
  rw [intAdd_documented .add .node _ kAdd connected ⟨by decide, by decide, by decide⟩] at hnode
  cases hnode

end App

end Grit
