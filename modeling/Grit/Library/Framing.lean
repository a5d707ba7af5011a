import Mathlib.Data.List.Basic
import Mathlib.Data.List.Forall2

/-!
# Messages and records in a stream

A codec finishes a message into a list of bytes and reads one message from the beginning of the
bytes it is given. A receiver that reads one message from each chunk of a stream gets the messages
sent if and only if the chunks are the finished messages.

A record is a list of fields, and its text is each field followed by the delimiter of its place.
The delimiters are not escaped. A record is plain if no field contains its own delimiter. A reader
that ends each field at the first such delimiter gives plain records back, and whatever it is
given, it reads plain records only. So the plain records are a largest set of records that can be
told apart by their text.
-/

/-! ### Messages on a byte stream -/

namespace Framing

/-- A serialisation of the messages that are `Valid`: `root` reads the message at the
beginning of a buffer, and reads nothing unless all bytes of a finished message are there. -/
structure Codec (M B : Type*) where
  Valid : M → Prop
  finish : M → List B
  root : List B → Option M
  root_finish : ∀ m, Valid m → ∀ rest, root (finish m ++ rest) = some m
  finish_of_root : ∀ bs m, root bs = some m → finish m <+: bs

variable {M B : Type*}

theorem length_flatten_le {l₁ l₂ : List (List B)} (h : List.Forall₂ (· <+: ·) l₁ l₂) :
    l₁.flatten.length ≤ l₂.flatten.length := by
  induction h with
  | nil => exact Nat.le_refl _
  | cons hab _ ih =>
      rw [List.flatten_cons, List.flatten_cons, List.length_append, List.length_append]
      exact Nat.add_le_add hab.length_le ih

/-- Two ways to cut the same stream are equal if the parts of the one are prefixes of
the parts of the other. -/
theorem eq_of_prefixes {l₁ l₂ : List (List B)} (h : List.Forall₂ (· <+: ·) l₁ l₂)
    (hflat : l₁.flatten = l₂.flatten) : l₁ = l₂ := by
  induction h with
  | nil => rfl
  | cons hab hrest ih =>
      rw [List.flatten_cons, List.flatten_cons] at hflat
      have hlen := congrArg List.length hflat
      rw [List.length_append, List.length_append] at hlen
      have hle := length_flatten_le hrest
      have heq := hab.eq_of_length_le (by omega)
      subst heq
      rw [ih (List.append_cancel_left hflat)]

/-- Reading one message from each chunk. -/
theorem Codec.map_root_iff (c : Codec M B) {msgs : List M} {chunks : List (List B)}
    (hvalid : ∀ m ∈ msgs, c.Valid m)
    (hstream : chunks.flatten = (msgs.map c.finish).flatten) :
    chunks.map c.root = msgs.map some ↔ chunks = msgs.map c.finish := by
  constructor
  · intro h
    have hprefix : List.Forall₂ (· <+: ·) (msgs.map c.finish) chunks := by
      have hall : List.Forall₂ (fun a b => a = b) (msgs.map some) (chunks.map c.root) := by
        rw [h, List.forall₂_eq_eq_eq]
      rw [List.forall₂_map_left_iff, List.forall₂_map_right_iff] at hall
      rw [List.forall₂_map_left_iff]
      exact hall.imp fun m bs hm => c.finish_of_root bs m hm.symm
    exact (eq_of_prefixes hprefix hstream.symm).symm
  · intro h
    rw [h, List.map_map]
    apply List.map_congr_left
    intro m hm
    have hroot := c.root_finish m (hvalid m hm) []
    rwa [List.append_nil] at hroot

end Framing

/-! ### Records with delimiters -/

namespace Delimited

variable {α : Type*}

def encodeRecord (ds : List α) (r : List (List α)) : List α :=
  (r.zip ds).flatMap fun f => f.1 ++ [f.2]

def encode (ds : List α) (rs : List (List (List α))) : List α := rs.flatMap (encodeRecord ds)

/-- A record has a field for each delimiter, which the field does not contain. -/
def Plain (ds : List α) (r : List (List α)) : Prop := List.Forall₂ (fun w d => d ∉ w) r ds

/-- The records of `P` can be told apart. -/
def Unambiguous (ds : List α) (P : List (List α) → Prop) : Prop :=
  ∀ rs rs', (∀ r ∈ rs, P r) → (∀ r ∈ rs', P r) → encode ds rs = encode ds rs' → rs = rs'

theorem encodeRecord_nil (ds : List α) : encodeRecord ds [] = [] := rfl

theorem encodeRecord_cons (d : α) (ds : List α) (w : List α) (r : List (List α)) :
    encodeRecord (d :: ds) (w :: r) = w ++ d :: encodeRecord ds r := by
  simp [encodeRecord]

theorem encode_append (ds : List α) (rs rs' : List (List (List α))) :
    encode ds (rs ++ rs') = encode ds rs ++ encode ds rs' := List.flatMap_append

theorem encode_cons (ds : List α) (r : List (List α)) (rs : List (List (List α))) :
    encode ds (r :: rs) = encodeRecord ds r ++ encode ds rs := rfl

/-- The record of empty fields. -/
def blank (ds : List α) : List (List α) := ds.map fun _ => []

theorem plain_blank (ds : List α) : Plain ds (blank ds) := by
  induction ds with
  | nil => exact .nil
  | cons d ds ih => exact .cons (by simp) ih

theorem encodeRecord_blank (ds : List α) : encodeRecord ds (blank ds) = ds := by
  induction ds with
  | nil => rfl
  | cons d ds ih => exact (encodeRecord_cons d ds [] (blank ds)).trans (congrArg (d :: ·) ih)

theorem plain_concat {used : List α} {r : List (List α)} (hr : Plain used r) {d : α} {w : List α}
    (hw : d ∉ w) : Plain (used ++ [d]) (r ++ [w]) :=
  List.rel_append hr (.cons hw .nil)

/-- A further field; the delimiters `due` are still to come. -/
theorem encodeRecord_concat {used : List α} {r : List (List α)} (hr : Plain used r) (d : α)
    (due w : List α) :
    encodeRecord (used ++ d :: due) (r ++ [w]) =
      encodeRecord (used ++ d :: due) r ++ w ++ [d] := by
  have hlength := hr.length_eq
  have hone : r.zip (used ++ d :: due) = r.zip used := by
    have hsplit : (r ++ []).zip (used ++ d :: due) = r.zip used ++ ([] : List (List α)).zip _ :=
      List.zip_append hlength
    rwa [List.append_nil, List.zip_nil_left, List.append_nil] at hsplit
  rw [encodeRecord, encodeRecord, hone, List.zip_append hlength]
  simp

/-! ### The reader -/

/-- What was read: whole records, the fields and the word of an unfinished one, and the
delimiters that are due in it. -/
structure Reader (α : Type*) where
  records : List (List (List α))
  fields : List (List α)
  word : List α
  due : List α

variable [DecidableEq α] (ds : List α)

/-- The next symbol; `due` is not empty. -/
def read (s : Reader α) (c : α) : Reader α :=
  match s.due with
  | [] => s
  | [d] =>
      if c = d then ⟨s.records ++ [s.fields ++ [s.word]], [], [], ds⟩
      else { s with word := s.word ++ [c] }
  | d :: due =>
      if c = d then ⟨s.records, s.fields ++ [s.word], [], due⟩
      else { s with word := s.word ++ [c] }

def start : Reader α := ⟨[], [], [], ds⟩

def decode (s : List α) : List (List (List α)) := (s.foldl (read ds) (start ds)).records

variable {ds}

theorem read_last {s : Reader α} {d : α} (hdue : s.due = [d]) :
    read ds s d = ⟨s.records ++ [s.fields ++ [s.word]], [], [], ds⟩ := by
  simp [read, hdue]

theorem read_next {s : Reader α} {d d' : α} {due : List α} (hdue : s.due = d :: d' :: due) :
    read ds s d = ⟨s.records, s.fields ++ [s.word], [], d' :: due⟩ := by
  simp [read, hdue]

theorem read_of_ne {s : Reader α} {c d : α} {due : List α} (hdue : s.due = d :: due)
    (hc : c ≠ d) : read ds s c = { s with word := s.word ++ [c] } := by
  unfold read
  split
  · rename_i hnil
    simp [hnil] at hdue
  · rename_i d' hsingle
    obtain ⟨rfl, rfl⟩ := List.cons.inj (hsingle.symm.trans hdue)
    rw [if_neg hc]
  · rename_i d' due' _ hcons
    obtain ⟨rfl, rfl⟩ := List.cons.inj (hcons.symm.trans hdue)
    rw [if_neg hc]

/-- A word without the delimiter is read as a part of the field. -/
theorem foldl_read_word {s : Reader α} {d : α} {due w : List α} (hdue : s.due = d :: due)
    (hw : d ∉ w) : w.foldl (read ds) s = { s with word := s.word ++ w } := by
  induction w generalizing s with
  | nil => simp
  | cons c w ih =>
      have hc : c ≠ d := fun h => hw (h ▸ List.mem_cons_self)
      have hrest : d ∉ w := fun h => hw (List.mem_cons_of_mem _ h)
      have hread := ih (s := { s with word := s.word ++ [c] }) hdue hrest
      rw [List.foldl_cons, read_of_ne hdue hc, hread]
      simp

/-- The fields of a plain record, from the first delimiter that is due. -/
theorem foldl_read_fields {due : List α} (hdue : due ≠ []) {r : List (List α)}
    (hr : Plain due r) (records : List (List (List α))) (fields : List (List α)) :
    (encodeRecord due r).foldl (read ds) ⟨records, fields, [], due⟩ =
      ⟨records ++ [fields ++ r], [], [], ds⟩ := by
  induction hr generalizing fields with
  | nil => exact absurd rfl hdue
  | @cons w d r due hw hr ih =>
      rw [encodeRecord_cons, List.foldl_append, foldl_read_word rfl hw, List.foldl_cons]
      cases hr with
      | nil => simp [read, encodeRecord]
      | cons hw' hr' =>
          have hread := ih (by simp) (fields ++ [w])
          rw [List.append_assoc, List.singleton_append] at hread
          simpa [read] using hread

/-- Plain records are read back. -/
theorem decode_encode (hds : ds ≠ []) {rs : List (List (List α))} (h : ∀ r ∈ rs, Plain ds r) :
    decode ds (encode ds rs) = rs := by
  have hread : ∀ records, (encode ds rs).foldl (read ds) ⟨records, [], [], ds⟩ =
      ⟨records ++ rs, [], [], ds⟩ := by
    induction rs with
    | nil => simp [encode]
    | cons r rs ih =>
        intro records
        rw [encode_cons, List.foldl_append, foldl_read_fields hds (h r List.mem_cons_self),
          ih fun r' hr' => h r' (List.mem_cons_of_mem _ hr')]
        simp
  rw [decode, start, hread []]
  rfl

theorem encode_inj (hds : ds ≠ []) : Unambiguous ds (Plain ds) := by
  intro rs rs' hrs hrs' heq
  rw [← decode_encode hds hrs, heq, decode_encode hds hrs']

/-! ### What the reader reads -/

/-- The text that was read. -/
def Reader.text (ds : List α) (s : Reader α) : List α :=
  encode ds s.records ++ (encodeRecord ds s.fields ++ s.word)

/-- Everything that was read is plain. -/
structure Reader.Valid (ds : List α) (s : Reader α) : Prop where
  records : ∀ r ∈ s.records, Plain ds r
  fields : ∃ used, ds = used ++ s.due ∧ Plain used s.fields
  word : ∃ d due, s.due = d :: due ∧ d ∉ s.word

theorem read_valid {s : Reader α} (h : s.Valid ds) (c : α) :
    (read ds s c).Valid ds ∧ (read ds s c).text ds = s.text ds ++ [c] := by
  obtain ⟨used, hds, hfields⟩ := h.fields
  obtain ⟨d, due, hdue, hword⟩ := h.word
  by_cases hc : c = d
  · subst hc
    rw [hdue] at hds
    have hconcat := plain_concat hfields hword
    have htext : ∀ due', used ++ c :: due' = ds →
        encodeRecord ds (s.fields ++ [s.word]) = encodeRecord ds s.fields ++ s.word ++ [c] := by
      rintro due' rfl
      exact encodeRecord_concat hfields c due' s.word
    cases due with
    | nil =>
        rw [read_last hdue]
        refine ⟨⟨?_, ⟨[], rfl, .nil⟩, ?_⟩, ?_⟩
        · intro r hr
          rcases List.mem_append.1 hr with hr | hr
          · exact h.records r hr
          · rw [List.mem_singleton.1 hr, hds]
            exact hconcat
        · obtain ⟨d, rest, hcons⟩ := List.exists_cons_of_ne_nil (l := ds) (by simp [hds])
          exact ⟨d, rest, hcons, List.not_mem_nil⟩
        · have hlast : encode ds [s.fields ++ [s.word]] = encodeRecord ds (s.fields ++ [s.word]) :=
            List.append_nil _
          simp [Reader.text, encode_append, hlast, htext [] hds.symm, encodeRecord_nil]
    | cons d' due =>
        rw [read_next hdue]
        refine ⟨⟨h.records, ⟨used ++ [c], ?_, hconcat⟩, d', due, rfl, List.not_mem_nil⟩, ?_⟩
        · rw [hds, List.append_assoc, List.singleton_append]
        · simp [Reader.text, htext _ hds.symm]
  · rw [read_of_ne hdue hc]
    refine ⟨⟨h.records, h.fields, d, due, hdue, ?_⟩, by simp [Reader.text]⟩
    simp [hword, Ne.symm hc]

theorem foldl_read_valid {s : Reader α} (h : s.Valid ds) (l : List α) :
    (l.foldl (read ds) s).Valid ds ∧ (l.foldl (read ds) s).text ds = s.text ds ++ l := by
  induction l generalizing s with
  | nil => exact ⟨h, (List.append_nil _).symm⟩
  | cons c l ih =>
      obtain ⟨hvalid, htext⟩ := read_valid h c
      obtain ⟨hvalid', htext'⟩ := ih hvalid
      refine ⟨hvalid', ?_⟩
      rw [List.foldl_cons, htext', htext, List.append_assoc, List.singleton_append]

/-- The delimiters that are due end the record. -/
theorem foldl_read_due {due : List α} (hdue : due ≠ []) (records : List (List (List α)))
    (fields : List (List α)) (word : List α) :
    ∃ records', due.foldl (read ds) ⟨records, fields, word, due⟩ = ⟨records', [], [], ds⟩ := by
  induction due generalizing fields word with
  | nil => exact absurd rfl hdue
  | cons d due ih =>
      cases due with
      | nil =>
          refine ⟨records ++ [fields ++ [word]], ?_⟩
          rw [List.foldl_cons, List.foldl_nil, read_last rfl]
      | cons d' due =>
          obtain ⟨records', hread⟩ := ih (by simp) (fields ++ [word]) []
          refine ⟨records', ?_⟩
          rw [← hread, List.foldl_cons, read_next rfl]

/-- With different delimiters, every text that ends with all of them is one of plain records. -/
theorem exists_plain (hds : ds ≠ []) (hnodup : ds.Nodup) (l : List α) :
    ∃ rs, (∀ r ∈ rs, Plain ds r) ∧ encode ds rs = l ++ ds := by
  obtain ⟨d, rest, hcons⟩ := List.exists_cons_of_ne_nil hds
  have hstart : (start ds).Valid ds :=
    ⟨by simp [start], ⟨[], rfl, .nil⟩, d, rest, hcons, by simp [start]⟩
  obtain ⟨hvalid, htext⟩ := foldl_read_valid hstart l
  generalize l.foldl (read ds) (start ds) = s at hvalid htext
  obtain ⟨hvalid', htext'⟩ := foldl_read_valid hvalid ds
  obtain ⟨used, hused, -⟩ := hvalid.fields
  obtain ⟨d, due, hdue, -⟩ := hvalid.word
  -- what is before `due` is a part of the word
  have hclose : ∃ records, ds.foldl (read ds) s = ⟨records, [], [], ds⟩ := by
    have hnot : d ∉ used := by
      intro hmem
      rw [hused, hdue] at hnodup
      exact (List.nodup_append.1 hnodup).2.2 d hmem d List.mem_cons_self rfl
    have hne : s.due ≠ [] := by simp [hdue]
    obtain ⟨records, hread⟩ : ∃ records, s.due.foldl (read ds)
        ⟨s.records, s.fields, s.word ++ used, s.due⟩ = ⟨records, [], [], ds⟩ :=
      foldl_read_due hne s.records s.fields (s.word ++ used)
    refine ⟨records, ?_⟩
    have hsplit : ds.foldl (read ds) s = (used ++ s.due).foldl (read ds) s :=
      congrArg (fun l => l.foldl (read ds) s) hused
    rw [hsplit, List.foldl_append, foldl_read_word hdue hnot]
    exact hread
  obtain ⟨records, hclose⟩ := hclose
  rw [hclose] at hvalid' htext'
  refine ⟨records, hvalid'.records, ?_⟩
  have hstart : (start ds).text ds = [] := rfl
  rw [htext, hstart] at htext'
  simpa [Reader.text, encodeRecord_nil] using htext'

/-- The plain records are a largest set of records that can be told apart. -/
theorem unambiguous_iff (hds : ds ≠ []) (hnodup : ds.Nodup) {P : List (List α) → Prop}
    (hP : ∀ r, Plain ds r → P r) : Unambiguous ds P ↔ ∀ r, P r → Plain ds r := by
  constructor
  · intro h r hr
    obtain ⟨rs, hplain, htext⟩ := exists_plain hds hnodup (encodeRecord ds r)
    have heq : rs = [r, blank ds] := by
      refine h rs [r, blank ds] (fun r' hr' => hP r' (hplain r' hr')) ?_ ?_
      · intro r' hr'
        rcases List.mem_cons.1 hr' with rfl | hr'
        · exact hr
        · exact List.mem_singleton.1 hr' ▸ hP _ (plain_blank ds)
      · rw [htext, encode_cons, encode_cons, encodeRecord_blank]
        simp [encode]
    exact hplain r (heq ▸ List.mem_cons_self)
  · intro h rs rs' hrs hrs'
    exact encode_inj hds rs rs' (fun r hr => h r (hrs r hr)) (fun r hr => h r (hrs' r hr))

end Delimited
