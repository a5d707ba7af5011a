import Mathlib.Algebra.Group.Int.Defs
import Mathlib.Data.List.TakeWhile
import Grit.App.Basic
import Grit.Gtm.Basic

/-!
# The transaction configuration

`GTM::init` reads the file of transaction types word by word: a type, and the list of its
participants as `ip:port;ip:port;...;`. The list is cut with three positions of type `size_t`:
`st` is the start of a segment, `ed` the character that is looked at, and `pos` the last colon,
which is `-1` at first. Positions are below `2 ^ 64`, so only a negative difference wraps around.
An uncaught exception of `stoi` or `substr` ends the process, which is `none` here.

The address of a segment is cut one character too long: it has the colon at its end.
-/

namespace Grit

namespace Gtm

open App

/-- A length or position of type `size_t`. -/
def sizeT (n : Int) : Nat := if 0 ≤ n then n.toNat else (n + 2 ^ 64).toNat

/-- The loop over the characters of `info`; the next one is at position `ed`. -/
def scanInfo (info : List Char) : List Char → Int → Int → Int → Option (List IpAndPort)
  | [], _, _, _ => some []
  | c :: rest, ed, st, pos =>
      if c = ':' then scanInfo info rest (ed + 1) st ed
      else if c = ';' ∧ ed > st then do
        let ip ← substr info (sizeT st) (sizeT (pos - st + 1))
        let port ← substr info (sizeT (pos + 1)) (sizeT (ed - pos - 1))
        let port ← stoi port
        let list ← scanInfo info rest (ed + 1) (ed + 1) pos
        return ⟨String.ofList ip, port⟩ :: list
      else scanInfo info rest (ed + 1) st pos

def readInfo (info : List Char) : Option (List IpAndPort) := scanInfo info info 0 0 (-1)

/-- `fin >> word`: the next word and what follows it; `none` at the end of the file. -/
def nextWord (s : List Char) : Option (List Char × List Char) :=
  let s := s.dropWhile isSpace
  if s = [] then none
  else some (s.takeWhile fun c => !isSpace c, s.dropWhile fun c => !isSpace c)

/-- The loop of `init`, which makes fewer steps than the file has characters. At the end of the
file `fin >> info` leaves `info` as it was. -/
def initLoop : Nat → List Char → List Char → (String → List IpAndPort) →
    Option (String → List IpAndPort)
  | 0, _, _, transInfo => some transInfo
  | fuel + 1, s, info, transInfo =>
      match nextWord s with
      | none => some transInfo
      | some (type, s) =>
          let next := (nextWord s).getD (info, [])
          (readInfo next.1).bind fun list =>
            initLoop fuel next.2 next.1 (Function.update transInfo (String.ofList type)
              (transInfo (String.ofList type) ++ list))

/-- `GTM::init` on a file with the given characters. -/
def initTransInfo (file : List Char) : Option (String → List IpAndPort) :=
  initLoop (file.length + 1) file [] fun _ => []

/-- A transaction type with its participants. -/
structure Entry where
  type : String
  list : List IpAndPort
deriving DecidableEq, Repr

/-- A participant as it is printed, `ip:port;`. -/
def segment (a : IpAndPort) : List Char :=
  a.ip.toList ++ ':' :: (Nat.toDigits 10 a.port.toNat ++ [';'])

/-- The file with a line for each entry. -/
def print (cfg : List Entry) : List Char :=
  cfg.flatMap fun e => e.type.toList ++ ' ' :: (e.list.flatMap segment ++ ['\n'])

/-- The participants of each type; those of a repeated type are concatenated. -/
def configured (cfg : List Entry) (type : String) : List IpAndPort :=
  cfg.flatMap fun e => if e.type = type then e.list else []

structure Entry.WellFormed (e : Entry) : Prop where
  type : ∀ c ∈ e.type.toList, isSpace c = false
  list : e.list ≠ []
  ip : ∀ a ∈ e.list, a.ip ≠ "" ∧ ∀ c ∈ a.ip.toList, isSpace c = false ∧ c ≠ ':' ∧ c ≠ ';'
  port : ∀ a ∈ e.list, 0 ≤ a.port ∧ a.port ≤ 2147483647

/-- The file is read as what was printed. -/
def RoundTrip (cfg : List Entry) : Prop := initTransInfo (print cfg) = some (configured cfg)

/-! ### Ports -/

theorem ne_of_isDigit {c d : Char} (hc : c.isDigit = true) (hd : d.isDigit = false) : c ≠ d := by
  rintro rfl
  exact absurd hc (by simp [hd])

theorem isSpace_of_isDigit {c : Char} (h : c.isDigit = true) : isSpace c = false := by
  have hne : c ∉ [' ', '\t', '\n', '\x0b', '\x0c', '\r'] := by
    intro hmem
    have hall : [' ', '\t', '\n', '\x0b', '\x0c', '\r'].all (!Char.isDigit ·) = true := by decide
    have hno : c.isDigit = false := by simpa using List.all_eq_true.1 hall c hmem
    simp [hno] at h
  exact decide_eq_false hne

theorem digits_eq (l : List Char) : digits l = (Nat.ofDigitChars 10 l 0 : Nat) := by
  have hfold : ∀ n : Nat, l.foldl (fun (n : Int) c => 10 * n + (c.toNat - '0'.toNat : Nat)) n =
      (Nat.ofDigitChars 10 l n : Nat) := by
    induction l with
    | nil => exact fun _ => rfl
    | cons c l ih =>
        intro n
        rw [List.foldl_cons, Nat.ofDigitChars_cons]
        exact_mod_cast ih (10 * n + (c.toNat - '0'.toNat))
  exact hfold 0

theorem stoi_toDigits {n : Nat} (h : n ≤ 2147483647) :
    stoi (Nat.toDigits 10 n) = some (n : Int) := by
  have hdigit : ∀ c ∈ Nat.toDigits 10 n, c.isDigit = true := fun c hc =>
    Nat.isDigit_of_mem_toDigits (by decide) (by decide) hc
  have hne : Nat.toDigits 10 n ≠ [] := List.ne_nil_of_length_pos Nat.length_toDigits_pos
  have hdrop : (Nat.toDigits 10 n).dropWhile isSpace = Nat.toDigits 10 n := by
    refine List.dropWhile_eq_self_iff.2 fun hpos => ?_
    rw [isSpace_of_isDigit (hdigit _ (List.getElem_mem hpos))]
    simp
  have hsign : sign (Nat.toDigits 10 n) = (1, Nat.toDigits 10 n) := by
    unfold sign
    split
    · rename_i l hl
      exact absurd (hdigit '-' (by simp [hl])) (by decide)
    · rename_i l hl
      exact absurd (hdigit '+' (by simp [hl])) (by decide)
    · rfl
  have htake : (Nat.toDigits 10 n).takeWhile Char.isDigit = Nat.toDigits 10 n :=
    List.takeWhile_eq_self_iff.2 hdigit
  have hvalue : digits (Nat.toDigits 10 n) = n := by
    rw [digits_eq, Nat.ofDigitChars_ten_toDigits]
  simp only [stoi, hdrop, hsign, htake, if_neg hne, hvalue, Int.one_mul]
  rw [if_pos (by omega)]

/-! ### Segments -/

/-- Other characters than the two separators are passed over. -/
theorem scanInfo_append (info : List Char) {w : List Char} (hw : ∀ c ∈ w, c ≠ ':' ∧ c ≠ ';')
    (rest : List Char) (ed st pos : Int) :
    scanInfo info (w ++ rest) ed st pos = scanInfo info rest (ed + w.length) st pos := by
  induction w generalizing ed with
  | nil => simp
  | cons c w ih =>
      obtain ⟨hcolon, hsemicolon⟩ := hw c List.mem_cons_self
      rw [List.cons_append, scanInfo, if_neg hcolon, if_neg (fun h => hsemicolon h.1),
        ih fun c' hc' => hw c' (List.mem_cons_of_mem _ hc')]
      congr 1
      rw [List.length_cons]
      omega

theorem substr_sizeT {info pre w post : List Char} (hinfo : info = pre ++ (w ++ post))
    {st len : Int} (hst : st = pre.length) (hlen : len = w.length) :
    substr info (sizeT st) (sizeT len) = some w := by
  simp [hst, hlen, sizeT, substr, hinfo]

/-- A participant as `init` stores it. -/
def stored (a : IpAndPort) : IpAndPort := ⟨a.ip ++ ":", a.port⟩

/-- The position of the colon is `pos` when the semicolon is reached. -/
theorem scanInfo_segment {a : IpAndPort} (hip : ∀ c ∈ a.ip.toList, c ≠ ':' ∧ c ≠ ';')
    (hport : 0 ≤ a.port ∧ a.port ≤ 2147483647) (pre post : List Char) (pos : Int) :
    scanInfo (pre ++ (segment a ++ post)) (segment a ++ post) pre.length pre.length pos =
      (scanInfo (pre ++ (segment a ++ post)) post (pre ++ segment a).length
        (pre ++ segment a).length (pre.length + a.ip.toList.length)).map (stored a :: ·) := by
  have hdigits : ∀ c ∈ Nat.toDigits 10 a.port.toNat, c ≠ ':' ∧ c ≠ ';' := by
    intro c hc
    have hdigit := Nat.isDigit_of_mem_toDigits (by decide) (by decide) hc
    exact ⟨ne_of_isDigit hdigit (by decide), ne_of_isDigit hdigit (by decide)⟩
  have hstoi : stoi (Nat.toDigits 10 a.port.toNat) = some a.port := by
    rw [stoi_toDigits (by omega), Int.toNat_of_nonneg hport.1]
  generalize hds : Nat.toDigits 10 a.port.toNat = ds at hdigits hstoi
  have hseg : segment a = a.ip.toList ++ ':' :: (ds ++ [';']) := by
    rw [segment, hds]
  have hscan : segment a ++ post = a.ip.toList ++ ':' :: (ds ++ ';' :: post) := by
    simp [hseg]
  have hinfo : pre ++ (segment a ++ post) =
      pre ++ ((a.ip.toList ++ [':']) ++ (ds ++ ';' :: post)) := by
    simp [hseg]
  have hinfo' : pre ++ (segment a ++ post) =
      (pre ++ a.ip.toList ++ [':']) ++ (ds ++ ';' :: post) := by
    simp [hseg]
  have hend : ((pre ++ segment a).length : Int) =
      pre.length + a.ip.toList.length + 1 + ds.length + 1 := by
    simp [hseg]
    omega
  have hip' : ((a.ip.toList ++ [':']).length : Int) = a.ip.toList.length + 1 := by
    simp only [List.length_append, List.length_singleton]
    omega
  have hpre : ((pre ++ a.ip.toList ++ [':']).length : Int) =
      pre.length + a.ip.toList.length + 1 := by
    simp only [List.length_append, List.length_singleton]
    omega
  generalize pre ++ (segment a ++ post) = info at hinfo hinfo'
  rw [hscan, scanInfo_append info hip, scanInfo, if_pos rfl, scanInfo_append info hdigits,
    scanInfo, if_neg (by decide), if_pos ⟨rfl, by omega⟩,
    substr_sizeT hinfo rfl (by omega), substr_sizeT hinfo' (by omega) (by omega), hend]
  have hstored : (⟨String.ofList (a.ip.toList ++ [':']), a.port⟩ : IpAndPort) = stored a := by
    simp [stored]
  simp only [Option.bind_eq_bind, Option.bind_some, hstoi, hstored, Option.map_eq_bind]
  rfl

theorem readInfo_segments {list : List IpAndPort}
    (hip : ∀ a ∈ list, ∀ c ∈ a.ip.toList, c ≠ ':' ∧ c ≠ ';')
    (hport : ∀ a ∈ list, 0 ≤ a.port ∧ a.port ≤ 2147483647) :
    readInfo (list.flatMap segment) = some (list.map stored) := by
  have hscan : ∀ (pre : List Char) (pos : Int),
      scanInfo (pre ++ list.flatMap segment) (list.flatMap segment) pre.length pre.length pos =
        some (list.map stored) := by
    induction list with
    | nil => exact fun _ _ => rfl
    | cons a list ih =>
        intro pre pos
        have hrest := ih (fun a' ha' => hip a' (List.mem_cons_of_mem _ ha'))
          (fun a' ha' => hport a' (List.mem_cons_of_mem _ ha')) (pre ++ segment a)
          (pre.length + a.ip.toList.length)
        rw [List.flatMap_cons, scanInfo_segment (hip a List.mem_cons_self)
          (hport a List.mem_cons_self), ← List.append_assoc, hrest]
        rfl
  exact hscan [] (-1)

/-! ### Words -/

/-- A word without a blank, up to the next one. -/
theorem nextWord_append {w : List Char} (hne : w ≠ []) (hw : ∀ c ∈ w, isSpace c = false) {c : Char}
    (hc : isSpace c = true) (rest : List Char) :
    nextWord (w ++ c :: rest) = some (w, c :: rest) := by
  have hdrop : (w ++ c :: rest).dropWhile isSpace = w ++ c :: rest := by
    obtain ⟨d, w, rfl⟩ := List.exists_cons_of_ne_nil hne
    exact List.dropWhile_cons_of_neg (by simp [hw d List.mem_cons_self])
  have hpos : ∀ d ∈ w, (!isSpace d) = true := fun d hd => by simp [hw d hd]
  have hnil : w ++ c :: rest ≠ [] := by simp
  rw [nextWord, hdrop, if_neg hnil, List.takeWhile_append_of_pos hpos,
    List.dropWhile_append_of_pos hpos]
  simp [hc]

theorem nextWord_cons {c : Char} (hc : isSpace c = true) (s : List Char) :
    nextWord (c :: s) = nextWord s := by
  rw [nextWord, nextWord, List.dropWhile_cons_of_pos hc]

/-- A word has a character. -/
theorem ne_nil_of_nextWord {s w rest : List Char} (h : nextWord s = some (w, rest)) : w ≠ [] := by
  unfold nextWord at h
  dsimp only at h
  split at h
  · simp at h
  · rename_i hne
    obtain ⟨rfl, -⟩ := Prod.mk.inj (Option.some.inj h)
    have hhead := List.head_dropWhile_not isSpace hne
    obtain ⟨c, rest', hcons⟩ := List.exists_cons_of_ne_nil hne
    simp only [hcons, List.head_cons] at hhead
    rw [hcons, List.takeWhile_cons_of_pos (by simp [hhead])]
    simp

/-- No participants are stored for the empty type. -/
theorem initLoop_empty {fuel : Nat} {s info : List Char} {transInfo t : String → List IpAndPort}
    (h : initLoop fuel s info transInfo = some t) : t "" = transInfo "" := by
  induction fuel generalizing s info transInfo with
  | zero =>
      obtain rfl := Option.some.inj h
      rfl
  | succ fuel ih =>
      unfold initLoop at h
      split at h
      · obtain rfl := Option.some.inj h
        rfl
      · rename_i type rest hword
        obtain ⟨list, -, h⟩ := Option.bind_eq_some_iff.1 h
        have hne : "" ≠ String.ofList type := by
          intro heq
          exact ne_nil_of_nextWord hword (by simpa [← String.toList_inj] using heq.symm)
        rw [ih h, Function.update_of_ne hne]

/-! ### The file -/

theorem configured_cons (e : Entry) (cfg : List Entry) (type : String) :
    configured (e :: cfg) type =
      (if e.type = type then e.list else []) ++ configured cfg type := rfl

theorem readInfo_entry {e : Entry} (h : e.WellFormed) :
    readInfo (e.list.flatMap segment) = some (e.list.map stored) :=
  readInfo_segments (fun a ha c hc => ((h.ip a ha).2 c hc).2) h.port

/-- A printed list is one word. -/
theorem word_entry {e : Entry} (h : e.WellFormed) :
    e.list.flatMap segment ≠ [] ∧ ∀ c ∈ e.list.flatMap segment, isSpace c = false := by
  constructor
  · obtain ⟨a, list, hlist⟩ := List.exists_cons_of_ne_nil h.list
    simp [hlist, segment]
  · intro c hc
    obtain ⟨a, ha, hc⟩ := List.mem_flatMap.1 hc
    rcases List.mem_append.1 hc with hc | hc
    · exact ((h.ip a ha).2 c hc).1
    rcases List.mem_cons.1 hc with rfl | hc
    · decide
    rcases List.mem_append.1 hc with hc | hc
    · exact isSpace_of_isDigit (Nat.isDigit_of_mem_toDigits (by decide) (by decide) hc)
    · rw [List.mem_singleton.1 hc]
      decide

theorem initLoop_print {cfg : List Entry} (hwf : ∀ e ∈ cfg, e.WellFormed)
    (htype : ∀ e ∈ cfg, e.type ≠ "") {fuel : Nat} (hfuel : cfg.length < fuel) (info : List Char)
    (transInfo : String → List IpAndPort) :
    initLoop fuel ('\n' :: print cfg) info transInfo =
      some fun type => transInfo type ++ (configured cfg type).map stored := by
  induction cfg generalizing fuel info transInfo with
  | nil =>
      obtain ⟨fuel, rfl⟩ := Nat.exists_eq_succ_of_ne_zero (Nat.ne_of_gt hfuel)
      have hend : nextWord ('\n' :: print []) = none := rfl
      rw [initLoop, hend]
      simp [configured]
  | cons e cfg ih =>
      obtain ⟨fuel, rfl⟩ := Nat.exists_eq_succ_of_ne_zero (Nat.ne_zero_of_lt hfuel)
      have he := hwf e List.mem_cons_self
      obtain ⟨hne, hword⟩ := word_entry he
      have hname : e.type.toList ≠ [] := by simpa using htype e List.mem_cons_self
      have hline : print (e :: cfg) =
          e.type.toList ++ ' ' :: (e.list.flatMap segment ++ '\n' :: print cfg) := by
        simp [print]
      rw [initLoop, hline, nextWord_cons rfl, nextWord_append hname he.type rfl]
      dsimp only
      rw [nextWord_cons rfl, nextWord_append hne hword rfl, Option.getD_some, readInfo_entry he,
        Option.bind_some, String.ofList_toList,
        ih (fun e' he' => hwf e' (List.mem_cons_of_mem _ he'))
          (fun e' he' => htype e' (List.mem_cons_of_mem _ he')) (Nat.lt_of_succ_lt_succ hfuel)]
      refine congrArg some (funext fun type => ?_)
      rw [configured_cons, List.map_append, ← List.append_assoc]
      by_cases heq : e.type = type
      · subst heq
        simp
      · rw [Function.update_of_ne (Ne.symm heq)]
        simp [heq]

theorem length_le_print (cfg : List Entry) : cfg.length ≤ (print cfg).length := by
  induction cfg with
  | nil => exact Nat.zero_le _
  | cons e cfg ih =>
      simp only [print, List.flatMap_cons, List.length_append, List.length_cons] at ih ⊢
      omega

/-- What `init` makes of a file: every address has a colon at its end. -/
theorem initTransInfo_print {cfg : List Entry} (hwf : ∀ e ∈ cfg, e.WellFormed)
    (htype : ∀ e ∈ cfg, e.type ≠ "") :
    initTransInfo (print cfg) = some fun type => (configured cfg type).map stored := by
  have hread := initLoop_print hwf htype (Nat.lt_succ_of_le (length_le_print cfg)) []
    (fun _ => [])
  rw [initLoop, nextWord_cons rfl] at hread
  exact hread

/-- A configuration is read back from its file only if it is empty: every address that is read keeps
its colon. -/
theorem roundTrip_iff {cfg : List Entry} (hwf : ∀ e ∈ cfg, e.WellFormed) :
    RoundTrip cfg ↔ cfg = [] := by
  constructor
  · intro h
    by_contra hne
    by_cases htype : ∀ e ∈ cfg, e.type ≠ ""
    · obtain ⟨e, cfg, rfl⟩ := List.exists_cons_of_ne_nil hne
      rw [RoundTrip, initTransInfo_print hwf htype] at h
      have heq := congrFun (Option.some.inj h) e.type
      obtain ⟨a, list, hlist⟩ := List.exists_cons_of_ne_nil (hwf e List.mem_cons_self).list
      rw [configured_cons, if_pos rfl, hlist] at heq
      have hip : a.ip ++ ":" = a.ip := congrArg IpAndPort.ip (List.cons.inj heq).1
      have hlength := congrArg (fun ip => ip.toList.length) hip
      simp at hlength
    · obtain ⟨e, he, hempty⟩ : ∃ e ∈ cfg, e.type = "" := by simpa using htype
      have hnone : configured cfg "" = [] := initLoop_empty h
      have hlist := List.flatMap_eq_nil_iff.1 hnone e he
      rw [if_pos hempty] at hlist
      exact (hwf e he).list hlist
  · rintro rfl
    rfl

/-- One type with one participant. -/
def single : List Entry := [⟨"t", [⟨"h", 80⟩]⟩]

theorem roundTrip_iff_single : (∀ e ∈ single, e.WellFormed) ∧ ¬ RoundTrip single := by
  have hwf : ∀ e ∈ single, e.WellFormed := by
    intro e he
    rw [List.mem_singleton.1 he]
    refine ⟨?_, by decide, ?_, by decide⟩
    · simp [isSpace]
    · simp [isSpace]
  exact ⟨hwf, fun h => absurd ((roundTrip_iff hwf).1 h) (by decide)⟩

theorem not_roundTrip_colon : ¬ RoundTrip single := by
  intro h
  have htype := congrArg (Option.map fun t => t "t") h
  exact absurd htype (by decide +kernel)

end Gtm

end Grit
