import Mathlib.Data.List.Basic
import Mathlib.Data.List.Induction

/-!
# Histories of events

A history is a list of events, oldest first. `Since made voided h` says that an
event of the first kind has happened and no event of the second kind after it;
`Precedes p q h` says that an event of the first kind has happened before one
of the second kind. Both are propositions about one fixed item: the item is a
parameter of the predicates.
-/

namespace History

variable {ε : Type*}

/-- Some event that satisfies `made` is followed by no event that satisfies
`voided`. -/
def Since (made voided : ε → Prop) (h : List ε) : Prop :=
  ∃ pre e post, h = pre ++ e :: post ∧ made e ∧ ∀ x ∈ post, ¬ voided x

/-- Some event that satisfies `p` happens before one that satisfies `q`. -/
def Precedes (p q : ε → Prop) (h : List ε) : Prop :=
  ∃ pre x mid y post, h = pre ++ x :: (mid ++ y :: post) ∧ p x ∧ q y

theorem not_since_nil (made voided : ε → Prop) : ¬ Since made voided [] := by
  rintro ⟨pre, e, post, h, -, -⟩
  simp at h

theorem Since.exists_mem {made voided : ε → Prop} {h : List ε} (hs : Since made voided h) :
    ∃ e ∈ h, made e := by
  obtain ⟨pre, e, post, rfl, he, -⟩ := hs
  exact ⟨e, by simp, he⟩

/-- A history splits around an event either inside its old part or at its last
event. -/
theorem concat_eq_append_cons {h : List ε} {e x : ε} {pre post : List ε}
    (heq : h ++ [e] = pre ++ x :: post) :
    (post = [] ∧ x = e ∧ pre = h) ∨
      ∃ post', post = post' ++ [e] ∧ h = pre ++ x :: post' := by
  rcases List.eq_nil_or_concat post with hnil | ⟨post', y, hy⟩
  · subst hnil
    have hinj := List.append_inj' heq rfl
    simp only [List.cons.injEq, and_true] at hinj
    exact Or.inl ⟨rfl, hinj.2.symm, hinj.1.symm⟩
  · rw [List.concat_eq_append] at hy
    subst hy
    have hassoc : pre ++ x :: (post' ++ [y]) = (pre ++ x :: post') ++ [y] := by simp
    rw [hassoc] at heq
    have hinj := List.append_inj' heq rfl
    simp only [List.cons.injEq, and_true] at hinj
    exact Or.inr ⟨post', by rw [hinj.2], hinj.1⟩

theorem since_concat (made voided : ε → Prop) (h : List ε) (e : ε) :
    Since made voided (h ++ [e]) ↔ made e ∨ Since made voided h ∧ ¬ voided e := by
  constructor
  · rintro ⟨pre, x, post, heq, hx, hpost⟩
    rcases concat_eq_append_cons heq with ⟨-, rfl, -⟩ | ⟨post', rfl, rfl⟩
    · exact Or.inl hx
    · refine Or.inr ⟨⟨pre, x, post', rfl, hx, ?_⟩, hpost e (by simp)⟩
      intro y hy
      exact hpost y (by simp [hy])
  · rintro (he | ⟨⟨pre, x, post, rfl, hx, hpost⟩, he⟩)
    · exact ⟨h, e, [], rfl, he, by simp⟩
    · refine ⟨pre, x, post ++ [e], by simp, hx, ?_⟩
      intro y hy
      rcases List.mem_append.1 hy with hy | hy
      · exact hpost y hy
      · rw [List.mem_singleton.1 hy]
        exact he

/-- Several events, taken one after the other. -/
theorem since_append (made voided : ε → Prop) (h es : List ε) :
    Since made voided (h ++ es) ↔
      es.foldl (fun P e => made e ∨ P ∧ ¬ voided e) (Since made voided h) := by
  induction es generalizing h with
  | nil => simp
  | cons e es ih =>
      have hassoc : h ++ e :: es = (h ++ [e]) ++ es := by simp
      rw [hassoc, ih, List.foldl_cons, since_concat]

/-- Later events that do not void keep what holds since. -/
theorem Since.append {made voided : ε → Prop} {h : List ε}
    (hs : Since made voided h) {es : List ε} (hvoid : ∀ e ∈ es, ¬ voided e) :
    Since made voided (h ++ es) := by
  obtain ⟨pre, e, post, rfl, he, hpost⟩ := hs
  refine ⟨pre, e, post ++ es, by simp, he, ?_⟩
  intro x hx
  rcases List.mem_append.1 hx with hx | hx
  · exact hpost x hx
  · exact hvoid x hx

theorem Since.mono {made made' voided voided' : ε → Prop} {h : List ε}
    (hs : Since made voided h) (hmade : ∀ e, made e → made' e)
    (hvoid : ∀ e, voided' e → voided e) : Since made' voided' h := by
  obtain ⟨pre, e, post, rfl, he, hpost⟩ := hs
  exact ⟨pre, e, post, rfl, hmade e he, fun x hx hx' => hpost x hx (hvoid x hx')⟩

/-- Later events that neither make nor void change nothing. -/
theorem since_append_of_neither {made voided : ε → Prop} {es : List ε}
    (hes : ∀ e ∈ es, ¬ made e ∧ ¬ voided e) (h : List ε) :
    Since made voided (h ++ es) ↔ Since made voided h := by
  induction es generalizing h with
  | nil => simp
  | cons e es ih =>
      obtain ⟨hmade, hvoided⟩ := hes e (by simp)
      have hassoc : h ++ e :: es = (h ++ [e]) ++ es := by simp
      rw [hassoc, ih (fun x hx => hes x (by simp [hx])), since_concat]
      simp [hmade, hvoided]

@[simp] theorem not_precedes_nil (p q : ε → Prop) : ¬ Precedes p q [] := by
  intro h
  obtain ⟨pre, x, mid, y, post, heq, -, -⟩ := h
  simp at heq

theorem precedes_cons (p q : ε → Prop) (e : ε) (h : List ε) :
    Precedes p q (e :: h) ↔ (p e ∧ ∃ y ∈ h, q y) ∨ Precedes p q h := by
  constructor
  · intro hpre
    obtain ⟨pre, x, mid, y, post, heq, hx, hy⟩ := hpre
    cases pre with
    | nil =>
        simp only [List.nil_append, List.cons.injEq] at heq
        obtain ⟨rfl, rfl⟩ := heq
        exact Or.inl ⟨hx, y, by simp, hy⟩
    | cons z pre =>
        simp only [List.cons_append, List.cons.injEq] at heq
        exact Or.inr ⟨pre, x, mid, y, post, heq.2, hx, hy⟩
  · intro hor
    rcases hor with ⟨he, y, hy, hq⟩ | ⟨pre, x, mid, y, post, heq, hx, hy⟩
    · obtain ⟨mid, post, rfl⟩ := List.append_of_mem hy
      exact ⟨[], e, mid, y, post, rfl, he, hq⟩
    · exact ⟨e :: pre, x, mid, y, post, by simp [heq], hx, hy⟩

instance decidablePrecedes (p q : ε → Prop) [DecidablePred p] [DecidablePred q] :
    DecidablePred (Precedes p q)
  | [] => isFalse (not_precedes_nil p q)
  | e :: h =>
      have := decidablePrecedes p q h
      decidable_of_iff _ (precedes_cons p q e h).symm

/-- Two ways to split a history around an event: the same position, or one of
the events is in the part before the other. -/
theorem split_cases {a b c d : List ε} {x y : ε} (h : a ++ x :: b = c ++ y :: d) :
    (a = c ∧ x = y ∧ b = d) ∨
      (∃ m, c = a ++ x :: m ∧ b = m ++ y :: d) ∨
        ∃ m, a = c ++ y :: m ∧ d = m ++ x :: b := by
  rcases List.append_eq_append_iff.1 h with ⟨m, hc, hb⟩ | ⟨m, ha, hd⟩
  · cases m with
    | nil =>
        simp only [List.nil_append, List.cons.injEq] at hb
        exact Or.inl ⟨by simp [hc], hb.1, hb.2⟩
    | cons z m =>
        simp only [List.cons_append, List.cons.injEq] at hb
        obtain ⟨rfl, hb⟩ := hb
        exact Or.inr (Or.inl ⟨m, hc, hb⟩)
  · cases m with
    | nil =>
        simp only [List.nil_append, List.cons.injEq] at hd
        exact Or.inl ⟨by simp [ha], hd.1.symm, hd.2.symm⟩
    | cons z m =>
        simp only [List.cons_append, List.cons.injEq] at hd
        obtain ⟨rfl, hd⟩ := hd
        exact Or.inr (Or.inr ⟨m, ha, hd⟩)

/-- Every event satisfies `Q` relative to the history before it. -/
def Each (Q : List ε → ε → Prop) (h : List ε) : Prop :=
  ∀ pre e post, h = pre ++ e :: post → Q pre e

/-- The events `es` satisfy `Q` when they happen one by one after `h`. -/
def EachFrom (Q : List ε → ε → Prop) : List ε → List ε → Prop
  | _, [] => True
  | h, e :: es => Q h e ∧ EachFrom Q (h ++ [e]) es

theorem each_nil (Q : List ε → ε → Prop) : Each Q [] := by
  intro pre e post h
  simp at h

theorem each_concat (Q : List ε → ε → Prop) (h : List ε) (e : ε) :
    Each Q (h ++ [e]) ↔ Each Q h ∧ Q h e := by
  constructor
  · intro hall
    refine ⟨?_, hall h e [] rfl⟩
    intro pre x post heq
    exact hall pre x (post ++ [e]) (by simp [heq])
  · intro hboth pre x post heq
    obtain ⟨hall, he⟩ := hboth
    rcases concat_eq_append_cons heq with ⟨-, rfl, rfl⟩ | ⟨post', -, hpre⟩
    · exact he
    · exact hall pre x post' hpre

theorem each_cons (Q : List ε → ε → Prop) (e : ε) (h : List ε) :
    Each Q (e :: h) ↔ Q [] e ∧ Each (fun pre x => Q (e :: pre) x) h := by
  constructor
  · intro hall
    refine ⟨hall [] e h rfl, ?_⟩
    intro pre x post heq
    exact hall (e :: pre) x post (by rw [heq, List.cons_append])
  · intro hboth pre x post heq
    obtain ⟨he, hall⟩ := hboth
    cases pre with
    | nil =>
        obtain ⟨rfl, -⟩ := List.cons.inj heq
        exact he
    | cons y pre =>
        obtain ⟨rfl, htail⟩ := List.cons.inj heq
        exact hall pre x post htail

theorem each_append (Q : List ε → ε → Prop) (h es : List ε) :
    Each Q (h ++ es) ↔ Each Q h ∧ EachFrom Q h es := by
  induction es generalizing h with
  | nil => simp [EachFrom]
  | cons e es ih =>
      have hassoc : h ++ e :: es = (h ++ [e]) ++ es := by simp
      rw [hassoc, ih, each_concat, EachFrom, and_assoc]

theorem eachFrom_of_forall {Q : List ε → ε → Prop} {h es : List ε}
    (hQ : ∀ pre e post, es = pre ++ e :: post → Q (h ++ pre) e) : EachFrom Q h es := by
  induction es generalizing h with
  | nil => exact trivial
  | cons e es ih =>
      have hhead := hQ [] e es rfl
      rw [List.append_nil] at hhead
      refine ⟨hhead, ih fun pre x post heq => ?_⟩
      rw [List.append_assoc]
      exact hQ (e :: pre) x post (by rw [heq, List.cons_append])

/-- The rule of runs. A fact about the state after a history holds if it holds at the start
and every event keeps it; an event may be assumed to meet its guard, if every event of the
history does. -/
theorem foldl_invariant {σ : Type*} {f : σ → ε → σ} {s : σ} {I : List ε → σ → Prop}
    (Q : List ε → ε → Prop) (h : List ε) (hinit : I [] s)
    (hstep : ∀ pre e, I pre (pre.foldl f s) → Q pre e →
      I (pre ++ [e]) (f (pre.foldl f s) e))
    (hQ : Each Q h) : I h (h.foldl f s) := by
  induction h using List.reverseRecOn with
  | nil => exact hinit
  | append_singleton h e ih =>
      obtain ⟨hpre, hlast⟩ := (each_concat Q h e).1 hQ
      rw [List.foldl_append]
      exact hstep h e (ih hpre) hlast

theorem each_iff_eachFrom (Q : List ε → ε → Prop) (h : List ε) :
    Each Q h ↔ EachFrom Q [] h := by
  have happ := each_append Q [] h
  rw [List.nil_append] at happ
  rw [happ, and_iff_right (each_nil Q)]

instance decidableEachFrom (Q : List ε → ε → Prop) [∀ h e, Decidable (Q h e)] :
    ∀ h es, Decidable (EachFrom Q h es)
  | _, [] => isTrue trivial
  | h, e :: es =>
      have := decidableEachFrom Q (h ++ [e]) es
      inferInstanceAs (Decidable (Q h e ∧ EachFrom Q (h ++ [e]) es))

instance decidableEach (Q : List ε → ε → Prop) [∀ h e, Decidable (Q h e)] (h : List ε) :
    Decidable (Each Q h) := decidable_of_iff _ (each_iff_eachFrom Q h).symm

end History
