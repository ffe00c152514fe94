/- Texts, and texts inside other texts.
   digest: The contiguous parts of a joined list are those of its members and the texts that run
   from one member into a later one. -/

import Mathlib.Data.List.Infix

set_option autoImplicit false
set_option relaxedAutoImplicit false

namespace ObjSearch.Lib.Texts

/-- Texts are lists of characters; NUL, which ends a C string, never occurs in one. -/
abbrev Text := List Char

def joined (sep : Char) : List Text → Text
  | [] => []
  | [t] => t
  | t :: u :: ts => t ++ sep :: joined sep (u :: ts)

theorem joined_cons (sep : Char) (t u : Text) (ts : List Text) :
    joined sep (t :: u :: ts) = t ++ sep :: joined sep (u :: ts) := rfl

theorem infix_joined_of_mem (sep : Char) {t : Text} {ts : List Text} (h : t ∈ ts) :
    t <:+: joined sep ts := by
  induction ts with
  | nil => cases h
  | cons u us ih =>
    cases us with
    | nil =>
      rw [List.mem_singleton.mp h]
      exact List.infix_refl u
    | cons v vs =>
      rw [joined_cons]
      rcases List.mem_cons.mp h with rfl | later
      · exact (List.prefix_append t _).isInfix
      · have tail : joined sep (v :: vs) <:+ u ++ sep :: joined sep (v :: vs) :=
          (List.suffix_cons sep _).trans (List.suffix_append u _)
        exact (ih later).trans tail.isInfix

theorem not_mem_joined {sep c : Char} (hc : c ≠ sep) {ts : List Text}
    (h : ∀ t ∈ ts, c ∉ t) : c ∉ joined sep ts := by
  induction ts with
  | nil => simp [joined]
  | cons t ts ih =>
    cases ts with
    | nil => exact h t List.mem_cons_self
    | cons u us =>
      have head := h t List.mem_cons_self
      have tail := ih (fun v hv => h v (List.mem_cons_of_mem t hv))
      simp [joined_cons, head, hc, tail]

theorem not_mem_joined_iff {sep c : Char} (hc : c ≠ sep) (ts : List Text) :
    c ∉ joined sep ts ↔ ∀ t ∈ ts, c ∉ t :=
  ⟨fun h _ here inside => h ((infix_joined_of_mem sep here).subset inside), not_mem_joined hc⟩

/-- One round of a loop that writes `sep` before every text but the first; the flag says
whether one has been written. -/
def separate (sep : Char) (st : Bool × Text) (t : Text) : Bool × Text :=
  (true, (if st.1 then st.2 ++ [sep] else st.2) ++ t)

private theorem foldl_separate (sep : Char) (written t : Text) (ts : List Text) :
    (ts.foldl (separate sep) (true, written ++ t)).2 = written ++ joined sep (t :: ts) := by
  induction ts generalizing written t with
  | nil => rfl
  | cons u ts ih =>
    have round : separate sep (true, written ++ t) u = (true, (written ++ t ++ [sep]) ++ u) := rfl
    rw [List.foldl_cons, round, ih, joined_cons]
    simp

theorem foldl_separate_eq_joined (sep : Char) (ts : List Text) :
    (ts.foldl (separate sep) (false, [])).2 = joined sep ts := by
  cases ts with
  | nil => rfl
  | cons t ts => exact foldl_separate sep [] t ts

/-- The text runs from the end of one member, past `sep`, to the beginning of a later one, with
the members between them in whole. -/
def Spans (sep : Char) (f : Text) (names : List Text) : Prop :=
  ∃ before n mid m after u v, names = before ++ n :: (mid ++ m :: after) ∧
    u <:+ n ∧ v <+: m ∧ f = u ++ sep :: joined sep (mid ++ [v])

theorem joined_of_ne_nil (sep : Char) (t : Text) {ts : List Text} (more : ts ≠ []) :
    joined sep (t :: ts) = t ++ sep :: joined sep ts := by
  cases ts with
  | nil => exact absurd rfl more
  | cons u us => rfl

theorem joined_suffix_append (sep : Char) (before : List Text) {ts : List Text} (more : ts ≠ []) :
    joined sep ts <:+ joined sep (before ++ ts) := by
  induction before with
  | nil => exact List.suffix_refl _
  | cons t before ih =>
    rw [List.cons_append, joined_of_ne_nil sep t (by simp [more])]
    exact ih.trans ((List.suffix_cons sep _).trans (List.suffix_append t _))

theorem prefix_joined_iff (sep : Char) (f t : Text) (ts : List Text) :
    f <+: joined sep (t :: ts) ↔
      ∃ mid m after v, t :: ts = mid ++ m :: after ∧ v <+: m ∧ f = joined sep (mid ++ [v]) := by
  induction ts generalizing f t with
  | nil =>
    constructor
    · intro h
      exact ⟨[], t, [], f, rfl, h, rfl⟩
    · rintro ⟨mid, m, after, v, names, h, rfl⟩
      cases mid with
      | nil =>
        obtain ⟨rfl, -⟩ := List.cons.inj names
        exact h
      | cons u mid => simp at names
  | cons u us ih =>
    rw [joined_cons]
    constructor
    · rintro ⟨g, split⟩
      rcases List.append_eq_append_iff.mp split with ⟨as, inside, -⟩ | ⟨bs, past, rest⟩
      · exact ⟨[], t, u :: us, f, rfl, ⟨as, inside.symm⟩, rfl⟩
      · cases bs with
        | nil => exact ⟨[], t, u :: us, f, rfl, by rw [past, List.append_nil], rfl⟩
        | cons b bs =>
          obtain ⟨rfl, later⟩ := List.cons.inj rest
          obtain ⟨mid, m, after, v, names, h, rfl⟩ := (ih bs u).mp ⟨g, later.symm⟩
          refine ⟨t :: mid, m, after, v, by rw [names]; rfl, h, ?_⟩
          rw [past, List.cons_append, joined_of_ne_nil sep t (by simp)]
    · rintro ⟨mid, m, after, v, names, h, rfl⟩
      cases mid with
      | nil =>
        obtain ⟨rfl, -⟩ := List.cons.inj names
        exact h.trans (List.prefix_append t _)
      | cons t' mid =>
        obtain ⟨rfl, later⟩ := List.cons.inj names
        rw [List.cons_append, joined_of_ne_nil sep t (by simp), List.prefix_append_right_inj,
          List.cons_prefix_cons]
        exact ⟨rfl, (ih _ u).mpr ⟨mid, m, after, v, later, h, rfl⟩⟩

theorem infix_joined_of_spans {sep : Char} {f : Text} {names : List Text}
    (spans : Spans sep f names) : f <:+: joined sep names := by
  obtain ⟨before, n, mid, m, after, u, v, rfl, ending, beginning, rfl⟩ := spans
  have rest : joined sep (mid ++ [v]) <+: joined sep (mid ++ m :: after) := by
    cases list : mid ++ m :: after with
    | nil => simp at list
    | cons t ts =>
      exact (prefix_joined_iff sep _ t ts).mpr ⟨mid, m, after, v, list.symm, beginning, rfl⟩
  have here : u ++ sep :: joined sep (mid ++ [v]) <:+: joined sep (n :: (mid ++ m :: after)) := by
    rw [joined_of_ne_nil sep n (by simp), List.infix_append_iff]
    exact .inr (.inr ⟨u, _, rfl, ending, (List.prefix_cons_inj sep).mpr rest⟩)
  exact here.trans (joined_suffix_append sep before (by simp)).isInfix

private theorem spans_cons {sep : Char} {u n t : Text} {g : Text} {ts : List Text}
    (ending : u <:+ n) (beginning : g <+: joined sep (t :: ts)) :
    Spans sep (u ++ sep :: g) (n :: t :: ts) := by
  obtain ⟨mid, m, after, v, names, h, rfl⟩ := (prefix_joined_iff sep g t ts).mp beginning
  exact ⟨[], n, mid, m, after, u, v, by rw [names]; rfl, ending, h, rfl⟩

theorem infix_joined_iff (sep : Char) (f : Text) (names : List Text) :
    f <:+: joined sep names ↔ f = [] ∨ (∃ n ∈ names, f <:+: n) ∨ Spans sep f names := by
  constructor
  · intro inside
    induction names with
    | nil => exact .inl (List.infix_nil.mp inside)
    | cons n ts ih =>
      cases ts with
      | nil => exact .inr (.inl ⟨n, List.mem_cons_self, inside⟩)
      | cons t ts =>
        rw [joined_cons, List.infix_append_iff] at inside
        rcases inside with first | later | ⟨u, g, rfl, ending, reach⟩
        · exact .inr (.inl ⟨n, List.mem_cons_self, first⟩)
        · rcases List.infix_cons_iff.mp later with reach | rest
          · rcases List.prefix_cons_iff.mp reach with rfl | ⟨g, rfl, beginning⟩
            · exact .inl rfl
            · exact .inr (.inr (spans_cons (List.nil_suffix) beginning))
          · rcases ih rest with rfl | ⟨m, here, part⟩ | ⟨before, spans⟩
            · exact .inl rfl
            · exact .inr (.inl ⟨m, List.mem_cons_of_mem n here, part⟩)
            · obtain ⟨n', mid, m, after, u, v, names, shape⟩ := spans
              exact .inr (.inr ⟨n :: before, n', mid, m, after, u, v, by rw [names]; rfl, shape⟩)
        · rcases List.prefix_cons_iff.mp reach with rfl | ⟨g, rfl, beginning⟩
          · rw [List.append_nil]
            exact .inr (.inl ⟨n, List.mem_cons_self, ending.isInfix⟩)
          · exact .inr (.inr (spans_cons ending beginning))
  · rintro (rfl | ⟨n, here, part⟩ | spans)
    · exact List.nil_infix
    · exact part.trans (infix_joined_of_mem sep here)
    · exact infix_joined_of_spans spans

end ObjSearch.Lib.Texts
