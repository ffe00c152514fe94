/- The text functions of SQLite: `instr` and `LIKE` without an ESCAPE clause.
   digest: `instr` finds exactly the contiguous parts; a text between two `%` matches
   whatever contains it, and nothing else where it has no wildcards. -/

import ObjSearch.Lib.Texts
import Mathlib.Tactic.ByContra
import Mathlib.Tactic.SplitIfs

set_option autoImplicit false
set_option relaxedAutoImplicit false

namespace ObjSearch.Sql.Match

open ObjSearch.Lib.Texts (Text)

/-- `instr(x, y)`: one more than the offset of the first `y` in `x`, and 0 without one. -/
def instr (x y : Text) : ℕ :=
  match x.tails.findIdx? (fun t => y.isPrefixOf t) with
  | some i => i + 1
  | none => 0

/-- `%` stands for any text, `_` for any character, any other character for itself up to
ASCII letter case. -/
def like : Text → Text → Bool
  | [], s => s.isEmpty
  | c :: p, s =>
      if c = '%' then s.tails.any (like p)
      else match s with
        | [] => false
        | d :: s => (c = '_' || c.toLower = d.toLower) && like p s

/-- `SQLITE_MAX_LIKE_PATTERN_LENGTH`: a pattern of more bytes is refused. -/
def maxLikePatternLength : ℕ := 50000

theorem instr_pos_iff (x y : Text) : 0 < instr x y ↔ y <:+: x := by
  have found : (x.tails.findIdx? (fun t => y.isPrefixOf t)).isSome ↔ y <:+: x := by
    rw [List.findIdx?_isSome, List.any_eq_true, List.infix_iff_prefix_suffix]
    constructor
    · rintro ⟨t, ht, hp⟩
      exact ⟨t, List.isPrefixOf_iff_prefix.mp hp, (List.mem_tails t x).mp ht⟩
    · rintro ⟨t, hp, ht⟩
      exact ⟨t, (List.mem_tails t x).mpr ht, List.isPrefixOf_iff_prefix.mpr hp⟩
  rw [← found]
  unfold instr
  cases x.tails.findIdx? (fun t => y.isPrefixOf t) with
  | none => simp
  | some i => simp

theorem like_percent (p s : Text) : like ('%' :: p) s = s.tails.any (like p) := by
  simp [like]

theorem like_percent_of_suffix {p s t : Text} (suffix : t <:+ s) (matched : like p t) :
    like ('%' :: p) s := by
  rw [like_percent, List.any_eq_true]
  exact ⟨t, (List.mem_tails t s).mpr suffix, matched⟩

theorem like_single_percent (s : Text) : like ['%'] s :=
  like_percent_of_suffix (List.nil_suffix) rfl

theorem like_cons_self {p s : Text} (c : Char) (matched : like p s) : like (c :: p) (c :: s) := by
  by_cases hc : c = '%'
  · subst hc
    exact like_percent_of_suffix (List.suffix_cons _ s) matched
  · simp [like, hc, matched]

theorem like_append_self {p s : Text} (t : Text) (matched : like p s) :
    like (t ++ p) (t ++ s) := by
  induction t with
  | nil => exact matched
  | cons c t ih => exact like_cons_self c ih

theorem like_of_infix {t s : Text} (inside : t <:+: s) : like ('%' :: (t ++ ['%'])) s := by
  obtain ⟨a, b, rfl⟩ := inside
  rw [List.append_assoc]
  apply like_percent_of_suffix (List.suffix_append a _)
  exact like_append_self t (like_single_percent b)

def folded (t : Text) : Text := t.map Char.toLower

theorem like_percent_iff (p s : Text) : like ('%' :: p) s ↔ ∃ t, t <:+ s ∧ like p t := by
  rw [like_percent, List.any_eq_true]
  simp only [List.mem_tails]

theorem like_append_iff {t : Text} (plain : '%' ∉ t ∧ '_' ∉ t) (p s : Text) :
    like (t ++ p) s ↔ ∃ u v, s = u ++ v ∧ folded u = folded t ∧ like p v := by
  induction t generalizing s with
  | nil =>
    constructor
    · intro h
      exact ⟨[], s, rfl, rfl, h⟩
    · rintro ⟨u, v, rfl, same, h⟩
      obtain rfl := List.map_eq_nil_iff.mp same
      exact h
  | cons c t ih =>
    obtain ⟨percent, underscore⟩ := plain
    rw [List.mem_cons, not_or] at percent underscore
    have ih := fun s => ih ⟨percent.2, underscore.2⟩ s
    rw [List.cons_append]
    cases s with
    | nil =>
      rw [like.eq_2, if_neg (Ne.symm percent.1)]
      constructor
      · intro h
        cases h
      · rintro ⟨u, v, split, same, -⟩
        obtain ⟨rfl, -⟩ := List.append_eq_nil_iff.mp split.symm
        cases same
    | cons d s =>
      have first : (decide (c = '_') || decide (c.toLower = d.toLower)) =
          decide (c.toLower = d.toLower) := by
        rw [decide_eq_false (Ne.symm underscore.1), Bool.false_or]
      rw [like.eq_3, if_neg (Ne.symm percent.1), first, Bool.and_eq_true, decide_eq_true_eq, ih]
      constructor
      · rintro ⟨here, u, v, rfl, same, h⟩
        refine ⟨d :: u, v, rfl, ?_, h⟩
        rw [folded, List.map_cons, ← here]
        exact congrArg _ same
      · rintro ⟨u, v, split, same, h⟩
        cases u with
        | nil => cases same
        | cons e u =>
          obtain ⟨rfl, rest⟩ := List.cons.inj split
          obtain ⟨here, more⟩ := List.cons.inj same
          exact ⟨here.symm, u, v, rest, more, h⟩

/-- Between two `%` a text without wildcards matches what contains it up to letter case. -/
theorem like_iff_of_plain {t : Text} (plain : '%' ∉ t ∧ '_' ∉ t) (s : Text) :
    like ('%' :: (t ++ ['%'])) s ↔ folded t <:+: folded s := by
  rw [like_percent_iff]
  constructor
  · rintro ⟨r, ⟨a, rfl⟩, h⟩
    obtain ⟨u, v, rfl, same, -⟩ := (like_append_iff plain ['%'] r).mp h
    refine ⟨folded a, folded v, ?_⟩
    rw [← same, folded, folded, folded, folded, List.map_append, List.map_append,
      List.append_assoc]
  · rintro ⟨a, b, split⟩
    rw [List.append_assoc] at split
    obtain ⟨a', r, rfl, -, rest⟩ := List.map_eq_append_iff.mp split.symm
    obtain ⟨u, v, rfl, same, -⟩ := List.map_eq_append_iff.mp rest
    exact ⟨u ++ v, List.suffix_append a' _,
      (like_append_iff plain ['%'] _).mpr ⟨u, v, rfl, same, like_single_percent v⟩⟩

/-- A text that matches the pattern and has none of its wildcards: `%` left out, `_` a letter. -/
def filled : Text → Text
  | [] => []
  | c :: t => if c = '%' then filled t else (if c = '_' then 'a' else c) :: filled t

theorem like_filled (t : Text) {p s : Text} (matched : like p s) :
    like (t ++ p) (filled t ++ s) := by
  induction t with
  | nil => exact matched
  | cons c t ih =>
    rw [List.cons_append, filled]
    by_cases percent : c = '%'
    · rw [if_pos percent, percent]
      exact like_percent_of_suffix (List.suffix_refl _) ih
    · rw [if_neg percent, List.cons_append, like.eq_3, if_neg percent]
      by_cases underscore : c = '_'
      · simp only [underscore, decide_true, Bool.true_or, Bool.true_and, ih]
      · simp only [if_neg underscore, decide_true, Bool.or_true, Bool.true_and, ih]

theorem mem_filled {c : Char} {t : Text} (h : c ∈ filled t) : c ≠ '%' ∧ c ≠ '_' := by
  induction t with
  | nil => cases h
  | cons d t ih =>
    rw [filled] at h
    split_ifs at h with percent underscore
    · exact ih h
    · rcases List.mem_cons.mp h with rfl | later
      · decide
      · exact ih later
    · rcases List.mem_cons.mp h with rfl | later
      · exact ⟨percent, underscore⟩
      · exact ih later

/-- No letter is folded to a wildcard. -/
theorem eq_of_toLower_eq {w c : Char} (wildcard : w = '%' ∨ w = '_') (same : c.toLower = w) :
    c = w := by
  unfold Char.toLower at same
  split_ifs at same with upper
  · have value := congrArg Char.toNat same
    have least : 65 ≤ c.toNat := upper.1
    have most : c.toNat ≤ 90 := upper.2
    have moved : (c.val + ('a'.val - 'A'.val)).toNat = c.toNat + 32 := by
      rw [UInt32.toNat_add]
      exact Nat.mod_eq_of_lt (show c.toNat + 32 < 2 ^ 32 by omega)
    change (c.val + ('a'.val - 'A'.val)).toNat = w.toNat at value
    rcases wildcard with rfl | rfl
    · have percent : ('%' : Char).toNat = 37 := rfl
      omega
    · have underscore : ('_' : Char).toNat = 95 := rfl
      omega
  · exact same

theorem plain_of_infix_filled {t : Text} (inside : folded t <:+: folded (filled t)) :
    '%' ∉ t ∧ '_' ∉ t := by
  have absent {w : Char} (wildcard : w = '%' ∨ w = '_') : w ∉ t := by
    intro here
    have lower : w.toLower = w := by rcases wildcard with rfl | rfl <;> rfl
    have found : w ∈ folded (filled t) :=
      inside.subset (List.mem_map.mpr ⟨w, here, lower⟩)
    obtain ⟨c, there, same⟩ := List.mem_map.mp found
    obtain rfl := eq_of_toLower_eq wildcard same
    obtain ⟨percent, underscore⟩ := mem_filled there
    rcases wildcard with rfl | rfl
    · exact percent rfl
    · exact underscore rfl
  exact ⟨absent (.inl rfl), absent (.inr rfl)⟩

end ObjSearch.Sql.Match
