/- Items whose key was not seen before.
   digest: The item most recently seen for the first time, as a list grows at its end. -/

import Mathlib.Data.List.Basic

set_option autoImplicit false
set_option relaxedAutoImplicit false

namespace ObjSearch.Lib.FirstSeen

variable {α κ : Type} (known : κ → Prop) (key : α → κ)

/-- `f` is the last item of `xs` with a key neither known nor among the items before it. -/
def LatestNew (xs : List α) (f : α) : Prop :=
  ∃ p q, xs = p ++ f :: q ∧ ¬known (key f) ∧ key f ∉ p.map key ∧
    ∀ d ∈ q, known (key d) ∨ key d ∈ (p ++ [f]).map key

variable {known key}

theorem not_latestNew_nil (f : α) : ¬LatestNew known key [] f := by
  rintro ⟨p, q, split, -⟩
  simp at split

theorem latestNew_append_new {xs : List α} {n f : α} (unknown : ¬known (key n))
    (unseen : key n ∉ xs.map key) : LatestNew known key (xs ++ [n]) f ↔ f = n := by
  constructor
  · rintro ⟨p, q, split, -, -, seen⟩
    rcases List.eq_nil_or_concat q with rfl | ⟨q, d, rfl⟩
    · exact (List.append_inj' split rfl).2 |> List.singleton_inj.mp |>.symm
    · have parts : xs ++ [n] = (p ++ f :: q) ++ [d] := by simpa using split
      obtain ⟨rfl, last⟩ := List.append_inj' parts rfl
      obtain rfl := List.singleton_inj.mp last
      rcases seen n (by simp) with old | before
      · exact absurd old unknown
      · exact absurd (by simp only [List.map_append, List.mem_append, List.map_cons,
          List.mem_cons, List.map_nil, List.not_mem_nil, or_false] at before ⊢; tauto) unseen
  · rintro rfl
    exact ⟨xs, [], rfl, unknown, unseen, by simp⟩

theorem latestNew_append_old {xs : List α} {n f : α}
    (old : known (key n) ∨ key n ∈ xs.map key) :
    LatestNew known key (xs ++ [n]) f ↔ LatestNew known key xs f := by
  constructor
  · rintro ⟨p, q, split, unknown, unseen, seen⟩
    rcases List.eq_nil_or_concat q with rfl | ⟨q, d, rfl⟩
    · obtain ⟨rfl, last⟩ := List.append_inj' split rfl
      obtain rfl := List.singleton_inj.mp last
      exact absurd old (not_or.mpr ⟨unknown, unseen⟩)
    · have parts : xs ++ [n] = (p ++ f :: q) ++ [d] := by simpa using split
      obtain ⟨rfl, -⟩ := List.append_inj' parts rfl
      exact ⟨p, q, rfl, unknown, unseen, fun e he => seen e (by simp [he])⟩
  · rintro ⟨p, q, rfl, unknown, unseen, seen⟩
    refine ⟨p, q ++ [n], by simp, unknown, unseen, ?_⟩
    intro d hd
    rcases List.mem_append.mp hd with earlier | last
    · exact seen d earlier
    · obtain rfl := List.mem_singleton.mp last
      rcases old with known | before
      · exact .inl known
      · -- the earlier item with this key is before `f`, is `f`, or was itself seen before
        obtain ⟨e, he, same⟩ := List.mem_map.mp before
        rcases List.mem_append.mp he with inp | infq
        · exact .inr (same ▸ List.mem_map_of_mem (List.mem_append_left [f] inp))
        · rcases List.mem_cons.mp infq with rfl | inq
          · exact .inr (same ▸ List.mem_map_of_mem (List.mem_append_right p (by simp)))
          · exact same ▸ seen e inq

end ObjSearch.Lib.FirstSeen
