/- Left joins and row-at-a-time scans with conditions that may fail.
   digest: A left join on a unique key neither duplicates nor drops a row. -/

import Mathlib.Data.List.Nodup

set_option autoImplicit false
set_option relaxedAutoImplicit false

namespace ObjSearch.Lib.Relational

variable {ε α β γ δ κ : Type}

def keep (p : β → Except ε Bool) : List β → Except ε (List β)
  | [] => .ok []
  | b :: bs => do
      let holds ← p b
      let rest ← keep p bs
      return if holds then b :: rest else rest

def paired (a : α) : List β → List (α × Option β)
  | [] => [(a, none)]
  | bs => bs.map (fun b => (a, some b))

/-- `as LEFT JOIN bs ON p`, in the order of nested loops. -/
def leftJoin (p : α → β → Except ε Bool) (bs : List β) : List α → Except ε (List (α × Option β))
  | [] => .ok []
  | a :: as => do
      let found ← keep (p a) bs
      let rest ← leftJoin p bs as
      return paired a found ++ rest

/-- The rows handed out one after the other, and the failure that ends them early. -/
structure Cursor (ε β : Type) where
  rows : List β
  stopped : Option ε
deriving DecidableEq

def Cursor.consume (b : β) (c : Cursor ε β) : Cursor ε β := { c with rows := b :: c.rows }

/-- Visit the rows in order and hand out what `f` makes of those it selects. -/
def scan (f : α → Except ε (Option β)) : List α → Cursor ε β
  | [] => ⟨[], none⟩
  | a :: as => match f a with
    | .error e => ⟨[], some e⟩
    | .ok none => scan f as
    | .ok (some b) => (scan f as).consume b

theorem keep_map {p : β → Except ε Bool} (g : δ → β) {q : δ → Bool} {bs : List δ}
    (ok : ∀ b ∈ bs, p (g b) = .ok (q b)) : keep p (bs.map g) = .ok ((bs.filter q).map g) := by
  induction bs with
  | nil => rfl
  | cons b bs ih =>
    have here := ok b List.mem_cons_self
    have rest := ih (fun c hc => ok c (List.mem_cons_of_mem b hc))
    rw [List.map_cons, keep, here, rest, List.filter_cons]
    cases q b <;> rfl

theorem filter_key_eq [DecidableEq κ] (key : β → κ) (k : κ) {bs : List β}
    (unique : (bs.map key).Nodup) :
    bs.filter (fun b => key b = k) = (bs.find? (fun b => key b = k)).toList := by
  induction bs with
  | nil => rfl
  | cons b bs ih =>
    obtain ⟨fresh, unique⟩ := List.nodup_cons.mp unique
    by_cases here : key b = k
    · have others : bs.filter (fun c => key c = k) = [] := by
        apply List.filter_eq_nil_iff.mpr
        intro c hc same
        apply fresh
        rw [here, ← of_decide_eq_true same]
        exact List.mem_map_of_mem hc
      simp [here, others]
    · simp [here, ih unique]

theorem paired_toList (a : α) (b : Option β) : paired a b.toList = [(a, b)] := by
  cases b <;> rfl

def match_ [DecidableEq κ] (key : β → κ) (bs : List β) (k : Option κ) : Option β :=
  k.bind (fun k => bs.find? (fun b => key b = k))

theorem match_mem [DecidableEq κ] {key : β → κ} {bs : List β} {b : β}
    (unique : (bs.map key).Nodup) (hb : b ∈ bs) : match_ key bs (some (key b)) = some b := by
  have only := filter_key_eq key (key b) unique
  have here : b ∈ bs.filter (fun c => key c = key b) := by simp [hb]
  rw [only] at here
  exact Option.mem_toList.mp here

/-- Joined on a unique key of the right side, every left row occurs exactly once, with the
row its reference names or without one; `f` and `g` are the rows as the join sees them. -/
theorem leftJoin_unique [DecidableEq κ] {p : α → β → Except ε Bool} (f : γ → α) (g : δ → β)
    (ref : γ → Option κ) (key : δ → κ) (as : List γ) {bs : List δ}
    (unique : (bs.map key).Nodup)
    (ok : ∀ a ∈ as, ∀ b ∈ bs, p (f a) (g b) = .ok (decide (ref a = some (key b)))) :
    leftJoin p (bs.map g) (as.map f) =
      .ok (as.map (fun a => (f a, (match_ key bs (ref a)).map g))) := by
  induction as with
  | nil => rfl
  | cons a as ih =>
    have rest := ih (fun c hc => ok c (List.mem_cons_of_mem a hc))
    have found : keep (p (f a)) (bs.map g) = .ok ((match_ key bs (ref a)).map g).toList := by
      rw [keep_map g (ok a List.mem_cons_self)]
      cases ref a with
      | none => simp [match_]
      | some k =>
        have only := filter_key_eq key k unique
        simp only [Option.some.injEq, eq_comm (a := k), only, match_, Option.bind_some,
          Option.toList_map]
    rw [List.map_cons, leftJoin, found, rest, List.map_cons]
    simp only [bind, Except.bind, pure, Except.pure, paired_toList]
    rfl

/-- Without failures a scan hands out what it makes of every selected row, in order; `g` is a
row as the scan sees it. -/
theorem scan_map {f : α → Except ε (Option β)} (g : γ → α) {selected : γ → Bool} {out : γ → β}
    {as : List γ}
    (ok : ∀ a ∈ as, f (g a) = .ok (if selected a then some (out a) else none)) :
    scan f (as.map g) = ⟨(as.filter selected).map out, none⟩ := by
  induction as with
  | nil => rfl
  | cons a as ih =>
    have here := ok a List.mem_cons_self
    have rest := ih (fun c hc => ok c (List.mem_cons_of_mem a hc))
    rw [List.map_cons, scan, here, rest, List.filter_cons]
    cases selected a <;> rfl

/-- What a scan hands out is made of one of the rows, also where it stops early. -/
theorem exists_of_mem_scan {f : α → Except ε (Option β)} {as : List α} {b : β}
    (h : b ∈ (scan f as).rows) : ∃ a ∈ as, f a = .ok (some b) := by
  induction as with
  | nil => cases h
  | cons a as ih =>
    rw [scan] at h
    split at h
    · cases h
    · obtain ⟨a', here, made⟩ := ih h
      exact ⟨a', List.mem_cons_of_mem a here, made⟩
    · next made =>
      rcases List.mem_cons.mp h with rfl | later
      · exact ⟨a, List.mem_cons_self, made⟩
      · obtain ⟨a', here, made⟩ := ih later
        exact ⟨a', List.mem_cons_of_mem a here, made⟩

theorem rows_scan_eq_nil {f : α → Except ε (Option β)} {as : List α}
    (none_ : ∀ a ∈ as, ∀ b, f a ≠ .ok (some b)) : (scan f as).rows = [] := by
  apply List.eq_nil_iff_forall_not_mem.mpr
  intro b here
  obtain ⟨a, ha, made⟩ := exists_of_mem_scan here
  exact none_ a ha b made

theorem exists_of_forall₂ {R : α → β → Prop} {xs : List α} {ys : List β} {x : α}
    (h : List.Forall₂ R xs ys) (mem : x ∈ xs) : ∃ y ∈ ys, R x y := by
  induction h with
  | nil => cases mem
  | cons first _ ih =>
    rcases List.mem_cons.mp mem with rfl | later
    · exact ⟨_, List.mem_cons_self, first⟩
    · obtain ⟨y, here, related⟩ := ih later
      exact ⟨y, List.mem_cons_of_mem _ here, related⟩

end ObjSearch.Lib.Relational
