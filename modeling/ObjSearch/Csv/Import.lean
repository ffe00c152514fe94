/- What the CSV import makes of a record.
   digest: Every valid row in UTF-8 becomes an object at the doubles nearest to what its columns
   spell, and so does every row whose first two columns merely begin with a number in range, or with
   none at all. -/

import ObjSearch.Lib.Strtod
import ObjSearch.Csv.Reader
import ObjSearch.Index.Notify

set_option autoImplicit false
set_option relaxedAutoImplicit false

namespace ObjSearch.Csv.Import

open ObjSearch.Lib.Texts (Text)
open ObjSearch.Lib.Doubles
open ObjSearch.Lib.Strtod
open ObjSearch.Csv.Parser
open ObjSearch.Csv.Scanner
open ObjSearch.Csv.Reader

/-- The arguments of `SendVectorChartObjectInfo`. -/
structure Sent where
  chart : Text
  feature : Text
  objname : Text
  lat : Number
  lon : Number
  scale : Number
  nativescale : ℤ
deriving DecidableEq

def Sent.of (n : Index.Notify.Notification) : Sent :=
  ⟨n.chart, n.feature, n.objname, .finite n.lat, .finite n.lon, .finite n.scale, n.nativescale⟩

/-- The settings dialog: `m_iProcessed`, what it has sent to the plugin, and the values its
progress dialog was given. -/
structure Form where
  processed : ℕ
  sent : List Sent
  progress : List ℕ
deriving DecidableEq

def createObject (form : Form) (lat lon : Number) (name feature source : Text) (scale : ℤ)
    (truescale : Number) : Form where
  processed := form.processed + 1
  -- (int)scale
  sent := form.sent ++ [⟨source, feature, name, lat, lon, truescale, scale.bmod (2 ^ 32)⟩]
  progress :=
    if (form.processed + 1) % 10 = 0 then form.progress ++ [form.processed + 1] else form.progress

def within (bound : ℚ) (x : Number) : Bool :=
  Number.le (.finite (-bound)) x && x.le (.finite bound)

theorem createObject_notification (form : Form) (lat lon : ℚ) (name feature source : Text)
    (scale : ℤ) (truescale : ℚ) :
    (createObject form (.finite lat) (.finite lon) name feature source scale
        (.finite truescale)).sent =
      form.sent ++
        [Sent.of (Index.Notify.createObject lat lon name feature source scale truescale)] :=
  rfl

structure Utf8 where
  decode : Text → Option Text
  decode_eq_nil : ∀ t, decode t = some [] ↔ t = []

/-- `wxString::FromUTF8`: an empty text where the bytes are not UTF-8. -/
def Utf8.fromUTF8 (u : Utf8) (t : Text) : Text := (u.decode t).getD []

/-! The callback, for any `fromUTF8`. -/

variable (fromUTF8 : Text → Text)

def processCsvLine : Callback Form := fun form cv =>
  let cnt := cv.length
  if cnt < 5 then (form, 0)
  else
    let lat := if 1 ≤ cnt then (strtod (cv.getD 0 [])).1 else .finite 0
    let lon := if 2 ≤ cnt then (strtod (cv.getD 1 [])).1 else .finite 0
    let name := if 3 ≤ cnt then fromUTF8 (cv.getD 2 []) else []
    let feature := if 4 ≤ cnt then fromUTF8 (cv.getD 3 []) else []
    let source := if 5 ≤ cnt then fromUTF8 (cv.getD 4 []) else []
    let scale := if 6 ≤ cnt then strtol (cv.getD 5 []) else -1
    let truescale := if 7 ≤ cnt then (strtod (cv.getD 6 [])).1 else .finite 0
    if within 90 lat ∧ within 180 lon ∧ name ≠ [] ∧ feature ≠ [] ∧ source ≠ [] then
      (createObject form lat lon name feature source scale truescale, 0)
    else (form, 0)

def Accepted (cv : List Text) : Prop :=
  5 ≤ cv.length ∧ within 90 (strtod (cv.getD 0 [])).1 ∧ within 180 (strtod (cv.getD 1 [])).1 ∧
    fromUTF8 (cv.getD 2 []) ≠ [] ∧ fromUTF8 (cv.getD 3 []) ≠ [] ∧ fromUTF8 (cv.getD 4 []) ≠ []

/-! What the import is for. -/

def Spells (t : Text) (x : ℚ) : Prop :=
  ∃ before s after, t = before ++ s ++ after ∧ (∀ c ∈ before, isBlank c) ∧ decimal s = some x ∧
    ∀ c ∈ after, isBlank c

structure Located (cv : List Text) (lat lon : ℚ) : Prop where
  latitude : Spells (cv.getD 0 []) lat
  longitude : Spells (cv.getD 1 []) lon
  north : -90 ≤ lat ∧ lat ≤ 90
  east : -180 ≤ lon ∧ lon ≤ 180

def Named (cv : List Text) : Prop := cv.getD 2 [] ≠ [] ∧ cv.getD 3 [] ≠ [] ∧ cv.getD 4 [] ≠ []

structure Valid (cv : List Text) (lat lon : ℚ) : Prop where
  columns : 5 ≤ cv.length
  located : Located cv lat lon
  named : Named cv

def Decoded (u : Utf8) (cv : List Text) : Prop :=
  u.decode (cv.getD 2 []) ≠ none ∧ u.decode (cv.getD 3 []) ≠ none ∧ u.decode (cv.getD 4 []) ≠ none

/-- A valid row is sent with its own numbers, any other changes nothing. A number is sent as what
`exactly` makes of it. -/
structure AcceptsExactly (u : Utf8) (exactly : ℚ → Number) (cv : List Text) : Prop where
  created : ∀ form lat lon, Valid cv lat lon → ∃ scale truescale,
    (processCsvLine u.fromUTF8 form cv).1 = createObject form (exactly lat) (exactly lon)
      (u.fromUTF8 (cv.getD 2 [])) (u.fromUTF8 (cv.getD 3 [])) (u.fromUTF8 (cv.getD 4 [])) scale
      truescale
  dropped : ∀ form, (∀ lat lon, ¬Valid cv lat lon) → (processCsvLine u.fromUTF8 form cv).1 = form

/-- No number begins the text, behind white space, or the double of the longest that does is in
range. -/
def BeginsWithin (bound : ℚ) (t : Text) : Prop :=
  (∀ p, p <+: t.dropWhile isspace → subject Number.ofRat p = none) ∨
    ∃ p x, IsLongest (subject Number.ofRat) (t.dropWhile isspace) p (.finite x) ∧
      -bound ≤ x ∧ x ≤ bound

theorem within_finite {bound x : ℚ} : within bound (.finite x) ↔ -bound ≤ x ∧ x ≤ bound := by
  simp [within, Number.le]

theorem within_infinite (bound : ℚ) (negative : Bool) :
    within bound (.infinite negative) = false := by
  cases negative <;> rfl

theorem isspace_of_isBlank {c : Char} (h : isBlank c) : isspace c := by
  rcases Bool.or_eq_true_iff.mp h with space | tab
  · rw [of_decide_eq_true space]
    rfl
  · rw [of_decide_eq_true tab]
    rfl

theorem strtodWith_of_spells {round : ℚ → Number} {t : Text} {x : ℚ} (h : Spells t x) :
    (strtodWith round t).1 = round x ∧ ∀ c ∈ (strtodWith round t).2, isBlank c := by
  obtain ⟨before, s, after, rfl, blankBefore, reads, blankAfter⟩ := h
  rw [strtodWith_of_decimal reads (fun c mem => isspace_of_isBlank (blankBefore c mem))
    (fun c mem => isspace_of_isBlank (blankAfter c mem))]
  exact ⟨rfl, blankAfter⟩

theorem strtod_of_spells {t : Text} {x : ℚ} (h : Spells t x) : (strtod t).1 = .ofRat x :=
  (strtodWith_of_spells h).1

theorem Spells.unique {t : Text} {x y : ℚ} (h : Spells t x) (k : Spells t y) : x = y := by
  have same := (@strtodWith_of_spells .finite t x h).1.symm.trans (strtodWith_of_spells k).1
  exact Number.finite.inj same

theorem within_strtod_iff (bound : ℚ) (nonneg : 0 ≤ bound) (t : Text) :
    within bound (strtod t).1 ↔ BeginsWithin bound t := by
  rw [strtod]
  cases found : longest (subject Number.ofRat) [] (t.dropWhile isspace) with
  | none =>
    have nothing := longest_eq_none_iff.mp found
    rw [strtodWith_of_nothing nothing, within_finite]
    exact iff_of_true ⟨by linarith, nonneg⟩ (.inl nothing)
  | some result =>
    obtain ⟨x, after⟩ := result
    obtain ⟨p, split, longest⟩ := longest_eq_some_iff.mp found
    rw [strtodWith_of_longest split longest]
    constructor
    · intro inside
      cases x with
      | finite x => exact .inr ⟨p, x, longest, within_finite.mp inside⟩
      | infinite negative =>
        rw [within_infinite] at inside
        cases inside
      | nan => cases inside
    · rintro (nothing | ⟨q, y, longest', inside⟩)
      · have reads := longest.reads
        rw [nothing p longest.begins] at reads
        cases reads
      · rw [(longest.unique longest').2]
        exact within_finite.mpr inside

variable {fromUTF8} {cv : List Text}

theorem processCsvLine_accepted (h : Accepted fromUTF8 cv) (form : Form) :
    ∃ scale truescale, processCsvLine fromUTF8 form cv =
      (createObject form (strtod (cv.getD 0 [])).1 (strtod (cv.getD 1 [])).1
        (fromUTF8 (cv.getD 2 [])) (fromUTF8 (cv.getD 3 [])) (fromUTF8 (cv.getD 4 [])) scale
        truescale, 0) := by
  obtain ⟨columns, north, east, name, feature, source⟩ := h
  refine ⟨if 6 ≤ cv.length then strtol (cv.getD 5 []) else -1,
    if 7 ≤ cv.length then (strtod (cv.getD 6 [])).1 else .finite 0, ?_⟩
  unfold processCsvLine
  simp only [if_neg (not_lt.mpr columns), if_pos columns, if_pos (show 1 ≤ cv.length by omega),
    if_pos (show 2 ≤ cv.length by omega), if_pos (show 3 ≤ cv.length by omega),
    if_pos (show 4 ≤ cv.length by omega)]
  rw [if_pos ⟨north, east, name, feature, source⟩]

theorem processCsvLine_rejected (h : ¬Accepted fromUTF8 cv) (form : Form) :
    processCsvLine fromUTF8 form cv = (form, 0) := by
  unfold processCsvLine
  by_cases few : cv.length < 5
  · simp only [if_pos few]
  · have columns : 5 ≤ cv.length := not_lt.mp few
    simp only [if_neg few, if_pos columns, if_pos (show 1 ≤ cv.length by omega),
      if_pos (show 2 ≤ cv.length by omega), if_pos (show 3 ≤ cv.length by omega),
      if_pos (show 4 ≤ cv.length by omega)]
    rw [if_neg]
    intro test
    obtain ⟨north, east, named⟩ := test
    exact h ⟨columns, north, east, named⟩

variable {u : Utf8} {exactly : ℚ → Number}

theorem Utf8.fromUTF8_ne_nil {t : Text} : u.fromUTF8 t ≠ [] ↔ t ≠ [] ∧ u.decode t ≠ none := by
  unfold Utf8.fromUTF8
  rw [ne_eq t, ← u.decode_eq_nil t]
  cases u.decode t <;> simp

theorem accepted_iff : Accepted u.fromUTF8 cv ↔
    5 ≤ cv.length ∧ BeginsWithin 90 (cv.getD 0 []) ∧ BeginsWithin 180 (cv.getD 1 []) ∧ Named cv ∧
      Decoded u cv := by
  unfold Accepted Named Decoded
  rw [within_strtod_iff 90 (by norm_num), within_strtod_iff 180 (by norm_num),
    Utf8.fromUTF8_ne_nil, Utf8.fromUTF8_ne_nil, Utf8.fromUTF8_ne_nil]
  tauto

theorem beginsWithin_of_spells {bound : ℕ} (few : bound < 2 ^ 53) {t : Text} {x : ℚ}
    (h : Spells t x) (inside : -bound ≤ x ∧ x ≤ bound) : BeginsWithin bound t := by
  obtain ⟨finite, near⟩ := ofRat_of_abs_le few (abs_le.mpr inside)
  rw [← within_strtod_iff bound (Nat.cast_nonneg bound), strtod_of_spells h, finite, within_finite]
  exact abs_le.mp near

theorem Located.beginsWithin {lat lon : ℚ} (h : Located cv lat lon) :
    BeginsWithin 90 (cv.getD 0 []) ∧ BeginsWithin 180 (cv.getD 1 []) := by
  constructor
  · exact_mod_cast @beginsWithin_of_spells 90 (by norm_num) _ _ h.latitude
      (by exact_mod_cast h.north)
  · exact_mod_cast @beginsWithin_of_spells 180 (by norm_num) _ _ h.longitude
      (by exact_mod_cast h.east)

theorem acceptsExactly_of_rejected (h : ¬Accepted u.fromUTF8 cv) :
    AcceptsExactly u exactly cv ↔ ∀ lat lon, ¬Valid cv lat lon := by
  constructor
  · intro accepts lat lon valid
    obtain ⟨scale, truescale, called⟩ := accepts.created ⟨0, [], []⟩ lat lon valid
    rw [processCsvLine_rejected h] at called
    exact absurd (congrArg Form.processed called) (Nat.zero_ne_add_one 0)
  · intro invalid
    constructor
    · intro form lat lon valid
      exact absurd valid (invalid lat lon)
    · intro form _
      exact congrArg Prod.fst (processCsvLine_rejected h form)

theorem acceptsExactly_of_accepted (h : Accepted u.fromUTF8 cv) :
    AcceptsExactly u exactly cv ↔
      ∃ lat lon, Located cv lat lon ∧ exactly lat = .ofRat lat ∧ exactly lon = .ofRat lon := by
  obtain ⟨columns, -, -, named, -⟩ := accepted_iff.mp h
  obtain ⟨scale, truescale, called⟩ := processCsvLine_accepted h ⟨0, [], []⟩
  constructor
  · intro accepts
    by_cases valid : ∃ lat lon, Valid cv lat lon
    · obtain ⟨lat, lon, valid⟩ := valid
      obtain ⟨scale', truescale', called'⟩ := accepts.created ⟨0, [], []⟩ lat lon valid
      rw [called, strtod_of_spells valid.located.latitude, strtod_of_spells valid.located.longitude]
        at called'
      have same := List.singleton_inj.mp (congrArg Form.sent called')
      exact ⟨lat, lon, valid.located, (congrArg Sent.lat same).symm, (congrArg Sent.lon same).symm⟩
    · push Not at valid
      have same := accepts.dropped ⟨0, [], []⟩ valid
      rw [called] at same
      exact absurd (congrArg Form.processed same) (Nat.succ_ne_zero 0)
  · rintro ⟨lat, lon, located, sentLat, sentLon⟩
    constructor
    · intro form lat' lon' valid
      obtain rfl := located.latitude.unique valid.located.latitude
      obtain rfl := located.longitude.unique valid.located.longitude
      obtain ⟨scale, truescale, called⟩ := processCsvLine_accepted h form
      rw [strtod_of_spells located.latitude, strtod_of_spells located.longitude] at called
      rw [sentLat, sentLon]
      exact ⟨scale, truescale, congrArg Prod.fst called⟩
    · intro form invalid
      exact absurd ⟨columns, located, named⟩ (invalid lat lon)

/-- The import does right by a record exactly where it drops it for too few columns, for an empty
text or for a first or second column that begins with a number out of range, or where its texts are
in UTF-8 and its first two columns are decimal numbers in range as a whole, which are sent as they
should be, or where neither is the case. -/
theorem acceptsExactly_iff (u : Utf8) (exactly : ℚ → Number) (cv : List Text) :
    AcceptsExactly u exactly cv ↔
      cv.length < 5 ∨ ¬Named cv ∨ ¬BeginsWithin 90 (cv.getD 0 []) ∨
        ¬BeginsWithin 180 (cv.getD 1 []) ∨
        (Decoded u cv ∧ ∃ lat lon,
          Located cv lat lon ∧ exactly lat = .ofRat lat ∧ exactly lon = .ofRat lon) ∨
        (¬Decoded u cv ∧ ¬∃ lat lon, Located cv lat lon) := by
  by_cases accepted : Accepted u.fromUTF8 cv
  · obtain ⟨columns, north, east, named, decoded⟩ := accepted_iff.mp accepted
    rw [acceptsExactly_of_accepted accepted]
    simp only [not_lt.mpr columns, named, north, east, decoded, not_true, false_or, true_and,
      false_and, or_false]
  · rw [acceptsExactly_of_rejected accepted]
    rw [accepted_iff] at accepted
    constructor
    · intro invalid
      by_cases drops : cv.length < 5 ∨ ¬Named cv
      · tauto
      · push Not at drops
        have nowhere : ¬∃ lat lon, Located cv lat lon := by
          rintro ⟨lat, lon, located⟩
          exact invalid lat lon ⟨drops.1, located, drops.2⟩
        tauto
    · rintro drops lat lon ⟨columns, located, named⟩
      obtain ⟨north, east⟩ := located.beginsWithin
      rcases drops with few | unnamed | out | out | ⟨decoded, -⟩ | ⟨-, nowhere⟩
      · omega
      · exact unnamed named
      · exact out north
      · exact out east
      · exact accepted ⟨columns, north, east, named, decoded⟩
      · exact nowhere ⟨lat, lon, located⟩

def heading : List Text :=
  ["Lat".toList, "Lon".toList, "Object name".toList, "Feature name".toList, "Source".toList]

/-- A file that is a heading alone puts an object at 0°N 0°E, whatever numbers are sent as. -/
theorem heading_is_indexed :
    (∀ exactly, ¬AcceptsExactly ⟨some, by simp⟩ exactly heading) ∧
      csvParse (some (processCsvLine (Utf8.fromUTF8 ⟨some, by simp⟩))) (fun _ => '?')
          "Lat,Lon,Object name,Feature name,Source\n".toList ⟨0, [], []⟩ =
        .ok (0, ⟨1, [⟨"Source".toList, "Feature name".toList, "Object name".toList, .finite 0,
          .finite 0, .finite 0, -1⟩], []⟩) := by
  constructor
  · intro exactly h
    obtain ⟨lat, lon, located, -⟩ := (acceptsExactly_of_accepted
      ⟨by decide, by decide +kernel, by decide +kernel, by decide, by decide, by decide⟩).mp h
    have blank := (@strtodWith_of_spells .finite _ _ located.latitude).2
    have rest : (strtodWith .finite (heading.getD 0 [])).2 = "Lat".toList := by decide +kernel
    rw [rest] at blank
    exact absurd (blank 'L' List.mem_cons_self) (by decide)
  · have called : processCsvLine (Utf8.fromUTF8 ⟨some, by simp⟩) ⟨0, [], []⟩ heading =
        (⟨1, [⟨"Source".toList, "Feature name".toList, "Object name".toList, .finite 0,
          .finite 0, .finite 0, -1⟩], []⟩, 0) := by
      decide +kernel
    have fields : (scan "Lat,Lon,Object name,Feature name,Source".toList) = (heading, true) := by
      decide +kernel
    obtain ⟨m', turn⟩ := csvParse_line (processCsvLine (Utf8.fromUTF8 ⟨some, by simp⟩))
      (fun _ => '?') "Lat,Lon,Object name,Feature name,Source".toList [] ⟨0, [], []⟩ (by decide)
      (by decide) (by decide) (by rw [fields]; decide)
    rw [fields, called, if_pos rfl, if_neg (by decide), if_neg (by decide), csvParse_end] at turn
    exact turn

end ObjSearch.Csv.Import
