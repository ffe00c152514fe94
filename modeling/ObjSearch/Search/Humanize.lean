/- The names of the feature classes, as the list shows them.
   digest: Two lines that read alike in the first column are of classes whose names differ in the case
   of letters alone, or of the two time series, or one class is spelled as the other is shown. -/

import Mathlib
import ObjSearch.Search.Dialog

set_option autoImplicit false
set_option relaxedAutoImplicit false

namespace ObjSearch.Search.Humanize

open ObjSearch.Lib.Texts
open ObjSearch.Index.Storage
open ObjSearch.Index.Notify
open ObjSearch.Index.Effect
open ObjSearch.Index.Queueing (posixName)
open ObjSearch.Index.History
open ObjSearch.Search.Catalog (Host)
open ObjSearch.Search.Results (Item)
open ObjSearch.Search.Completeness (flatHost)
open ObjSearch.Search.Hemispheres (IsUpperCase isUpperCase_toUpper)
open ObjSearch.Search.Jumping
open ObjSearch.Search.Dialog

def table (rows : List (String × String)) : List (Text × Text) :=
  rows.map fun (name, label) => (name.toList, label.toList)

/-- ENC objects, which may have an inland version. -/
def encObjects : List (Text × Text) := table
  [("ADMARE", "Administration area (Named)"), ("AIRARE", "Airport / airfield"),
   ("ACHBRT", "Anchor berth"), ("ACHARE", "Anchorage area"), ("BCNCAR", "Beacon, cardinal"),
   ("BCNISD", "Beacon, isolated danger"), ("BCNLAT", "Beacon, lateral"),
   ("BCNSAW", "Beacon, safe water"), ("BCNSPP", "Beacon, special purpose/general"),
   ("BERTHS", "Berth"), ("BRIDGE", "Bridge"), ("BUISGL", "Building, single"),
   ("BUAARE", "Built-up area"), ("BOYCAR", "Buoy, cardinal"), ("BOYINB", "Buoy, installation"),
   ("BOYISD", "Buoy, isolated danger"), ("BOYLAT", "Buoy, lateral"),
   ("BOYSAW", "Buoy, safe water"), ("BOYSPP", "Buoy, special purpose/general"),
   ("CBLARE", "Cable area"), ("CBLOHD", "Cable, overhead"), ("CBLSUB", "Cable, submarine"),
   ("CANALS", "Canal"), ("CANBNK", "Canal bank"), ("CTSARE", "Cargo transshipment area"),
   ("CAUSWY", "Causeway"), ("CHIMNY", "Chimney"), ("CHKPNT", "Checkpoint"),
   ("CGUSTA", "Coastguard station"), ("COALNE", "Coastline"), ("COSARE", "Continental shelf area"),
   ("CTRPNT", "Control point"), ("CONVYR", "Conveyor"), ("CRANES", "Crane"),
   ("CURENT", "Current - non - gravitational"), ("DAMCON", "Dam"), ("DAYMAR", "Daymark"),
   ("DWRTCL", "Deep water route centerline"), ("DWRTPT", "Deep water route part"),
   ("DISMAR", "Distance mark"), ("DOCARE", "Dock area"), ("DRGARE", "Dredged area"),
   ("DRYDOC", "Dry dock"), ("DMPGRD", "Dumping ground"), ("FAIRWY", "Fairway"),
   ("FNCLNE", "Fence/wall"), ("FERYRT", "Ferry route"), ("FSHZNE", "Fishery zone"),
   ("FSHFAC", "Fishing facility"), ("FSHGRD", "Fishing ground"), ("FLODOC", "Floating dock"),
   ("FOGSIG", "Fog signal"), ("FORSTC", "Fortified structure"), ("FRPARE", "Free port area"),
   ("GATCON", "Gate"), ("GRIDRN", "Gridiron"), ("HRBARE", "Harbour area (administrative)"),
   ("HRBFAC", "Harbour facility"), ("HULKES", "Hulk"), ("ICEARE", "Ice area"),
   ("ICNARE", "Incineration area"), ("LAKARE", "Lake"), ("LAKSHR", "Lake shore"),
   ("LNDARE", "Land area"), ("LNDELV", "Land elevation"), ("LNDRGN", "Land region"),
   ("LNDMRK", "Landmark"), ("LIGHTS", "Light"), ("LITFLT", "Light float"),
   ("LITVES", "Light vessel"), ("LOCMAG", "Local magnetic anomaly"), ("LOKBSN", "Lock basin"),
   ("LOGPON", "Log pond"), ("MARCUL", "Marine farm/culture"), ("MIPARE", "Military practice area"),
   ("MORFAC", "Mooring/warping facility"), ("OBSTRN", "Obstruction"),
   ("OFSPLF", "Offshore platform"), ("OSPARE", "Offshore production area"),
   ("OILBAR", "Oil barrier"), ("PILPNT", "Pile"), ("PILBOP", "Pilot boarding place"),
   ("PIPARE", "Pipeline area"), ("PIPOHD", "Pipeline, overhead"),
   ("PIPSOL", "Pipeline, submarine/on land"), ("PONTON", "Pontoon"),
   ("PRDARE", "Production / storage area"), ("PYLONS", "Pylon/bridge support"),
   ("RADLNE", "Radar line"), ("RADRNG", "Radar range"), ("RADSTA", "Radar station"),
   ("RTPBCN", "Radar transponder beacon"), ("RDOCAL", "Radio calling-in point"),
   ("RDOSTA", "Radio station"), ("RAILWY", "Railway"), ("RAPIDS", "Rapids"),
   ("RCRTCL", "Recommended route centerline"), ("RECTRC", "Recommended track"),
   ("RSCSTA", "Rescue station"), ("RESARE", "Restricted area"), ("RIVERS", "River"),
   ("RIVBNK", "River bank"), ("ROADWY", "Road"), ("RUNWAY", "Runway"),
   ("SEAARE", "Sea area / named water area"), ("SPLARE", "Sea-plane landing area"),
   ("SBDARE", "Seabed area"), ("SLCONS", "Shoreline Construction"),
   ("SISTAT", "Signal station, traffic"), ("SISTAW", "Signal station, warning"),
   ("SILTNK", "Silo / tank"), ("SLOTOP", "Slope topline"), ("SLOGRD", "Sloping ground"),
   ("SMCFAC", "Small craft facility"), ("SOUNDG", "Sounding"), ("SPRING", "Spring"),
   ("SQUARE", "Square"), ("SUBTLN", "Submarine transit lane"),
   ("TS_PRH", "Tidal stream - harmonic prediction"),
   ("TS_PNH", "Tidal stream - non-harmonic prediction"), ("TS_PAD", "Tidal stream panel data"),
   ("TS_TIS", "Tidal stream - time series"), ("T_HMON", "Tide - harmonic prediction"),
   ("T_NHMN", "Tide - non-harmonic prediction"), ("T_TIMS", "Tidal stream - time series"),
   ("TIDEWY", "Tideway"), ("TREPNT", "Tree"), ("TUNNEL", "Tunnel"),
   ("UWTROC", "Underwater rock / awash rock"), ("VEGATN", "Vegetation"),
   ("WATTUR", "Water turbulence"), ("WATFAL", "Waterfall"), ("WEDKLP", "Weed/Kelp"),
   ("WRECKS", "Wreck"), ("TS_FEB", "Tidal stream - flood/ebb"), ("C_AGGR", "Aggregation"),
   ("C_ASSO", "Association"), ("BRTFAC", "Berthing facility"), ("BUIREL", "Building, religious"),
   ("CTNARE", "Caution area"), ("MONUMT", "Monument"), ("PRDINS", "Production installation"),
   ("SLTPAN", "Salt pan"), ("TNKCON", "Tank"), ("TOWERS", "Tower structure"),
   ("WNDMIL", "Windmill")]

/-- IENC-only objects, and the special cases of CM93. -/
def otherObjects : List (Text × Text) := table
  [("canbnk", "Canal bank"), ("rivbnk", "River bank"), ("wtwaxs", "waterway axis"),
   ("brgare", "Bridge area"), ("lokare", "Lock area"), ("bcnwtw", "Beacon water-way"),
   ("boywtw", "Buoy water-way"), ("rtplpt", "Route planning point"),
   ("comare", "Communication area"), ("wtwgag", "Waterway gauge"), ("termnl", "Terminal"),
   ("notmrk", "Notice mark"), ("bunsta", "Bunker station"), ("hrbbsn", "Harbour basin"),
   ("refdmp", "Refuse dump"), ("trnbsn", "Turning basin"), ("_texto", "Text label"),
   ("_extgn", "Extended navigational aid")]

/-- Two classes under one label. -/
def timeSeries : List Text := ["TS_TIS".toList, "T_TIMS".toList]

def timeSeriesLabel : Text := "Tidal stream - time series".toList

def labels : List Text := (encObjects ++ otherObjects).map Prod.snd

/-! The tables. -/

def banks : List Text := ["canbnk".toList, "rivbnk".toList]

def rows : List (Text × Text) := encObjects ++ otherObjects.filter fun row => !banks.contains row.1

def othersLabels : List Text := (rows.filter fun row => !timeSeries.contains row.1).map Prod.snd

theorem rows_subset : rows ⊆ encObjects ++ otherObjects :=
  (List.Sublist.append_left List.filter_sublist encObjects).subset

/-- The labels of the other rows are all different, which their order shows. The ENC objects' names
have no small letters, and the others' have. No label reads as an inland version. -/
theorem rows_checked :
    (∀ row ∈ rows, row.1 ∈ timeSeries ↔ row.2 = timeSeriesLabel) ∧
    (othersLabels.insertionSort (· ≤ ·)).IsChain (· < ·) ∧
    (∀ row ∈ encObjects, ¬row.1.any Char.isLower) ∧
    (∀ row ∈ otherObjects, row.1.any Char.isLower) ∧
    (∀ name ∈ banks, encObjects.lookup (name.map Char.toUpper) ≠ none) ∧
    (∀ name ∈ timeSeries, encObjects.lookup name = some timeSeriesLabel) ∧
    ∀ label ∈ labels, ¬"Inland - ".toList <+: label := by
  decide +kernel

theorem mem_timeSeries_iff : ∀ row ∈ rows, row.1 ∈ timeSeries ↔ row.2 = timeSeriesLabel :=
  rows_checked.1

theorem nodup_othersLabels : othersLabels.Nodup :=
  (List.perm_insertionSort _ _).nodup_iff.mp
    (List.isChain_iff_pairwise.mp rows_checked.2.1).nodup

theorem large_encObjects : ∀ row ∈ encObjects, ¬row.1.any Char.isLower := rows_checked.2.2.1

theorem small_otherObjects : ∀ row ∈ otherObjects, row.1.any Char.isLower := rows_checked.2.2.2.1

theorem lookup_banks : ∀ name ∈ banks, encObjects.lookup (name.map Char.toUpper) ≠ none :=
  rows_checked.2.2.2.2.1

theorem lookup_timeSeries : ∀ name ∈ timeSeries, encObjects.lookup name = some timeSeriesLabel :=
  rows_checked.2.2.2.2.2.1

theorem eq_or_series {row row' : Text × Text} (mem : row ∈ rows) (mem' : row' ∈ rows)
    (same : row.2 = row'.2) : row = row' ∨ row.1 ∈ timeSeries ∧ row'.1 ∈ timeSeries := by
  have series := mem_timeSeries_iff row mem
  have series' := mem_timeSeries_iff row' mem'
  by_cases first : row.1 ∈ timeSeries
  · exact .inr ⟨first, series'.mpr (same.symm.trans (series.mp first))⟩
  · have second : row'.1 ∉ timeSeries := fun h => first (series.mpr (same.trans (series'.mp h)))
    left
    exact List.inj_on_of_nodup_map nodup_othersLabels
      (List.mem_filter.mpr ⟨mem, by simpa using first⟩)
      (List.mem_filter.mpr ⟨mem', by simpa using second⟩) same

variable (tr : Text → Text) (upper : Char → Char)

/-- `_("Inland - ")`, for names that are not in capitals. -/
def inland (feature_name_chart : Text) : Text :=
  if feature_name_chart.map upper ≠ feature_name_chart then tr "Inland - ".toList else []

/-- `HumanizeFeatureName`, where `tr` is the locale's `_`. -/
def humanizeFeatureName (feature_name_chart : Text) : Text :=
  match encObjects.lookup (feature_name_chart.map upper) with
  | some label => inland tr upper feature_name_chart ++ tr label
  | none =>
    match otherObjects.lookup feature_name_chart with
    | some label => tr label
    | none => feature_name_chart

def Known (feature_name_chart : Text) : Prop :=
  encObjects.lookup (feature_name_chart.map upper) ≠ none ∨
    otherObjects.lookup feature_name_chart ≠ none

inductive ReadAlike (f g : Text) : Prop
  | same (h : f = g)
  /-- Inland versions of one ENC object, whose names differ in the case of letters alone. -/
  | inland (h : f.map upper = g.map upper) (known : encObjects.lookup (f.map upper) ≠ none)
    (hf : f.map upper ≠ f) (hg : g.map upper ≠ g)
  | series (hf : f.map upper ∈ timeSeries) (hg : g.map upper ∈ timeSeries)
    (h : f.map upper = f ↔ g.map upper = g)
  /-- An unknown name is spelled as the other is shown. -/
  | spelled (unknown : ¬Known upper f) (h : f = humanizeFeatureName tr upper g)
  | shown (unknown : ¬Known upper g) (h : g = humanizeFeatureName tr upper f)

/-- The locale shows different labels differently, and no label as an inland version. -/
structure Apart : Prop where
  differ : ∀ l ∈ labels, ∀ m ∈ labels, tr l = tr m → l = m
  inland : ∀ l ∈ labels, ¬tr "Inland - ".toList <+: tr l

variable {tr upper} {f g : Text}

/-! What one name is shown as. -/

theorem inland_eq_nil (h : f.map upper = f) : inland tr upper f = [] := if_neg (not_not_intro h)

theorem inland_eq (h : f.map upper ≠ f) : inland tr upper f = tr "Inland - ".toList := if_pos h

theorem humanize_enc {label : Text} (h : encObjects.lookup (f.map upper) = some label) :
    humanizeFeatureName tr upper f = inland tr upper f ++ tr label := by
  rw [humanizeFeatureName, h]

theorem humanize_other {label : Text} (none_ : encObjects.lookup (f.map upper) = none)
    (h : otherObjects.lookup f = some label) : humanizeFeatureName tr upper f = tr label := by
  rw [humanizeFeatureName, none_]
  simp only [h]

theorem humanize_unknown (h : ¬Known upper f) : humanizeFeatureName tr upper f = f := by
  rw [Known, not_or, not_not, not_not] at h
  rw [humanizeFeatureName, h.1]
  simp only [h.2]

theorem mem_of_lookup {rows : List (Text × Text)} {name label : Text}
    (h : rows.lookup name = some label) : (name, label) ∈ rows := by
  obtain ⟨before, after, rfl, -⟩ := List.lookup_eq_some_iff.mp h
  exact List.mem_append_right _ List.mem_cons_self

theorem mem_rows_of_other (case_ : IsUpperCase upper) {label : Text}
    (none_ : encObjects.lookup (f.map upper) = none) (h : otherObjects.lookup f = some label) :
    (f, label) ∈ rows := by
  have passes : f ∉ banks := by
    intro bank
    have ascii : ∀ name ∈ banks, name.all fun c => c.toNat < 128 := by decide +kernel
    have same : f.map upper = f.map Char.toUpper :=
      List.map_congr_left fun c hc =>
        case_.ascii c (of_decide_eq_true (List.all_eq_true.mp (ascii f bank) c hc))
    exact lookup_banks f bank (same ▸ none_)
  exact List.mem_append_right _ (List.mem_filter.mpr ⟨mem_of_lookup h, by simpa using passes⟩)

theorem mem_rows_of_enc {label : Text} (h : encObjects.lookup (f.map upper) = some label) :
    (f.map upper, label) ∈ rows := List.mem_append_left _ (mem_of_lookup h)

theorem eq_or_series_of_shown (apart : Apart tr) {row row' : Text × Text} (mem : row ∈ rows)
    (mem' : row' ∈ rows) (same : tr row.2 = tr row'.2) :
    row = row' ∨ row.1 ∈ timeSeries ∧ row'.1 ∈ timeSeries :=
  eq_or_series mem mem' (apart.differ _ (List.mem_map_of_mem (rows_subset mem)) _
    (List.mem_map_of_mem (rows_subset mem')) same)

theorem not_inland (apart : Apart tr) {row : Text × Text} (mem : row ∈ rows) (t : Text) :
    tr "Inland - ".toList ++ t ≠ tr row.2 :=
  fun same => apart.inland _ (List.mem_map_of_mem (rows_subset mem)) ⟨t, same⟩

/-! Two names. -/

theorem readAlike_of_enc (apart : Apart tr) {label label' : Text}
    (hf : encObjects.lookup (f.map upper) = some label)
    (hg : encObjects.lookup (g.map upper) = some label')
    (alike : humanizeFeatureName tr upper f = humanizeFeatureName tr upper g) :
    ReadAlike tr upper f g := by
  have mem := mem_rows_of_enc hf
  have mem' := mem_rows_of_enc hg
  have known : encObjects.lookup (f.map upper) ≠ none := by
    rw [hf]
    exact Option.some_ne_none label
  rw [humanize_enc hf, humanize_enc hg] at alike
  by_cases large : f.map upper = f
  · rw [inland_eq_nil large, List.nil_append] at alike
    by_cases large' : g.map upper = g
    · rw [inland_eq_nil large', List.nil_append] at alike
      rcases eq_or_series_of_shown apart mem mem' alike with same | ⟨series, series'⟩
      · have names : f.map upper = g.map upper := congrArg Prod.fst same
        exact .same (large.symm.trans (names.trans large'))
      · exact .series series series' (iff_of_true large large')
    · rw [inland_eq large'] at alike
      exact absurd alike.symm (not_inland apart mem _)
  · rw [inland_eq large] at alike
    by_cases large' : g.map upper = g
    · rw [inland_eq_nil large', List.nil_append] at alike
      exact absurd alike (not_inland apart mem' _)
    · rw [inland_eq large'] at alike
      rcases eq_or_series_of_shown apart mem mem' (List.append_cancel_left alike) with
        same | ⟨series, series'⟩
      · exact .inland (congrArg Prod.fst same) known large large'
      · exact .series series series' (iff_of_false large large')

theorem not_alike (case_ : IsUpperCase upper) (apart : Apart tr) {label label' : Text}
    (hf : encObjects.lookup (f.map upper) = some label)
    (none_ : encObjects.lookup (g.map upper) = none) (hg : otherObjects.lookup g = some label') :
    humanizeFeatureName tr upper f ≠ humanizeFeatureName tr upper g := by
  intro alike
  have mem := mem_rows_of_enc hf
  have mem' := mem_rows_of_other case_ none_ hg
  have small : g.any Char.isLower := small_otherObjects _ (mem_of_lookup hg)
  rw [humanize_enc hf, humanize_other none_ hg] at alike
  by_cases large : f.map upper = f
  · rw [inland_eq_nil large, List.nil_append] at alike
    rcases eq_or_series_of_shown apart mem mem' alike with same | ⟨-, series⟩
    · have names : f.map upper = g := congrArg Prod.fst same
      rw [← names] at small
      exact large_encObjects _ (mem_of_lookup hf) small
    · have large : ∀ name ∈ timeSeries, ¬name.any Char.isLower := by decide +kernel
      exact large g series small
  · rw [inland_eq large] at alike
    exact not_inland apart mem' _ alike

theorem readAlike_of_other (case_ : IsUpperCase upper) (apart : Apart tr) {label label' : Text}
    (nonef : encObjects.lookup (f.map upper) = none) (hf : otherObjects.lookup f = some label)
    (noneg : encObjects.lookup (g.map upper) = none) (hg : otherObjects.lookup g = some label')
    (alike : humanizeFeatureName tr upper f = humanizeFeatureName tr upper g) :
    ReadAlike tr upper f g := by
  have mem := mem_rows_of_other case_ nonef hf
  rw [humanize_other nonef hf, humanize_other noneg hg] at alike
  rcases eq_or_series_of_shown apart mem (mem_rows_of_other case_ noneg hg) alike with
    same | ⟨series, -⟩
  · exact .same (congrArg Prod.fst same)
  · have first : label = timeSeriesLabel := (mem_timeSeries_iff _ mem).mp series
    have others : ∀ row ∈ otherObjects, row.2 ≠ timeSeriesLabel := by decide +kernel
    exact absurd first (others _ (mem_of_lookup hf))

theorem humanize_of_readAlike (alike : ReadAlike tr upper f g) :
    humanizeFeatureName tr upper f = humanizeFeatureName tr upper g := by
  cases alike with
  | same h => rw [h]
  | inland h known hf hg =>
    obtain ⟨label, row⟩ := Option.ne_none_iff_exists'.mp known
    rw [humanize_enc row, humanize_enc (h ▸ row), inland_eq hf, inland_eq hg]
  | series hf hg h =>
    rw [humanize_enc (lookup_timeSeries _ hf), humanize_enc (lookup_timeSeries _ hg)]
    by_cases large : f.map upper = f
    · rw [inland_eq_nil large, inland_eq_nil (h.mp large)]
    · rw [inland_eq large, inland_eq fun large' => large (h.mpr large')]
  | spelled unknown h => exact (humanize_unknown unknown).trans h
  | shown unknown h => exact ((humanize_unknown unknown).trans h).symm

theorem humanize_eq_iff (case_ : IsUpperCase upper) (apart : Apart tr) :
    humanizeFeatureName tr upper f = humanizeFeatureName tr upper g ↔ ReadAlike tr upper f g := by
  refine ⟨fun alike => ?_, humanize_of_readAlike⟩
  by_cases unknown : ¬Known upper f
  · exact .spelled unknown ((humanize_unknown unknown).symm.trans alike)
  by_cases unknown' : ¬Known upper g
  · exact .shown unknown' ((humanize_unknown unknown').symm.trans alike.symm)
  cases hf : encObjects.lookup (f.map upper) with
  | some label =>
    cases hg : encObjects.lookup (g.map upper) with
    | some label' => exact readAlike_of_enc apart hf hg alike
    | none =>
      have row : otherObjects.lookup g ≠ none := by simpa [Known, hg] using unknown'
      obtain ⟨label', row⟩ := Option.ne_none_iff_exists'.mp row
      exact absurd alike (not_alike case_ apart hf hg row)
  | none =>
    have row : otherObjects.lookup f ≠ none := by simpa [Known, hf] using unknown
    obtain ⟨label, row⟩ := Option.ne_none_iff_exists'.mp row
    cases hg : encObjects.lookup (g.map upper) with
    | some label' => exact absurd alike.symm (not_alike case_ apart hg hf row)
    | none =>
      have row' : otherObjects.lookup g ≠ none := by simpa [Known, hg] using unknown'
      obtain ⟨label', row'⟩ := Option.ne_none_iff_exists'.mp row'
      exact readAlike_of_other case_ apart hf row hg row' alike

/-! The list. -/

section Lines

variable (tr upper) (getName : Text → Text) (host : Host) (toSDMM : ℤ → ℚ → Text)
  (sortItems : List Item → List Item)

/-- Whatever the host and the user have done: two lines of the list read alike in the first column
just where the classes of their objects are shown alike. -/
theorem lines_read_alike {ε : ℚ} (case_ : IsUpperCase upper) (apart : Apart tr)
    (writes : WritesCells ε ⟨humanizeFeatureName tr upper, toSDMM⟩)
    (sorts : ∀ items, (sortItems items).Perm items) (es : List Event)
    (plain : ∀ n ∈ notified es, Plain getName n) (autoClose : Bool) :
    ∃ s, run getName host ⟨humanizeFeatureName tr upper, toSDMM⟩ upper sortItems
        (.opened (start Database.created) autoClose []) es = .ok s ∧
      ∀ i ∈ s.list.items, ∀ j ∈ s.list.items, ∃ n ∈ s.traced.stored, ∃ m ∈ s.traced.stored,
        LineOf getName host ⟨humanizeFeatureName tr upper, toSDMM⟩ (notified es) n i ∧
        LineOf getName host ⟨humanizeFeatureName tr upper, toSDMM⟩ (notified es) m j ∧
        (i.feature = j.feature ↔ ReadAlike tr upper n.feature m.feature) := by
  obtain ⟨s, ran, inv⟩ := inv_run case_ writes sorts es (inv_opened autoClose) plain
  refine ⟨s, ran, fun i hi j hj => ?_⟩
  obtain ⟨n, hn, line⟩ := inv.lines i hi
  obtain ⟨m, hm, line'⟩ := inv.lines j hj
  refine ⟨n, hn, m, hm, line, line', ?_⟩
  obtain ⟨a, rfl, describes, -⟩ := line.line
  obtain ⟨b, rfl, describes', -⟩ := line'.line
  show humanizeFeatureName tr upper a.feature = humanizeFeatureName tr upper b.feature ↔ _
  rw [describes.feature, describes'.feature]
  exact humanize_eq_iff case_ apart

end Lines

theorem apart_id : Apart id where
  differ := fun _ _ _ _ same => same
  inland := rows_checked.2.2.2.2.2.2

theorem writesCells_minutes (humanize : Text → Text) :
    WritesCells (1 / (120 * 10 ^ 4)) ⟨humanize, minutesLook.toSDMM⟩ := writesCells_minutesLook

def bothSeries : List Event := [
  .index (.notify (createObject 10 20 "First".toList "TS_TIS".toList "A".toList 0 0)),
  .index (.notify (createObject 11 21 "Third".toList "T_TIMS".toList "A".toList 0 0)),
  .index .serve, .index .serve, .toolbar, .setPositionFix 10 20,
  .search "ir".toList 0 (fun _ => true)]

theorem lines_read_alike_bothSeries :
    ∃ s, run posixName flatHost ⟨humanizeFeatureName id Char.toUpper, minutesLook.toSDMM⟩
        Char.toUpper id (.opened (start Database.created) true []) bothSeries = .ok s ∧
      ∀ i ∈ s.list.items, ∀ j ∈ s.list.items, ∃ n ∈ s.traced.stored, ∃ m ∈ s.traced.stored,
        LineOf posixName flatHost ⟨humanizeFeatureName id Char.toUpper, minutesLook.toSDMM⟩
          (notified bothSeries) n i ∧
        LineOf posixName flatHost ⟨humanizeFeatureName id Char.toUpper, minutesLook.toSDMM⟩
          (notified bothSeries) m j ∧
        (i.feature = j.feature ↔ ReadAlike id Char.toUpper n.feature m.feature) :=
  lines_read_alike id Char.toUpper posixName flatHost minutesLook.toSDMM id isUpperCase_toUpper
    apart_id (writesCells_minutes _) (fun _ => List.Perm.refl _) bothSeries
    (by unfold Plain; decide) true

end ObjSearch.Search.Humanize
