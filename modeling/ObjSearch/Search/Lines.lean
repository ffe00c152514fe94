/- What stands in the list after any search, whatever its centre and its range are.
   digest: Every line describes an object of the table that was stored for a notification. -/

import ObjSearch.Search.Answers
import ObjSearch.Search.Results

set_option autoImplicit false
set_option relaxedAutoImplicit false

namespace ObjSearch.Search.Lines

open ObjSearch.Lib.Relational (exists_of_forall₂)
open ObjSearch.Lib.Texts (Text)
open ObjSearch.Sql.Eval
open ObjSearch.Sql.Query
open ObjSearch.Index.Storage
open ObjSearch.Index.Notify
open ObjSearch.Index.Effect
open ObjSearch.Index.History
open ObjSearch.Index.Origins
open ObjSearch.Search.Statements
open ObjSearch.Search.Catalog
open ObjSearch.Search.FindObjects
open ObjSearch.Search.Results
open ObjSearch.Search.Answers

variable {host : Host} {db : Database}

theorem exists_of_evalAll_append {cx : Context} {es fs : List Expr} {vs : List Value}
    (values : evalAll cx (es ++ fs) = .ok vs) :
    ∃ us ws, vs = us ++ ws ∧ evalAll cx es = .ok us ∧ evalAll cx fs = .ok ws := by
  induction es generalizing vs with
  | nil => exact ⟨[], vs, rfl, rfl, values⟩
  | cons e es ih =>
    rw [List.cons_append, evalAll] at values
    obtain ⟨v, first, values⟩ := bind_eq_ok.mp values
    obtain ⟨rest, others, values⟩ := bind_eq_ok.mp values
    obtain rfl := Except.ok.inj values
    obtain ⟨us, ws, rfl, left, right⟩ := ih others
    refine ⟨v :: us, ws, rfl, ?_, right⟩
    rw [evalAll, first, left]
    rfl

/-- The stored columns of a row of the list statement do not depend on the centre. -/
theorem exists_added_of_evalAll {o : ObjectRow} {lat lon : Expr} {vs : List Value}
    (values : evalAll ((tables host db).context (listRow db o)) (resultColumns lat lon) = .ok vs) :
    ∃ dist, added host vs = { shown host db 0 0 o with dist := dist } := by
  obtain ⟨us, ws, rfl, stored, -⟩ := @exists_of_evalAll_append _
    [column "f" "featurename", column "o" "objname", column "o" "lat", column "o" "lon",
      column "ch" "scale", column "ch" "nativescale", column "ch" "chartname"]
    [distanceExpr lat lon] vs values
  have same : evalAll ((tables host db).context (listRow db o))
      [column "f" "featurename", column "o" "objname", column "o" "lat", column "o" "lon",
        column "ch" "scale", column "ch" "nativescale", column "ch" "chartname"] = .ok
      [.ofOption .text (featureName db o), .ofOption .text o.objname, .ofOption .real o.lat,
        .ofOption .real o.lon, .ofOption .real ((chartOf db o).bind (fun ch => ch.2.scale)),
        .ofOption .int ((chartOf db o).bind (fun ch => ch.2.nativescale)),
        .ofOption .text ((chartOf db o).bind (fun ch => ch.2.chartname))] := by
    unfold listRow countRow featureName
    cases featureOf db o <;> cases chartOf db o <;> rfl
  obtain rfl := Except.ok.inj (stored.symm.trans same)
  refine ⟨host.toUsrDistance (getDouble (([Value.ofOption .text (featureName db o),
    .ofOption .text o.objname, .ofOption .real o.lat, .ofOption .real o.lon,
    .ofOption .real ((chartOf db o).bind (fun ch => ch.2.scale)),
    .ofOption .int ((chartOf db o).bind (fun ch => ch.2.nativescale)),
    .ofOption .text ((chartOf db o).bind (fun ch => ch.2.chartname))] ++ ws).getD 7 .null)), ?_⟩
  simp [added, shown, getDouble_ofOption, getInt_ofOption, getAsString_ofOption]

theorem exists_object_of_added {filter : Text} (plain : '\'' ∉ filter) (text : Text)
    (lat lon dist : Double) (dbUsable : Bool) (showAll : ℤ → Bool) {a : Added}
    (h : a ∈ (findObjects host db dbUsable showAll ⟨filter, text, lat, lon, dist⟩).added) :
    ∃ r ∈ db.object.rows, ∃ miles, a = { shown host db 0 0 r.2 with dist := miles } := by
  obtain ⟨rows, handed, from_⟩ :=
    @exists_added host db dbUsable showAll ⟨filter, text, lat, lon, dist⟩
  rw [handed] at h
  obtain ⟨vs, here, rfl⟩ := List.mem_map.mp h
  have listed_ := from_ vs here
  unfold listed at listed_
  split at listed_
  · next set ran =>
    obtain ⟨t, rows, table, joined, row, mem, -, values⟩ :=
      exists_joined_of_mem_rows (readSql_listSql_double plain text lat lon dist) rfl ran listed_
    obtain rfl := Except.ok.inj (table.symm.trans (find_object host db))
    obtain rfl := Except.ok.inj (joined.symm.trans joinAll_list)
    obtain ⟨r, hr, rfl⟩ := List.mem_map.mp mem
    exact ⟨r, hr, exists_added_of_evalAll values⟩
  · cases listed_

variable {getName : Text → Text}

/-- After any history, each line of any search describes a stored notification, at a place on the
map. -/
theorem exists_stored_of_added {ns : List Notification} {t : Traced} (sound : Sound t)
    (written_ : WrittenFor getName ns t) {filter : Text} (plain : '\'' ∉ filter) (text : Text)
    (lat lon dist : Double) (dbUsable : Bool) (showAll : ℤ → Bool) {a : Added}
    (h : a ∈ (findObjects host t.plugin.db dbUsable showAll ⟨filter, text, lat, lon, dist⟩).added) :
    ∃ n ∈ t.stored, Storable n ∧ Describes getName ns n a ∧ OnMap a.lat a.lon := by
  obtain ⟨r, hr, miles, rfl⟩ := exists_object_of_added plain text lat lon dist dbUsable showAll h
  have row := List.mem_map_of_mem (f := Prod.snd) hr
  have both : List.Forall₂ (fun n o => ObjectOf t.plugin.db.feature n o ∧
      OnChart getName t.plugin.db.chart n o) t.stored (t.plugin.db.object.rows.map Prod.snd) := by
    have objects := sound.stored
    have charts := written_.stored
    rw [List.forall₂_iff_get] at objects charts ⊢
    exact ⟨objects.1, fun i h h' => ⟨objects.2 i h h', charts.2 i h h'⟩⟩
  obtain ⟨n, hn, object, on⟩ := exists_of_forall₂ (List.Forall₂.flip (R := flip _) both) row
  have described := @describes_shown getName host 0 0 ns t n r.2 written_ object on
  refine ⟨n, hn, object.storable, ⟨described.feature, described.objectname, described.lat,
    described.lon, described.chart⟩, ?_⟩
  exact onMap_of_objectOf object

end ObjSearch.Search.Lines
