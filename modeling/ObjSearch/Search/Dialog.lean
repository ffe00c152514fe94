/- The whole plugin as its user sees it: notifications and the worker, the host's reports, the search
   dialog, and restarts.
   digest: In every reachable state each line of the list describes a stored object, and every jump
   to the chart leads to the object of the line it was made from. -/

import ObjSearch.Search.Centre
import ObjSearch.Search.Jumping
import ObjSearch.Search.Lines

set_option autoImplicit false
set_option relaxedAutoImplicit false

namespace ObjSearch.Search.Dialog

open ObjSearch.Lib.Arrays (Fault)
open ObjSearch.Lib.Decimals (rounded)
open ObjSearch.Lib.Printf
open ObjSearch.Lib.Readback
open ObjSearch.Lib.Texts
open ObjSearch.Index.Storage
open ObjSearch.Index.Notify
open ObjSearch.Index.Effect
open ObjSearch.Index.Session
open ObjSearch.Index.Queueing (posixName alternatingRows)
open ObjSearch.Index.History
open ObjSearch.Index.Origins
open ObjSearch.Scan.Viewports (View ViewPort setCurrentViewPort)
open ObjSearch.Search.CheckList
open ObjSearch.Search.Statements
open ObjSearch.Search.Catalog
open ObjSearch.Search.FindObjects
open ObjSearch.Search.Results (Look Item item results results_eq)
open ObjSearch.Search.Answers
open ObjSearch.Search.Completeness (flatHost)
open ObjSearch.Search.Hemispheres (IsUpperCase isUpperCase_toUpper)
open ObjSearch.Search.Jumping
open ObjSearch.Search.Lines

structure App where
  traced : Traced
  view : View
  boatlat : Double
  boatlon : Double
  popup : Popup
  list : ResultList
  /-- the check box that closes the dialog on a jump -/
  autoClose : Bool
  shown : Bool
  /-- a record of the calls of `JumpToPosition` and the lines that they were made from -/
  jumps : List (Item × Jump)

def App.opened (t : Traced) (autoClose : Bool) (jumps : List (Item × Jump)) : App :=
  ⟨t, .init, .nan, .nan, ⟨[], []⟩, clearObjects, autoClose, false, jumps⟩

inductive Event where
  | index (a : Action)
  | setCurrentViewPort (vp : ViewPort)
  | setPositionFix (lat lon : ℚ)
  /-- `OnToolbarToolCallback` -/
  | toolbar
  /-- a click on an entry of the feature popup -/
  | feature (i : ℕ)
  /-- `OnSearch`, with the range limit in miles and the answer to "do you really want to" -/
  | search (term : Text) (limitRange : ℤ) (showAll : ℤ → Bool)
  /-- `OnItemSelected` -/
  | select (itemIndex : ℕ)
  | deselect
  | autoClose (checked : Bool)
  /-- `OnShowOnChart` or `OnLeftDClick` -/
  | showOnChart
  /-- `OnClose`, and what else hides the dialog -/
  | close
  /-- `DeInit` and the `Init` of the next session -/
  | restart

def App.positions (s : App) : Centre.Plugin :=
  ⟨s.view, s.boatlat, s.boatlon, s.traced.plugin.dbUsable⟩

def switched (b : Bool) (t : Traced) : Traced := { t with plugin := { t.plugin with dbUsable := b } }

variable (getName : Text → Text) (host : Host) (look : Look) (upper : Char → Char)
  (sortItems : List Item → List Item)

/-- A call of `FindObjects`. An exception leaves the list as it is then, unsorted. -/
def App.findObjects (s : App) (c : Call) (showAll : ℤ → Bool) : App :=
  if !s.traced.plugin.dbUsable then s
  else
    let o := FindObjects.findObjects host s.traced.plugin.db s.traced.plugin.dbUsable showAll c
    let items := results host look o
    { s with
      traced := switched o.dbUsable s.traced
      list := { clearObjects with items := if o.thrown = none then sortItems items else items } }

def App.onSearch (s : App) (term : Text) (limitRange : ℤ) (showAll : ℤ → Bool) : App :=
  match FindObjects.onSearch s.popup term s.positions.getLat s.positions.getLon limitRange with
  | none => s
  | some c => s.findObjects host look sortItems c showAll

def App.onShowOnChart (s : App) : Except Fault App :=
  match Jumping.onShowOnChart upper s.list with
  | .error fault => .error fault
  | .ok none => .ok s
  | .ok (some jump) => .ok { s with
      jumps := s.jumps ++ [jump]
      shown := if s.autoClose then false else s.shown }

def App.step (s : App) : Event → Except Fault App
  | .index a => .ok { s with traced := tracedAct getName s.traced a }
  | .setCurrentViewPort vp => .ok { s with view := setCurrentViewPort s.view vp }
  | .setPositionFix lat lon => .ok { s with boatlat := .finite lat, boatlon := .finite lon }
  | .toolbar => .ok { s with popup := s.popup.offer s.traced.plugin.featuresInDb, shown := true }
  | .feature i => .ok { s with popup := s.popup.click i }
  | .search term limitRange showAll => .ok (s.onSearch host look sortItems term limitRange showAll)
  | .select itemIndex =>
    if itemIndex < s.list.items.length then
      .ok { s with list := { s.list with selected := some itemIndex, showOnChart := true } }
    else .ok s
  | .deselect => .ok { s with list := { s.list with selected := none } }
  | .autoClose checked => .ok { s with autoClose := checked }
  | .showOnChart => s.onShowOnChart upper
  | .close => .ok { s with shown := false }
  | .restart => .ok (.opened (restart s.traced) s.autoClose s.jumps)

def run (s : App) : List Event → Except Fault App
  | [] => .ok s
  | e :: es =>
    match s.step getName host look upper sortItems e with
    | .error fault => .error fault
    | .ok s => run s es

def notified (es : List Event) : List Notification :=
  es.flatMap fun
    | .index a => notifications [a]
    | _ => []

/-! What holds in every state. -/

structure LineOf (ns : List Notification) (n : Notification) (i : Item) : Prop where
  told : n ∈ ns
  storable : Storable n
  line : ∃ a, i = item host look a ∧ Describes getName ns n a ∧ OnMap a.lat a.lon

/-- The jump leads to the object: to its position, as far as the list tells it, and to the scale
that a notification of its chart named, or to the least scale. -/
structure LeadsTo (ε : ℚ) (ns : List Notification) (n : Notification) (j : Jump) : Prop where
  lat : |j.lat - n.lat| ≤ ε + 1 / 2000000
  lon : |j.lon - wrapped n.lon| ≤ ε + 1 / 2000000
  scale : j.scale = 1 / 1000 ∨ ∃ m ∈ ns, chartName getName m = chartName getName n ∧
    j.scale = max (1 / 1000) (rounded 4 (written m.scale))

/-- With notifications `ns` so far. -/
structure Inv (ε : ℚ) (ns : List Notification) (s : App) : Prop where
  /-- but for the switch, which a failing search has turned -/
  sound : Sound (switched true s.traced)
  written : WrittenFor getName ns (switched true s.traced)
  told : ∀ n ∈ s.traced.stored ++ s.traced.pending, n ∈ ns
  popup : s.popup = ⟨[], []⟩ ∨ s.popup.Consistent
  values : ∀ v ∈ s.popup.values, '\'' ∉ v
  lines : ∀ i ∈ s.list.items, ∃ n ∈ s.traced.stored, LineOf getName host look ns n i
  selected : ∀ itemIndex ∈ s.list.selected, itemIndex < s.list.items.length
  enabled : s.list.showOnChart → s.list.items ≠ []
  jumps : ∀ j ∈ s.jumps, ∃ n, LineOf getName host look ns n j.1 ∧ LeadsTo getName ε ns n j.2

variable {getName host look upper sortItems} {ε : ℚ} {ns : List Notification} {s : App}

theorem Describes.mono {ms : List Notification} {n : Notification} {a : Added}
    (h : Describes getName ns n a) (more : ns ⊆ ms) : Describes getName ms n a :=
  ⟨h.feature, h.objectname, h.lat, h.lon, h.chart.imp_right fun ⟨m, hm, rest⟩ => ⟨m, more hm, rest⟩⟩

theorem LineOf.mono {ms : List Notification} {n : Notification} {i : Item}
    (h : LineOf getName host look ns n i) (more : ns ⊆ ms) : LineOf getName host look ms n i := by
  obtain ⟨a, line, describes, onMap⟩ := h.line
  exact ⟨more h.told, h.storable, a, line, Describes.mono describes more, onMap⟩

theorem LeadsTo.mono {ms : List Notification} {n : Notification} {j : Jump}
    (h : LeadsTo getName ε ns n j) (more : ns ⊆ ms) : LeadsTo getName ε ms n j :=
  ⟨h.lat, h.lon, h.scale.imp_right fun ⟨m, hm, rest⟩ => ⟨m, more hm, rest⟩⟩

theorem WrittenFor.mono {ms : List Notification} {t : Traced} (h : WrittenFor getName ns t)
    (more : ns ⊆ ms) : WrittenFor getName ms t := by
  refine ⟨fun r hr => ?_, fun r hr => ?_, h.stored, h.queued⟩
  · obtain ⟨m, hm, row⟩ := h.charts r hr
    exact ⟨m, more hm, row⟩
  · obtain ⟨m, hm, row⟩ := h.features r hr
    exact ⟨m, more hm, row⟩

theorem switched_of_usable {b : Bool} {t : Traced} (h : t.plugin.dbUsable = b) : switched b t = t := by
  subst h
  rfl

theorem switched_serve {t : Traced} (sound : Sound (switched true t)) :
    switched true (tracedAct getName t .serve) = tracedAct getName (switched true t) .serve := by
  obtain ⟨p, stored, pending⟩ := t
  have usable : (serve { p with dbUsable := true }).dbUsable = true := (ready_serve sound.ready).usable
  have same : { serve p with dbUsable := true } = serve { p with dbUsable := true } := by
    obtain ⟨b, running, wait, loading, charts, features, queue, db⟩ := p
    cases queue with
    | nil => rfl
    | cons sql rest =>
      dsimp only [serve, queryDB] at usable ⊢
      cases ran : db.executeUpdate sql with
      | ok db' => rfl
      | error failed =>
        rw [ran] at usable
        cases usable
  exact congrArg (fun q => (⟨q, stored ++ pending.take 1, pending.tail⟩ : Traced)) same

/-- A database that is not used takes no notification. -/
theorem tracedAct_notify_off {t : Traced} (off : t.plugin.dbUsable = false) (n : Notification) :
    tracedAct getName t (.notify n) = t := by
  have ignored : sendVectorChartObjectInfo getName t.plugin n = t.plugin := by
    simp [sendVectorChartObjectInfo, off]
  have still : ¬Queues getName t.plugin n := fun grown => grown (congrArg Plugin.queryQueue ignored)
  obtain ⟨p, stored, pending⟩ := t
  show (⟨sendVectorChartObjectInfo getName p n, stored,
    if Queues getName p n then pending ++ [n] else pending⟩ : Traced) = _
  rw [ignored, if_neg still]

theorem sound_index {a : Action} (sound : Sound (switched true s.traced))
    (written_ : WrittenFor getName ns (switched true s.traced)) (plain : PlainRun getName [a]) :
    Sound (switched true (tracedAct getName s.traced a)) ∧
      WrittenFor getName (ns ++ notifications [a]) (switched true (tracedAct getName s.traced a)) := by
  cases a with
  | serve =>
    rw [switched_serve sound]
    refine ⟨sound_serve sound, ?_⟩
    rw [show notifications [Action.serve] = [] from rfl, List.append_nil]
    exact writtenFor_serve written_ sound
  | notify n =>
    have plain : Plain getName n := plain n List.mem_cons_self
    cases usable : s.traced.plugin.dbUsable with
    | false =>
      rw [tracedAct_notify_off usable]
      exact ⟨sound, WrittenFor.mono written_ (List.subset_append_left _ _)⟩
    | true =>
      rw [switched_of_usable usable] at sound written_
      have after := sound_notify sound plain.inserts
      rw [switched_of_usable after.ready.usable]
      exact ⟨after, writtenFor_notify written_ sound plain.inserts⟩

theorem inv_index {a : Action} (inv : Inv getName host look ε ns s) (plain : PlainRun getName [a]) :
    Inv getName host look ε (ns ++ notifications [a])
      { s with traced := tracedAct getName s.traced a } := by
  have more : ns ⊆ ns ++ notifications [a] := List.subset_append_left _ _
  obtain ⟨sound, written_⟩ := sound_index inv.sound inv.written plain
  refine ⟨sound, written_, ?_, inv.popup, inv.values, ?_, inv.selected, inv.enabled, ?_⟩
  · intro n hn
    rcases List.mem_append.mp ((sublist_tracedAct s.traced a).subset hn) with before | now
    · exact more (inv.told n before)
    · exact List.mem_append_right _ now
  · intro i hi
    obtain ⟨n, hn, line⟩ := inv.lines i hi
    exact ⟨n, stored_tracedAct _ _ hn, line.mono more⟩
  · intro j hj
    obtain ⟨n, line, leads⟩ := inv.jumps j hj
    exact ⟨n, line.mono more, leads.mono more⟩

theorem inv_toolbar (inv : Inv getName host look ε ns s) (plain : ∀ n ∈ ns, Plain getName n) :
    Inv getName host look ε ns
      { s with popup := s.popup.offer s.traced.plugin.featuresInDb, shown := true } := by
  refine ⟨inv.sound, inv.written, inv.told, .inr (Popup.offer_consistent _), ?_, inv.lines,
    inv.selected, inv.enabled, inv.jumps⟩
  intro v hv
  rw [Popup.offer_values] at hv
  exact plain_features inv.sound inv.written plain v (Std.ExtTreeMap.mem_keys.mp hv)

theorem inv_feature (inv : Inv getName host look ε ns s) (i : ℕ) :
    Inv getName host look ε ns { s with popup := s.popup.click i } := by
  obtain ⟨values, count⟩ := Popup.click_same (p := s.popup) i
  refine ⟨inv.sound, inv.written, inv.told, ?_, ?_, inv.lines, inv.selected, inv.enabled, inv.jumps⟩
  · rcases inv.popup with none | consistent
    · left
      show s.popup.click i = _
      rw [none]
      rfl
    · right
      unfold Popup.Consistent at consistent ⊢
      show (s.popup.click i).getCount = (s.popup.click i).values.length + 1
      rw [count, values, consistent]
  · show ∀ v ∈ (s.popup.click i).values, '\'' ∉ v
    rw [values]
    exact inv.values

theorem exists_filter (inv : Inv getName host look ε ns s) :
    ∃ filter, s.popup.getStringValue = some filter ∧ '\'' ∉ filter := by
  rcases inv.popup with none | consistent
  · rw [none]
    exact ⟨[], rfl, List.not_mem_nil⟩
  · refine ⟨_, Popup.getStringValue_eq consistent, not_mem_joined (by decide) ?_⟩
    intro v chosen
    exact inv.values v (Popup.mem_values_of_mem_chosen chosen)

theorem inv_findObjects (inv : Inv getName host look ε ns s)
    (sorts : ∀ items, (sortItems items).Perm items) {filter : Text} (plain : '\'' ∉ filter)
    (text : Text) (lat lon dist : Double) (showAll : ℤ → Bool) :
    Inv getName host look ε ns
      (s.findObjects host look sortItems ⟨filter, text, lat, lon, dist⟩ showAll) := by
  unfold App.findObjects
  cases usable : s.traced.plugin.dbUsable with
  | false => exact inv
  | true =>
    simp only [Bool.not_true, Bool.false_eq_true, if_false]
    refine ⟨inv.sound, inv.written, inv.told, inv.popup, inv.values, ?_, ?_, ?_, inv.jumps⟩
    · intro i hi
      have line : i ∈ results host look (FindObjects.findObjects host s.traced.plugin.db true
          showAll ⟨filter, text, lat, lon, dist⟩) := by
        dsimp only at hi
        split_ifs at hi
        · exact (sorts _).subset hi
        · exact hi
      rw [results_eq] at line
      obtain ⟨a, ha, rfl⟩ := List.mem_map.mp line
      obtain ⟨n, hn, storable, describes, onMap⟩ :=
        exists_stored_of_added inv.sound inv.written plain text lat lon dist true showAll ha
      exact ⟨n, hn, inv.told n (List.mem_append_left _ hn), storable, a, rfl, describes, onMap⟩
    · intro itemIndex none
      cases none
    · intro enabled
      cases enabled

theorem inv_onSearch (inv : Inv getName host look ε ns s)
    (sorts : ∀ items, (sortItems items).Perm items) (term : Text) (limitRange : ℤ)
    (showAll : ℤ → Bool) :
    Inv getName host look ε ns (s.onSearch host look sortItems term limitRange showAll) := by
  obtain ⟨filter, value, plain⟩ := exists_filter inv
  rw [App.onSearch, onSearch, value]
  split_ifs
  · exact inv
  · exact inv_findObjects inv sorts plain _ _ _ _ _

theorem near_of_written {ε x y z : ℚ} (h : |x - y| ≤ ε) (same : y = written z) :
    |x - z| ≤ ε + 1 / 2000000 := by
  have split : x - z = x - y + (written z - z) := by rw [same]; ring
  rw [split]
  exact (abs_add_le _ _).trans (add_le_add h (abs_written_sub_le z))

theorem exists_jump_of_line (case_ : IsUpperCase upper) (writes : WritesCells ε look)
    {n : Notification} {i : Item} (line : LineOf getName host look ns n i) :
    ∃ j, positionOf upper i = .ok j ∧ LeadsTo getName ε ns n j := by
  obtain ⟨a, rfl, describes, onMap⟩ := line.line
  obtain ⟨lat, lon⟩ := abs_le_of_onMap onMap
  obtain ⟨j, read, nearLat, nearLon, scale⟩ :=
    @positionOf_item upper ε look host case_ writes a lat lon
  refine ⟨j, read, near_of_written nearLat describes.lat, near_of_written nearLon describes.lon, ?_⟩
  rcases describes.chart with ⟨-, none, -⟩ | ⟨m, hm, same, -, scaled, -⟩
  · left
    have zero : rounded 4 0 = 0 := by decide +kernel
    rw [scale, none, zero]
    norm_num
  · right
    exact ⟨m, hm, same, by rw [scale, scaled]⟩

theorem inv_onShowOnChart (inv : Inv getName host look ε ns s) (case_ : IsUpperCase upper)
    (writes : WritesCells ε look) :
    ∃ s', s.onShowOnChart upper = .ok s' ∧ Inv getName host look ε ns s' := by
  unfold App.onShowOnChart onShowOnChart
  cases row : s.list.selected.bind (fun itemIndex => s.list.items[itemIndex]?) with
  | none => exact ⟨s, rfl, inv⟩
  | some i =>
    obtain ⟨itemIndex, -, here⟩ := Option.bind_eq_some_iff.mp row
    obtain ⟨n, -, line⟩ := inv.lines i (List.mem_of_getElem? here)
    obtain ⟨j, read, leads⟩ := exists_jump_of_line case_ writes line
    simp only [read, bind, Except.bind, pure, Except.pure]
    refine ⟨_, rfl, inv.sound, inv.written, inv.told, inv.popup, inv.values, inv.lines,
      inv.selected, inv.enabled, ?_⟩
    intro j' hj
    rcases List.mem_append.mp hj with before | now
    · exact inv.jumps j' before
    · obtain rfl := List.mem_singleton.mp now
      exact ⟨n, line, leads⟩

theorem inv_restart (inv : Inv getName host look ε ns s) :
    Inv getName host look ε ns (.opened (restart s.traced) s.autoClose s.jumps) := by
  have sound : Sound (restart (switched true s.traced)) := sound_restart inv.sound
  have written_ : WrittenFor getName ns (restart (switched true s.traced)) :=
    writtenFor_restart inv.written inv.sound
  refine ⟨sound, written_, ?_, .inl rfl, ?_, ?_, ?_, ?_, inv.jumps⟩
  · intro n hn
    have stored : n ∈ s.traced.stored := by simpa [App.opened, restart] using hn
    exact inv.told n (List.mem_append_left _ stored)
  · intro v none
    cases none
  · intro i none
    cases none
  · intro itemIndex none
    cases none
  · intro enabled
    cases enabled

theorem inv_step (case_ : IsUpperCase upper) (writes : WritesCells ε look)
    (sorts : ∀ items, (sortItems items).Perm items) (inv : Inv getName host look ε ns s) (e : Event)
    (plain : ∀ n ∈ ns ++ notified [e], Plain getName n) :
    ∃ s', s.step getName host look upper sortItems e = .ok s' ∧
      Inv getName host look ε (ns ++ notified [e]) s' := by
  have silent (h : notified [e] = []) : ns ++ notified [e] = ns := by rw [h, List.append_nil]
  cases e with
  | index a =>
    have told : notified [.index a] = notifications [a] := List.append_nil _
    rw [told] at plain ⊢
    exact ⟨_, rfl, inv_index inv fun n hn => plain n (List.mem_append_right _ hn)⟩
  | search term limitRange showAll =>
    rw [silent rfl]
    exact ⟨_, rfl, inv_onSearch inv sorts term limitRange showAll⟩
  | showOnChart =>
    rw [silent rfl]
    exact inv_onShowOnChart inv case_ writes
  | toolbar =>
    rw [silent rfl] at plain ⊢
    exact ⟨_, rfl, inv_toolbar inv plain⟩
  | feature i =>
    rw [silent rfl]
    exact ⟨_, rfl, inv_feature inv i⟩
  | restart =>
    rw [silent rfl]
    exact ⟨_, rfl, inv_restart inv⟩
  | select itemIndex =>
    rw [silent rfl]
    by_cases inside : itemIndex < s.list.items.length
    · refine ⟨_, if_pos inside, inv.sound, inv.written, inv.told, inv.popup, inv.values, inv.lines,
        ?_, ?_, inv.jumps⟩
      · intro i hi
        obtain rfl := Option.some.inj hi
        exact inside
      · intro _
        exact List.ne_nil_of_length_pos (Nat.zero_lt_of_lt inside)
    · exact ⟨s, if_neg inside, inv⟩
  | deselect =>
    rw [silent rfl]
    exact ⟨_, rfl, inv.sound, inv.written, inv.told, inv.popup, inv.values, inv.lines,
      fun _ none => (by cases none), inv.enabled, inv.jumps⟩
  | setCurrentViewPort _ | setPositionFix _ _ | autoClose _ | close =>
    rw [silent rfl]
    exact ⟨_, rfl, inv.sound, inv.written, inv.told, inv.popup, inv.values, inv.lines, inv.selected,
      inv.enabled, inv.jumps⟩

theorem inv_opened (autoClose : Bool) :
    Inv getName host look ε [] (.opened (start Database.created) autoClose []) where
  sound := sound_start
  written := writtenFor_history [] [] (fun _ none => (by cases none)) (fun _ none => (by cases none))
  told := fun _ none => (by cases none)
  popup := .inl rfl
  values := fun _ none => (by cases none)
  lines := fun _ none => (by cases none)
  selected := fun _ none => (by cases none)
  enabled := fun none => (by cases none)
  jumps := fun _ none => (by cases none)

theorem inv_run (case_ : IsUpperCase upper) (writes : WritesCells ε look)
    (sorts : ∀ items, (sortItems items).Perm items) (es : List Event)
    (inv : Inv getName host look ε ns s) (plain : ∀ n ∈ ns ++ notified es, Plain getName n) :
    ∃ s', run getName host look upper sortItems s es = .ok s' ∧
      Inv getName host look ε (ns ++ notified es) s' := by
  induction es generalizing s ns with
  | nil => exact ⟨s, rfl, by simpa [notified] using inv⟩
  | cons e es ih =>
    have split : ns ++ notified (e :: es) = ns ++ notified [e] ++ notified es := by
      simp [notified]
    rw [split] at plain ⊢
    obtain ⟨s', stepped, inv'⟩ := inv_step case_ writes sorts inv e
      fun n hn => plain n (List.mem_append_left _ hn)
    rw [run, stepped]
    exact ih inv' plain

/-- Whatever the host and the user do, over any number of sessions: no cell is read that was not
written, every line of the list is one of a stored object, and every jump leads to the object of the
line that was selected. -/
theorem jumps_lead_to_objects (case_ : IsUpperCase upper) (writes : WritesCells ε look)
    (sorts : ∀ items, (sortItems items).Perm items) (es : List Event)
    (plain : ∀ n ∈ notified es, Plain getName n) (autoClose : Bool) :
    ∃ s, run getName host look upper sortItems (.opened (start Database.created) autoClose []) es =
        .ok s ∧
      (∀ i ∈ s.list.items, ∃ n ∈ s.traced.stored, LineOf getName host look (notified es) n i) ∧
      (∀ itemIndex ∈ s.list.selected, itemIndex < s.list.items.length) ∧
      ∀ j ∈ s.jumps, ∃ n, LineOf getName host look (notified es) n j.1 ∧
        LeadsTo getName ε (notified es) n j.2 := by
  obtain ⟨s, ran, inv⟩ := inv_run case_ writes sorts es (inv_opened autoClose) plain
  exact ⟨s, ran, inv.lines, inv.selected, inv.jumps⟩

def firstLight : List Event :=
  alternatingRows.map .index ++ [.index .serve, .index .serve, .toolbar, .setPositionFix 10 20,
    .search "First".toList 0 (fun _ => true), .select 0, .showOnChart]

theorem jumps_lead_to_objects_firstLight :
    ∃ s, run posixName flatHost minutesLook Char.toUpper id
        (.opened (start Database.created) true []) firstLight = .ok s ∧
      (∀ i ∈ s.list.items, ∃ n ∈ s.traced.stored,
        LineOf posixName flatHost minutesLook (notified firstLight) n i) ∧
      (∀ itemIndex ∈ s.list.selected, itemIndex < s.list.items.length) ∧
      ∀ j ∈ s.jumps, ∃ n, LineOf posixName flatHost minutesLook (notified firstLight) n j.1 ∧
        LeadsTo posixName (1 / (120 * 10 ^ 4)) (notified firstLight) n j.2 :=
  jumps_lead_to_objects isUpperCase_toUpper writesCells_minutesLook (fun _ => List.Perm.refl _)
    firstLight (by unfold Plain; decide) true

end ObjSearch.Search.Dialog
