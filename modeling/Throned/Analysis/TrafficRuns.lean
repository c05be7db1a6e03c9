import Throned.Analysis.TrafficRollup

/-!
# No byte of the traffic statistics is lost

An account has the four places where the bytes of its keys are: the two tiers of the
database, the rows on their way to it, and the accumulator.  Every step of the statistics
moves bytes between them, or adds those of its call.
-/

set_option autoImplicit false

namespace Throned.Stats

open Throned.Library

/-! ## Accounts -/

/-- Where the bytes of one kind of key are. -/
structure Account (κ : Type) where
  tiers : Tiers κ
  inFlight : Rows κ
  accum : Ledger κ Amount

namespace Account

variable {κ : Type} [DecidableEq κ] {a : Account κ} {k : κ}

/-- The bytes of a key in all places. -/
def held (a : Account κ) (k : κ) : Amount :=
  (a.tiers.sum fun key => key.2 = k) + (sumIf (fun key => key.2 = k) a.inFlight) +
    a.accum.total fun key => key = k

/-- The rows that a drain makes have the bytes of the accumulator. -/
theorem sumIf_drained (bucket : Int) (accum : Ledger κ Amount) :
    sumIf (fun key => key.2 = k) (TrafficStats.drained bucket accum) =
      accum.total fun key => key = k := by
  unfold TrafficStats.drained Ledger.total
  induction accum.rows with
  | nil => rfl
  | cons row rows ih =>
    rw [List.filter_cons, sumIf_cons, ← ih]
    by_cases hrow : row.2 = (0, 0)
    · have hzero : (if decide (row.1 = k) = true then row.2 else 0) = (0 : Amount) := by
        rw [hrow]
        exact ite_self _
      rw [if_neg (by simp [hrow]), hzero, zero_add]
    · rw [if_pos (by simp [hrow]), List.map_cons, sumIf_cons]

theorem held_drain (bucket : Int) :
    held { a with inFlight := a.inFlight ++ TrafficStats.drained bucket a.accum, accum := .empty } k =
      a.held k := by
  have hempty : (Ledger.empty : Ledger κ Amount).total (fun key => key = k) = 0 := rfl
  unfold held
  rw [sumIf_append, sumIf_drained, hempty]
  abel

theorem held_add (key : κ) (amount : Amount) :
    held { a with accum := a.accum.add key amount } k =
      a.held k + if key = k then amount else 0 := by
  unfold held
  rw [Ledger.total_add]
  simp only [decide_eq_true_eq]
  abel

/-- Rows leave for the minute tier. -/
theorem held_upsert {earlier rows later : Rows κ} (h : a.inFlight = earlier ++ rows ++ later) :
    held { a with tiers := a.tiers.upsertMinuteBatch rows, inFlight := earlier ++ later } k =
      a.held k := by
  unfold held Tiers.sum Tiers.upsertMinuteBatch
  rw [h, Ledger.total_addAll, sumIf_append, sumIf_append, sumIf_append]
  abel

theorem held_rollup (olderThanSecs : Int) :
    held { a with tiers := a.tiers.rollup olderThanSecs } k = a.held k := by
  unfold held
  rw [Tiers.sum_rollup fun key _ _ => rfl]

end Account

/-! ## The accounts of the statistics -/

def Batch.configRows : Batch → Rows Int
  | .config rows => rows
  | .app _ => []

def Batch.appRows : Batch → Rows AppKey
  | .config _ => []
  | .app rows => rows

namespace TrafficStats

variable {s : TrafficStats}

def configAccount (s : TrafficStats) : Account Int :=
  ⟨s.config, s.writes.flatten.flatMap Batch.configRows, s.configAccum⟩

def appAccount (s : TrafficStats) : Account AppKey :=
  ⟨s.app, s.writes.flatten.flatMap Batch.appRows, s.appAccum⟩

theorem configRows_batches (cfg : Rows Int) (app : Rows AppKey) :
    (batches cfg app).flatMap Batch.configRows = cfg := by
  unfold batches
  by_cases hcfg : cfg = []
  · by_cases happ : app = []
    · simp [hcfg, happ]
    · simp [hcfg, happ, Batch.configRows]
  · by_cases happ : app = []
    · simp [hcfg, happ, Batch.configRows]
    · simp [hcfg, happ, Batch.configRows]

theorem appRows_batches (cfg : Rows Int) (app : Rows AppKey) :
    (batches cfg app).flatMap Batch.appRows = app := by
  unfold batches
  by_cases hcfg : cfg = []
  · by_cases happ : app = []
    · simp [hcfg, happ]
    · simp [hcfg, happ, Batch.appRows]
  · by_cases happ : app = []
    · simp [hcfg, happ, Batch.appRows]
    · simp [hcfg, happ, Batch.appRows]

theorem held_drainLocked (bucket : Int) :
    (∀ id, (s.drainLocked bucket).configAccount.held id = s.configAccount.held id) ∧
      ∀ key, (s.drainLocked bucket).appAccount.held key = s.appAccount.held key := by
  constructor
  · intro id
    rw [← Account.held_drain (a := s.configAccount) bucket]
    unfold configAccount drainLocked
    simp only [List.flatten_append, List.flatMap_append, List.flatten_singleton,
      configRows_batches]
  · intro key
    rw [← Account.held_drain (a := s.appAccount) bucket]
    unfold appAccount drainLocked
    simp only [List.flatten_append, List.flatMap_append, List.flatten_singleton, appRows_batches]

theorem held_moveTo (nowBucket : Int) :
    (∀ id, (s.moveTo nowBucket).configAccount.held id = s.configAccount.held id) ∧
      ∀ key, (s.moveTo nowBucket).appAccount.held key = s.appAccount.held key := by
  unfold moveTo
  simp only
  split
  · exact held_drainLocked (s := s) s.currentBucket
  · exact ⟨fun _ => rfl, fun _ => rfl⟩

/-- The rows on their way, before and after the next transaction of a call. -/
theorem flatMap_set {κ : Type} (rowsOf : Batch → Rows κ) {writes : List (List Batch)} {k : ℕ}
    {batch : Batch} {rest : List Batch} (h : writes[k]? = some (batch :: rest)) :
    ∃ earlier later, writes.flatten.flatMap rowsOf = earlier ++ rowsOf batch ++ later ∧
      (writes.set k rest).flatten.flatMap rowsOf = earlier ++ later := by
  obtain ⟨hlt, hget⟩ := List.getElem?_eq_some_iff.mp h
  have hwrites : writes.take k ++ (batch :: rest) :: writes.drop (k + 1) = writes := by
    rw [← hget, List.getElem_cons_drop, List.take_append_drop]
  refine ⟨(writes.take k).flatten.flatMap rowsOf,
    rest.flatMap rowsOf ++ (writes.drop (k + 1)).flatten.flatMap rowsOf, ?_, ?_⟩
  · conv_lhs => rw [← hwrites]
    simp only [List.flatten_append, List.flatten_cons, List.flatMap_append, List.flatMap_cons,
      List.append_assoc]
  · rw [List.set_eq_take_append_cons_drop, if_pos hlt]
    simp only [List.flatten_append, List.flatten_cons, List.flatMap_append]

/-- One transaction of a call. -/
theorem held_write (k : ℕ) :
    (∀ id, (s.write k).configAccount.held id = s.configAccount.held id) ∧
      ∀ key, (s.write k).appAccount.held key = s.appAccount.held key := by
  unfold write
  split
  · rename_i batch rest heq
    obtain ⟨earlier, later, hconfig, hconfig'⟩ := flatMap_set Batch.configRows heq
    obtain ⟨earlier', later', happ, happ'⟩ := flatMap_set Batch.appRows heq
    cases batch with
    | config rows =>
      constructor
      · intro id
        rw [← Account.held_upsert (a := s.configAccount) hconfig]
        unfold configAccount writeBatch Batch.configRows
        simp only
        rw [← hconfig']
        rfl
      · intro key
        unfold appAccount writeBatch
        simp only
        rw [happ, happ']
        simp only [Batch.appRows, List.append_nil]
    | app rows =>
      constructor
      · intro id
        unfold configAccount writeBatch
        simp only
        rw [hconfig, hconfig']
        simp only [Batch.configRows, List.append_nil]
      · intro key
        rw [← Account.held_upsert (a := s.appAccount) happ]
        unfold appAccount writeBatch Batch.appRows
        simp only
        rw [← happ']
        rfl
  · exact ⟨fun _ => rfl, fun _ => rfl⟩

/-! ## What the calls add -/

/-- What a call adds for a profile. -/
def Event.configDelta (id : Int) : Event → Amount
  | .addConfigDelta profileId up down _ => if profileId = id then (up, down) else 0
  | _ => 0

/-- What a call adds for a process and an outbound. -/
def Event.appDelta (key : AppKey) : Event → Amount
  | .addAppDelta processName outbound up down _ =>
    if (processName, outbound) = key then (up, down) else 0
  | _ => 0

def run (s : TrafficStats) (events : List Event) : TrafficStats := events.foldl step s

/-- **One step keeps the bytes of a profile**, but for what it adds. -/
theorem held_step_config (ev : Event) (id : Int) :
    (s.step ev).configAccount.held id = s.configAccount.held id + ev.configDelta id := by
  cases ev with
  | addConfigDelta profileId up down now =>
    simp only [step, AddConfigDelta, Event.configDelta]
    split
    · rename_i hzero
      rw [hzero.1, hzero.2]
      exact (add_zero _).symm.trans (congrArg _ (ite_self _).symm)
    · have hadd := Account.held_add (a := (s.moveTo (alignMinute now)).configAccount) (k := id)
        profileId (up, down)
      rw [(held_moveTo (alignMinute now)).1 id] at hadd
      exact hadd
  | addAppDelta processName outbound up down now =>
    simp only [step, AddAppDelta, Event.configDelta]
    rw [add_zero]
    split
    · rfl
    · exact (held_moveTo (alignMinute now)).1 id
  | flush =>
    simp only [step, Flush, Event.configDelta]
    rw [add_zero]
    split
    · rfl
    · exact (held_drainLocked _).1 id
  | write k =>
    simp only [step, Event.configDelta]
    rw [add_zero]
    exact (held_write k).1 id
  | rollup olderThanSecs =>
    simp only [step, Event.configDelta]
    rw [add_zero]
    exact Account.held_rollup (a := s.configAccount) olderThanSecs

/-- **One step keeps the bytes of a process and an outbound**, but for what it adds. -/
theorem held_step_app (ev : Event) {key : AppKey} (hkey : key.1 ≠ []) :
    (s.step ev).appAccount.held key = s.appAccount.held key + ev.appDelta key := by
  cases ev with
  | addConfigDelta profileId up down now =>
    simp only [step, AddConfigDelta, Event.appDelta]
    rw [add_zero]
    split
    · rfl
    · exact (held_moveTo (alignMinute now)).2 key
  | addAppDelta processName outbound up down now =>
    simp only [step, AddAppDelta, Event.appDelta]
    split
    · rename_i hskip
      rcases hskip with hname | hzero
      · have hne : (processName, outbound) ≠ key := by
          rintro rfl
          exact hkey hname
        rw [if_neg hne, add_zero]
      · rw [hzero.1, hzero.2]
        exact (add_zero _).symm.trans (congrArg _ (ite_self _).symm)
    · have hadd := Account.held_add (a := (s.moveTo (alignMinute now)).appAccount) (k := key)
        (processName, outbound) (up, down)
      rw [(held_moveTo (alignMinute now)).2 key] at hadd
      exact hadd
  | flush =>
    simp only [step, Flush, Event.appDelta]
    rw [add_zero]
    split
    · rfl
    · exact (held_drainLocked _).2 key
  | write k =>
    simp only [step, Event.appDelta]
    rw [add_zero]
    exact (held_write k).2 key
  | rollup olderThanSecs =>
    simp only [step, Event.appDelta]
    rw [add_zero]
    exact Account.held_rollup (a := s.appAccount) olderThanSecs

theorem held_run_config (events : List Event) (id : Int) :
    (s.run events).configAccount.held id =
      s.configAccount.held id + (events.map (Event.configDelta id)).sum := by
  induction events generalizing s with
  | nil => exact (add_zero _).symm
  | cons ev events ih =>
    rw [List.map_cons, List.sum_cons, ← add_assoc, ← held_step_config]
    exact ih

theorem held_run_app (events : List Event) {key : AppKey} (hkey : key.1 ≠ []) :
    (s.run events).appAccount.held key =
      s.appAccount.held key + (events.map (Event.appDelta key)).sum := by
  induction events generalizing s with
  | nil => exact (add_zero _).symm
  | cons ev events ih =>
    rw [List.map_cons, List.sum_cons, ← add_assoc, ← held_step_app ev hkey]
    exact ih

end TrafficStats

/-! ## What a rollup does -/

/-- The rows before a cut-off have moved to their hours, and each only there. -/
structure Moved {κ : Type} [DecidableEq κ] (olderThanSecs : Int) (t t' : Tiers κ) : Prop where
  minute_keys : ∀ key, key ∈ t'.minute.keys ↔ key ∈ t.minute.keys ∧ ¬ key.1 < olderThanSecs
  hour_keys : ∀ key, key ∈ t'.hour.keys ↔ key ∈ t.hour.keys ∨
    ∃ old ∈ t.minute.keys, old.1 < olderThanSecs ∧ Tiers.hourKey old = key
  minute : ∀ key, t'.minute.total (fun old => old = key) =
    if key.1 < olderThanSecs then 0 else t.minute.total fun old => old = key
  hour : ∀ key, t'.hour.total (fun old => old = key) =
    (t.hour.total fun old => old = key) +
      t.minute.total fun old => decide (old.1 < olderThanSecs) && decide (Tiers.hourKey old = key)

theorem moved_rollup {κ : Type} [DecidableEq κ] (t : Tiers κ) (olderThanSecs : Int) :
    Moved olderThanSecs t (t.rollup olderThanSecs) where
  minute_keys _ := Tiers.mem_minute_rollup
  hour_keys _ := Tiers.mem_hour_rollup
  minute key := by
    unfold Tiers.rollup Ledger.keep Ledger.total
    simp only
    rw [sumIf_filter _ (fun key : Int × κ => !decide (key.1 < olderThanSecs))]
    split
    · rename_i hlt
      have hnone : sumIf (fun old => (!decide (old.1 < olderThanSecs)) && decide (old = key))
          t.minute.rows = sumIf (fun _ => false) t.minute.rows := by
        refine sumIf_congr fun entry _ => ?_
        by_cases hkey : entry.1 = key
        · simp [hkey, hlt]
        · simp [hkey]
      rw [hnone]
      unfold sumIf
      rw [List.filter_false]
      rfl
    · rename_i hge
      refine sumIf_congr fun entry _ => ?_
      by_cases hkey : entry.1 = key
      · simp [hkey, hge]
      · simp [hkey]
  hour key := by
    unfold Tiers.rollup
    simp only
    rw [Ledger.total_addAll, sumIf_regroup]
    unfold Ledger.keep Ledger.total
    simp only
    rw [sumIf_filter _ (fun key : Int × κ => decide (key.1 < olderThanSecs))]

/-! ## What the queries see of it -/

/-- The answers to queries of whole hours are those from before the rollup, where the division
is right for the rows that move. -/
structure QueriesKept (right : Int → Int → Prop) (s : TrafficStats) (olderThanSecs : Int) :
    Prop where
  configUsage : (∀ key ∈ s.config.minute.keys, key.1 < olderThanSecs → right key.1 0) →
    ∀ fromSecs toSecs profile_id : Int, 3600 ∣ fromSecs → 3600 ∣ toSecs →
      (s.RollupMinuteToHour olderThanSecs).QueryConfigUsage fromSecs toSecs profile_id =
        s.QueryConfigUsage fromSecs toSecs profile_id
  appUsage : (∀ key ∈ s.app.minute.keys, key.1 < olderThanSecs → right key.1 0) →
    ∀ (fromSecs toSecs : Int) (process_name : Text), 3600 ∣ fromSecs → 3600 ∣ toSecs →
      (s.RollupMinuteToHour olderThanSecs).QueryAppUsage fromSecs toSecs process_name =
        s.QueryAppUsage fromSecs toSecs process_name
  configSeries : ∀ utcOffsetSecs : Int,
    (∀ key ∈ s.config.minute.keys, key.1 < olderThanSecs →
      right key.1 0 ∧ right key.1 utcOffsetSecs) →
    ∀ fromSecs toSecs bucketSecs directProfileId bkt : Int,
      3600 ∣ fromSecs → 3600 ∣ toSecs → 3600 ∣ bucketSecs → 3600 ∣ utcOffsetSecs →
      (s.RollupMinuteToHour olderThanSecs).QueryConfigSeries fromSecs toSecs bucketSecs
          utcOffsetSecs directProfileId bkt =
        s.QueryConfigSeries fromSecs toSecs bucketSecs utcOffsetSecs directProfileId bkt
  appSeries : ∀ utcOffsetSecs : Int,
    (∀ key ∈ s.app.minute.keys, key.1 < olderThanSecs →
      right key.1 0 ∧ right key.1 utcOffsetSecs) →
    ∀ fromSecs toSecs bucketSecs bkt : Int,
      3600 ∣ fromSecs → 3600 ∣ toSecs → 3600 ∣ bucketSecs → 3600 ∣ utcOffsetSecs →
      (s.RollupMinuteToHour olderThanSecs).QueryAppSeries fromSecs toSecs bucketSecs
          utcOffsetSecs bkt =
        s.QueryAppSeries fromSecs toSecs bucketSecs utcOffsetSecs bkt

section Queries

variable {κ : Type} {t : Tiers κ} {fromSecs toSecs olderThanSecs : Int}

/-- A range of whole hours, and a condition that does not tell a minute from its hour. -/
theorem blind_inRange (hfloors : ∀ key ∈ t.minute.keys, key.1 < olderThanSecs → Floors key.1 0)
    (hfrom : 3600 ∣ fromSecs) (hto : 3600 ∣ toSecs) {q : Int × κ → Bool}
    (hq : ∀ key ∈ t.minute.keys, key.1 < olderThanSecs → q (Tiers.hourKey key) = q key) :
    t.Blind olderThanSecs fun key => inRange fromSecs toSecs key && q key := by
  intro key hkey hlt
  simp only
  rw [inRange_hourKey hfrom hto (hfloors key hkey hlt), hq key hkey hlt]

theorem blind_series (bkt : Int) {bucketSecs utcOffsetSecs : Int}
    (hfloors : ∀ key ∈ t.minute.keys, key.1 < olderThanSecs →
      Floors key.1 0 ∧ Floors key.1 utcOffsetSecs)
    (hfrom : 3600 ∣ fromSecs) (hto : 3600 ∣ toSecs) (hsecs : 3600 ∣ bucketSecs)
    (hoffset : 3600 ∣ utcOffsetSecs) :
    t.Blind olderThanSecs fun key =>
      inRange fromSecs toSecs key && decide (bucketExpr bucketSecs utcOffsetSecs key.1 = bkt) := by
  refine blind_inRange (fun key hkey hlt => (hfloors key hkey hlt).1) hfrom hto
    fun key hkey hlt => ?_
  obtain ⟨hzero, hshift⟩ := hfloors key hkey hlt
  unfold Tiers.hourKey
  simp only
  rw [bucketExpr_alignHour hsecs hoffset hzero hshift]

/-- What is also asked of the key alone. -/
theorem blind_key {p : Int × κ → Bool} (h : t.Blind olderThanSecs p) (q : κ → Bool) :
    t.Blind olderThanSecs fun key => p key && q key.2 := by
  intro key hkey hlt
  simp only
  rw [h key hkey hlt]
  rfl

end Queries

theorem queriesKept (s : TrafficStats) (olderThanSecs : Int) :
    QueriesKept Floors s olderThanSecs where
  configUsage hfloors fromSecs toSecs profile_id hfrom hto := by
    have hblind := blind_inRange hfloors hfrom hto (q := fun key => decide (key.2 = profile_id))
      fun key _ _ => rfl
    unfold TrafficStats.QueryConfigUsage TrafficStats.RollupMinuteToHour
    simp only
    rw [Tiers.hasRow_rollup hblind, Tiers.sum_rollup hblind]
  appUsage hfloors fromSecs toSecs process_name hfrom hto := by
    have hblind := blind_inRange hfloors hfrom hto (q := fun key => decide (key.2.1 = process_name))
      fun key _ _ => rfl
    unfold TrafficStats.QueryAppUsage TrafficStats.RollupMinuteToHour
    simp only
    rw [Tiers.hasRow_rollup hblind, Tiers.sum_rollup hblind,
      Tiers.sum_rollup (blind_key hblind fun key => bypassExpr key.2),
      Tiers.sum_rollup (blind_key hblind fun key => decide (key.2 = []))]
  configSeries utcOffsetSecs hfloors fromSecs toSecs bucketSecs directProfileId bkt hfrom hto hsecs
      hoffset := by
    have hblind := blind_series bkt hfloors hfrom hto hsecs hoffset
    unfold TrafficStats.QueryConfigSeries TrafficStats.RollupMinuteToHour
    simp only
    rw [Tiers.hasRow_rollup hblind, Tiers.sum_rollup hblind,
      Tiers.sum_rollup (blind_key hblind fun key => decide (key = directProfileId))]
  appSeries utcOffsetSecs hfloors fromSecs toSecs bucketSecs bkt hfrom hto hsecs hoffset := by
    have hblind := blind_series bkt hfloors hfrom hto hsecs hoffset
    unfold TrafficStats.QueryAppSeries TrafficStats.RollupMinuteToHour
    simp only
    rw [Tiers.hasRow_rollup hblind, Tiers.sum_rollup hblind,
      Tiers.sum_rollup (blind_key hblind fun key => bypassExpr key.2)]

/-! ## Every run -/

/-- What holds of the state that a run has reached, and of the rollups it may do next. -/
structure Accounted (right : Int → Int → Prop) (start : TrafficStats)
    (events : List TrafficStats.Event) : Prop where
  config : ∀ id, (start.run events).configAccount.held id =
    start.configAccount.held id + (events.map (TrafficStats.Event.configDelta id)).sum
  /-- Bytes without a process are not recorded. -/
  app : ∀ key : AppKey, key.1 ≠ [] → (start.run events).appAccount.held key =
    start.appAccount.held key + (events.map (TrafficStats.Event.appDelta key)).sum
  configMoved : ∀ olderThanSecs, Moved olderThanSecs (start.run events).config
    ((start.run events).RollupMinuteToHour olderThanSecs).config
  appMoved : ∀ olderThanSecs, Moved olderThanSecs (start.run events).app
    ((start.run events).RollupMinuteToHour olderThanSecs).app
  queries : ∀ olderThanSecs, QueriesKept right (start.run events) olderThanSecs

/-- **In every run the bytes are accounted for**, and the queries see no rollup of rows for
which the division rounds down. -/
theorem accounted_run (start : TrafficStats) (events : List TrafficStats.Event) :
    Accounted Floors start events where
  config id := TrafficStats.held_run_config events id
  app _ hkey := TrafficStats.held_run_app events hkey
  configMoved olderThanSecs := moved_rollup _ olderThanSecs
  appMoved olderThanSecs := moved_rollup _ olderThanSecs
  queries olderThanSecs := queriesKept _ olderThanSecs

/-- A process that starts with an empty database. -/
def TrafficStats.fresh : TrafficStats :=
  ⟨.empty, .empty, 0, [], ⟨.empty, .empty⟩, ⟨.empty, .empty⟩⟩

/-- A clock that was not set yet. -/
def firstMinutes : List TrafficStats.Event := [.addConfigDelta 1 100 0 60, .flush, .write 0]

/-- West of Greenwich the bytes of the first hour change their bucket. -/
theorem not_accounted_firstMinutes :
    ¬ ∀ start events, Accounted (fun _ _ => True) start events := by
  intro h
  have hkept := (h TrafficStats.fresh firstMinutes).queries 1000
  have hseries := hkept.configSeries (-18000) (fun _ _ _ => ⟨trivial, trivial⟩) 0 3600 3600 0 0
    (by decide) (by decide) (by decide) (by decide)
  revert hseries
  decide

end Throned.Stats
