import Mathlib.Algebra.Group.Int.Defs
import Mathlib.Algebra.Group.Prod
import Throned.Library.Ledger
import Throned.Library.Text
import Throned.Library.Transition

/-!
# The traffic statistics

`TrafficStatsManager` (src/stats/traffic/TrafficStatsManager.cpp:38-122) and the statements of
`TrafficStatsRepo` (src/database/TrafficStatsRepo.cpp:129-341).  Each section under the mutex
is one step, and so is each transaction; what a call has drained it writes later.
-/

set_option autoImplicit false

namespace Throned.Stats

open Throned.Library

/-- `up` and `down`. -/
abbrev Amount := Int × Int

/-- The rows of `app_traffic_*` are for a process and the outbound of its bytes. -/
abbrev AppKey := Text × Text

def alignMinute (secs : Int) : Int := secs.tdiv 60 * 60

/-- The division of SQLite truncates. -/
def alignHour (bucket : Int) : Int := bucket.tdiv 3600 * 3600

/-- Rows `(bucket_start, key)` with their bytes. -/
abbrev Rows (κ : Type) := List ((Int × κ) × Amount)

/-- What one transaction of `writeRows` writes. -/
inductive Batch where
  | config (rows : Rows Int)
  | app (rows : Rows AppKey)
  deriving DecidableEq, Repr

/-- The minute rows and the hour rows of one table. -/
structure Tiers (κ : Type) where
  minute : Ledger (Int × κ) Amount
  hour : Ledger (Int × κ) Amount

structure TrafficStats where
  configAccum : Ledger Int Amount
  appAccum : Ledger AppKey Amount
  currentBucket : Int
  /-- What each call has drained and not written yet. -/
  writes : List (List Batch)
  config : Tiers Int
  app : Tiers AppKey

/-! ## The rollup and the queries -/

namespace Tiers

variable {κ : Type} [DecidableEq κ] (t : Tiers κ)

def upsertMinuteBatch (rows : Rows κ) : Tiers κ := { t with minute := t.minute.addAll rows }

def hourKey (key : Int × κ) : Int × κ := (alignHour key.1, key.2)

/-- The `INSERT ... SELECT ... GROUP BY` and the `DELETE` of `RollupMinuteToHour`. -/
def rollup (olderThanSecs : Int) : Tiers κ :=
  let old := t.minute.keep fun key => decide (key.1 < olderThanSecs)
  { minute := t.minute.keep fun key => !decide (key.1 < olderThanSecs)
    hour := t.hour.addAll (regroup hourKey old.rows) }

/-- The sums of the `UNION ALL` of both tiers. -/
def sum (p : Int × κ → Bool) : Amount := t.minute.total p + t.hour.total p

def hasRow (p : Int × κ → Bool) : Bool := t.minute.keys.any p || t.hour.keys.any p

end Tiers

def inRange {κ : Type} (fromSecs toSecs : Int) (key : Int × κ) : Bool :=
  decide (fromSecs ≤ key.1) && decide (key.1 < toSecs)

def bypassExpr (outbound : Text) : Bool :=
  outbound = "direct".toList || outbound = "l3-direct".toList

def bucketExpr (bucketSecs utcOffsetSecs bucket : Int) : Int :=
  (bucket + utcOffsetSecs).tdiv bucketSecs * bucketSecs - utcOffsetSecs

structure AppUsage where
  total : Amount
  direct : Amount
  unknown : Amount
  deriving DecidableEq, Repr

structure SeriesPoint where
  total : Amount
  direct : Amount
  deriving DecidableEq, Repr

namespace TrafficStats

/-- The row of the answer for a profile, where there is one. -/
def QueryConfigUsage (s : TrafficStats) (fromSecs toSecs profile_id : Int) : Option Amount :=
  let rows (key : Int × Int) := inRange fromSecs toSecs key && decide (key.2 = profile_id)
  if s.config.hasRow rows then some (s.config.sum rows) else none

def QueryAppUsage (s : TrafficStats) (fromSecs toSecs : Int) (process_name : Text) :
    Option AppUsage :=
  let rows (key : Int × AppKey) := inRange fromSecs toSecs key && decide (key.2.1 = process_name)
  if s.app.hasRow rows then
    some
      { total := s.app.sum rows
        direct := s.app.sum fun key => rows key && bypassExpr key.2.2
        unknown := s.app.sum fun key => rows key && decide (key.2.2 = []) }
  else none

/-- The point of the answer for a bucket, where there is one. -/
def QueryConfigSeries (s : TrafficStats) (fromSecs toSecs bucketSecs utcOffsetSecs : Int)
    (directProfileId bkt : Int) : Option SeriesPoint :=
  let rows (key : Int × Int) :=
    inRange fromSecs toSecs key && decide (bucketExpr bucketSecs utcOffsetSecs key.1 = bkt)
  if 0 < bucketSecs ∧ s.config.hasRow rows = true then
    some
      { total := s.config.sum rows
        direct := s.config.sum fun key => rows key && decide (key.2 = directProfileId) }
  else none

def QueryAppSeries (s : TrafficStats) (fromSecs toSecs bucketSecs utcOffsetSecs bkt : Int) :
    Option SeriesPoint :=
  let rows (key : Int × AppKey) :=
    inRange fromSecs toSecs key && decide (bucketExpr bucketSecs utcOffsetSecs key.1 = bkt)
  if 0 < bucketSecs ∧ s.app.hasRow rows = true then
    some
      { total := s.app.sum rows
        direct := s.app.sum fun key => rows key && bypassExpr key.2.2 }
  else none

/-! ## The steps -/

/-- The rows of an accumulator; empty amounts make none. -/
def drained {κ : Type} (bucket : Int) (accum : Ledger κ Amount) : Rows κ :=
  (accum.rows.filter fun entry => decide (entry.2 ≠ (0, 0))).map fun entry =>
    ((bucket, entry.1), entry.2)

/-- What `writeRows` will write. -/
def batches (cfg : Rows Int) (app : Rows AppKey) : List Batch :=
  (if cfg = [] then [] else [.config cfg]) ++ if app = [] then [] else [.app app]

def drainLocked (s : TrafficStats) (bucket : Int) : TrafficStats :=
  { s with
    configAccum := .empty
    appAccum := .empty
    writes := s.writes ++ [batches (drained bucket s.configAccum) (drained bucket s.appAccum)] }

/-- The bucket that just ended is drained, and the new one begins. -/
def moveTo (s : TrafficStats) (nowBucket : Int) : TrafficStats :=
  let s :=
    if s.currentBucket ≠ 0 ∧ nowBucket ≠ s.currentBucket then s.drainLocked s.currentBucket else s
  { s with currentBucket := nowBucket }

def AddConfigDelta (s : TrafficStats) (profileId up down now : Int) : TrafficStats :=
  if up = 0 ∧ down = 0 then s
  else
    let s := s.moveTo (alignMinute now)
    { s with configAccum := s.configAccum.add profileId (up, down) }

def AddAppDelta (s : TrafficStats) (processName outbound : Text) (up down now : Int) :
    TrafficStats :=
  if processName = [] ∨ (up = 0 ∧ down = 0) then s
  else
    let s := s.moveTo (alignMinute now)
    { s with appAccum := s.appAccum.add (processName, outbound) (up, down) }

def Flush (s : TrafficStats) : TrafficStats :=
  if s.currentBucket = 0 then s else s.drainLocked s.currentBucket

def writeBatch (s : TrafficStats) : Batch → TrafficStats
  | .config rows => { s with config := s.config.upsertMinuteBatch rows }
  | .app rows => { s with app := s.app.upsertMinuteBatch rows }

/-- The next transaction of the call number `k`. -/
def write (s : TrafficStats) (k : ℕ) : TrafficStats :=
  match s.writes[k]? with
  | some (batch :: rest) => { s.writeBatch batch with writes := s.writes.set k rest }
  | _ => s

def RollupMinuteToHour (s : TrafficStats) (olderThanSecs : Int) : TrafficStats :=
  { s with config := s.config.rollup olderThanSecs, app := s.app.rollup olderThanSecs }

inductive Event where
  | addConfigDelta (profileId up down now : Int)
  | addAppDelta (processName outbound : Text) (up down now : Int)
  | flush
  | write (k : ℕ)
  | rollup (olderThanSecs : Int)
  deriving DecidableEq, Repr

def step (s : TrafficStats) : Event → TrafficStats
  | .addConfigDelta profileId up down now => s.AddConfigDelta profileId up down now
  | .addAppDelta processName outbound up down now => s.AddAppDelta processName outbound up down now
  | .flush => s.Flush
  | .write k => s.write k
  | .rollup olderThanSecs => s.RollupMinuteToHour olderThanSecs

end TrafficStats

end Throned.Stats
