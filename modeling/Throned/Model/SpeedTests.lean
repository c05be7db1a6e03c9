import Mathlib.Algebra.Group.Int.Defs
import Mathlib.Algebra.Group.Prod
import Mathlib.Logic.Function.Basic
import Throned.Library.Ledger
import Throned.Model.TestTargets

/-!
# Speed tests and the bytes they are credited with

`runSpeedTests`, `runSpeedProbe`, `pollSpeedTest`, `creditTraffic` and `flushTrafficCredits`
(src/engine/tests/TestRunner.cpp:557-720, 749-834).

A step is one locked section, one call or one answer of a thread.  The core counts the bytes of
one probe from nothing, and only upwards.  A poller is stopped and not joined: it may still hold
a reply, checked or not, when its probe is over.  Latencies, speeds and what the observer is told
are left out; the profiles do not change during a run.
-/

set_option autoImplicit false

namespace Throned.Engine.Tests

open Throned.Library

/-- Bytes up and down. -/
abbrev Bytes := ℤ × ℤ

/-- A tick of a poller. -/
inductive Tick where
  | idle
  /-- The core has answered. -/
  | replied (tag : Text) (cur : Bytes)
  /-- Its generation was the latest when it looked; `creditTraffic` is next. -/
  | checked (profile : ℤ) (tag : Text) (cur : Bytes)
  deriving DecidableEq, Repr

structure SpeedPoller where
  gen : ℕ
  tag2entID : List (Text × ℤ)
  testCurrent : Bool
  countryOnly : Bool
  stop : Bool := false
  tick : Tick := .idle
  deriving DecidableEq, Repr

/-- The thread of the session. -/
inductive SpeedWorker where
  /-- `session_` is free. -/
  | idle
  /-- The baselines of the last session are still there. -/
  | starting (targets : List Target)
  | sweeping (targets : List Target)
  /-- `SpeedTest` has not answered. -/
  | probing (target : Target) (targets : List Target)
  /-- What is left of its answer. -/
  | answered (target : Target) (results : List (Text × Bytes)) (targets : List Target)
  deriving DecidableEq, Repr

structure SpeedTests where
  worker : SpeedWorker := .idle
  pollers : List SpeedPoller := []
  sessionGen : ℕ := 0
  stopRequested : Bool := false
  disable_traffic_stats : Bool := false
  /-- `speed_test_mode` is COUNTRY. -/
  countryOnly : Bool := false
  /-- `runningSnapshot_`. -/
  running : Option ℤ := none
  /-- What `GetProfile` finds. -/
  profiles : List ℤ
  /-- The counters in the core of the probe under way, or of the last one. -/
  counters : Text → Bytes := fun _ => (0, 0)
  credited : Text → Bytes := fun _ => (0, 0)
  /-- What `AddConfigDelta` was given. -/
  config : Ledger ℤ Bytes := .empty
  /-- What `AddAppDelta` was given for the speed test, by outbound. -/
  app : Ledger Text Bytes := .empty
  /-- `traffic_uplink` and `traffic_downlink`. -/
  traffic : Ledger ℤ Bytes := .empty
  pendingTraffic : List ℤ := []
  /-- The traffic in the database. -/
  saved : ℤ → Bytes := fun _ => (0, 0)

namespace SpeedTests

/-- A counter below its baseline has started again. -/
def creditOf (base cur : ℤ) : ℤ := if base ≤ cur then cur - base else cur

def creditTraffic (s : SpeedTests) (profile : ℤ) (tag : Text) (cur : Bytes) : SpeedTests :=
  if tag = [] then s
  else if s.disable_traffic_stats then s
  else
    let base := s.credited tag
    let d := (creditOf base.1 cur.1, creditOf base.2 cur.2)
    let s := { s with credited := Function.update s.credited tag cur }
    if d.1 ≤ 0 ∧ d.2 ≤ 0 then s
    else
      { s with
        config := s.config.add profile d
        app := s.app.add tag d
        traffic := s.traffic.add profile d
        pendingTraffic := profile :: s.pendingTraffic.filter (· ≠ profile) }

def flushTrafficCredits (s : SpeedTests) : SpeedTests :=
  { s with
    pendingTraffic := []
    saved := fun id =>
      if id ∈ s.pendingTraffic then s.traffic.total fun key => key = id else s.saved id }

/-- `GetProfile`. -/
def getProfile (s : SpeedTests) (id : ℤ) : Option ℤ := if id ∈ s.profiles then some id else none

def setTick (s : SpeedTests) (k : ℕ) (p : SpeedPoller) (tick : Tick) : SpeedTests :=
  { s with pollers := s.pollers.set k { p with tick := tick } }

/-! ## The session -/

/-- `runSpeedTests` takes the session, or is refused. -/
def runSpeedTests (s : SpeedTests) (items : List TestItem) (testCurrent : Bool) : SpeedTests :=
  if s.worker ≠ .idle ∨ (items = [] ∧ testCurrent = false) then s
  else
    let stepSize := if s.countryOnly then kTestRunnerBatchSize else 1
    let targets :=
      if testCurrent then [{ testCurrent := true }] else (slices stepSize items).flatMap batchTargets
    { s with
      worker := .starting targets, sessionGen := s.sessionGen + 1, stopRequested := false }

/-- Fresh baselines for the session. -/
def clearCredits (s : SpeedTests) : SpeedTests :=
  match s.worker with
  | .starting targets =>
    { s with worker := .sweeping targets, credited := fun _ => (0, 0), pendingTraffic := [] }
  | _ => s

/-- The next probe sends its request and starts its poller, or is skipped. -/
def startProbe (s : SpeedTests) : SpeedTests :=
  match s.worker with
  | .sweeping (target :: targets) =>
    if s.stopRequested then { s with worker := .sweeping targets }
    else
      let gen := s.sessionGen + 1
      { s with
        worker := .probing target targets
        sessionGen := gen
        counters := fun _ => (0, 0)
        pollers := s.pollers ++
          [{ gen, tag2entID := target.tag2entID, testCurrent := target.testCurrent,
             countryOnly := s.countryOnly }] }
  | _ => s

/-- The core moves bytes of the probe. -/
def moveBytes (s : SpeedTests) (tag : Text) (up down : ℕ) : SpeedTests :=
  match s.worker with
  | .probing _ _ =>
    { s with
      counters := Function.update s.counters tag (s.counters tag + ((up : ℤ), (down : ℤ))) }
  | _ => s

/-- The poller of the probe is stopped. -/
def stopPoller (s : SpeedTests) : SpeedTests :=
  { s with
    pollers := s.pollers.map fun p => if p.gen = s.sessionGen then { p with stop := true } else p }

/-- `SpeedTest` answers with the final counters of some tags. -/
def answer (s : SpeedTests) (tags : List Text) : SpeedTests :=
  match s.worker with
  | .probing target targets =>
    if tags.Nodup then
      { s.stopPoller with
        worker := .answered target (tags.map fun tag => (tag, s.counters tag)) targets }
    else s
  | _ => s

/-- The call of `SpeedTest` fails. -/
def fail (s : SpeedTests) : SpeedTests :=
  match s.worker with
  | .probing _ targets => { s.stopPoller with worker := .sweeping targets }
  | _ => s

/-- The profile of a result of the answer, where it is found. -/
def resultProfile (s : SpeedTests) (target : Target) (tag : Text) : Option ℤ :=
  let entid :=
    if target.testCurrent then s.running.getD (-1)
    else testRunnerResolveEntID target.tag2entID tag target.entID
  if entid = -1 then none else s.getProfile entid

/-- The next result of the answer, or the probe is over. -/
def creditResult (s : SpeedTests) : SpeedTests :=
  match s.worker with
  | .answered target ((tag, cur) :: results) targets =>
    let s := { s with worker := .answered target results targets }
    match s.resultProfile target tag with
    | some ent => s.creditTraffic ent tag cur
    | none => s
  | .answered _ [] targets => { s with worker := .sweeping targets }
  | _ => s

def endSession (s : SpeedTests) : SpeedTests :=
  match s.worker with
  | .sweeping [] => { s with worker := .idle }
  | _ => s

/-! ## The pollers -/

/-- A tick that is not stale asks the core for the test of `tag`. -/
def poll (s : SpeedTests) (k : ℕ) (tag : Text) : SpeedTests :=
  match s.pollers[k]?, s.worker with
  | some p, .probing _ _ =>
    if p.tick = .idle ∧ p.stop = false ∧ p.gen = s.sessionGen then
      s.setTick k p (.replied tag (s.counters tag))
    else s
  | _, _ => s

/-- The profile of a reply. -/
def tickProfile (s : SpeedTests) (p : SpeedPoller) (tag : Text) : Option ℤ :=
  if p.testCurrent then s.running else s.getProfile (entIDOf p.tag2entID tag)

/-- The check after the reply.  A poller of countries credits nothing. -/
def checkTick (s : SpeedTests) (k : ℕ) : SpeedTests :=
  match s.pollers[k]? with
  | some p =>
    match p.tick with
    | .replied tag cur =>
      if p.gen ≠ s.sessionGen ∨ p.countryOnly then s.setTick k p .idle
      else
        match s.tickProfile p tag with
        | some profile => s.setTick k p (.checked profile tag cur)
        | none => s.setTick k p .idle
    | _ => s
  | none => s

def creditTick (s : SpeedTests) (k : ℕ) : SpeedTests :=
  match s.pollers[k]? with
  | some p =>
    match p.tick with
    | .checked profile tag cur => (s.setTick k p .idle).creditTraffic profile tag cur
    | _ => s
  | none => s

/-! ## The steps -/

inductive Event where
  | runSpeedTests (items : List TestItem) (testCurrent : Bool)
  | clearCredits
  | startProbe
  | moveBytes (tag : Text) (up down : ℕ)
  | answer (tags : List Text)
  | fail
  | creditResult
  | endSession
  | poll (k : ℕ) (tag : Text)
  | checkTick (k : ℕ)
  | creditTick (k : ℕ)
  | flushTrafficCredits
  | stop
  | profileRuns (running : Option ℤ)
  | settings (disable_traffic_stats countryOnly : Bool)
  deriving DecidableEq, Repr

def step (s : SpeedTests) : Event → SpeedTests
  | .runSpeedTests items testCurrent => s.runSpeedTests items testCurrent
  | .clearCredits => s.clearCredits
  | .startProbe => s.startProbe
  | .moveBytes tag up down => s.moveBytes tag up down
  | .answer tags => s.answer tags
  | .fail => s.fail
  | .creditResult => s.creditResult
  | .endSession => s.endSession
  | .poll k tag => s.poll k tag
  | .checkTick k => s.checkTick k
  | .creditTick k => s.creditTick k
  | .flushTrafficCredits => s.flushTrafficCredits
  | .stop => { s with stopRequested := true }
  | .profileRuns running => { s with running := running }
  | .settings disable_traffic_stats countryOnly =>
    { s with disable_traffic_stats := disable_traffic_stats, countryOnly := countryOnly }

end SpeedTests

end Throned.Engine.Tests
