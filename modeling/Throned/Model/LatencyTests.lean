import Mathlib.Data.List.Infix
import Mathlib.Logic.Function.Basic
import Throned.Model.TestTargets

/-!
# URL and IP tests

`runLatencyGroup`, `runUrlProbe` and `runIpProbe` with their pollers
(src/engine/tests/TestRunner.cpp:72-110, 163-192, 276-555), and the buffers of results in the core
(core/internal/probe/probe.go:66-180, core/internal/rpc/urltest.go:40-100).

A step is one call, one answer or one check of a thread.  Every probe has its poller; all pollers of
a kind drain one buffer, which the probes of a batch share.  What else takes the session is
`other`.  Texts, panels, hooks and the tests of UDP, speed and sites are left out; the profiles
do not change during a run.
-/

set_option autoImplicit false

namespace Throned.Engine.Tests

open Throned.Library

inductive LatencyKind where
  | url
  | ip
  deriving DecidableEq, Repr

/-- `URLTestResp` or `IPTestRes`. -/
structure TestResult where
  latency_ms : ℤ := 0
  ip : Text := []
  country_code : Text := []
  error : Text := []
  deriving DecidableEq, Repr

/-- A result in a buffer of the core, with the probe it comes from. -/
structure Published where
  probe : ℕ
  tag : Text
  result : TestResult
  deriving DecidableEq, Repr

inductive LatencyTick where
  | idle
  /-- `stop_` was not set. -/
  | begun
  /-- Its generation was the latest. -/
  | asked
  | replied (results : List Published)
  /-- Its generation was still the latest; these results are to be applied. -/
  | checked (results : List Published)
  deriving DecidableEq, Repr

inductive ProbePhase where
  /-- A task of the pool. -/
  | pooled
  /-- The call has not returned. -/
  | asked
  /-- What is left of the answer, and its verdicts on VPN tunnels. -/
  | answered (results : List (Text × TestResult)) (vpnConnected : List (Text × Bool))
  | done
  deriving DecidableEq, Repr

/-- A probe, its poller and what the core does for it. -/
structure LatencyProbe where
  kind : LatencyKind
  target : Target
  phase : ProbePhase := .pooled
  gen : ℕ := 0
  stop : Bool := false
  tick : LatencyTick := .idle
  coreRuns : Bool := false
  published : List (Text × TestResult) := []
  deriving DecidableEq, Repr

inductive CallPhase where
  | queued
  | running
  /-- The session is free again, and `finish` is next. -/
  | unlocked
  | finished
  deriving DecidableEq, Repr

/-- A call of `runUrlTests`, `runIpTests` or `queueUrlTests`. -/
structure TestCall where
  kind : LatencyKind
  waitForSession : Bool
  items : List TestItem
  phase : CallPhase := .queued
  finishes : ℕ := 0
  deriving DecidableEq, Repr

/-- The thread that holds the session. -/
structure TestRun where
  call : ℕ
  kind : LatencyKind
  slices : List (List TestItem)
  /-- The probes of the batch under way. -/
  batch : Option (List ℕ) := none
  deriving DecidableEq, Repr

/-- `session_`. -/
inductive Session where
  | free
  | other
  | held (run : TestRun)
  deriving DecidableEq, Repr

structure LatencyTests where
  calls : List TestCall := []
  session : Session := .free
  probes : List LatencyProbe := []
  sessionGen : ℕ := 0
  stopRequested : Bool := false
  /-- `URLReporter` and `IPReporter`. -/
  buffer : LatencyKind → List Published := fun _ => []
  autoSelectors : List ℤ := []
  profiles : List ℤ := []
  vpnProfiles : List ℤ := []
  latency : ℤ → ℤ := fun _ => 0
  /-- `ip_out` and `test_country`. -/
  ipOut : ℤ → Text × Text := fun _ => ([], [])

def kLatencyConnectOnly : ℤ := -2

def testRunnerIsTestAborted (error : Text) : Bool :=
  decide ("test aborted".toList <:+: error) || decide ("context canceled".toList <:+: error)

/-- A later verdict of an answer hides an earlier one. -/
def vpnConnectedOf (vpnConnected : List (Text × Bool)) (tag : Text) : Bool :=
  (vpnConnected.reverse.lookup tag).getD false

namespace LatencyTests

/-! ## Results -/

/-- The latency `applyUrlResult` sets; a poller has no verdicts. -/
def urlLatency (s : LatencyTests) (ent : ℤ) (tag : Text) (res : TestResult)
    (vpnConnected : Option (List (Text × Bool))) : ℤ :=
  if res.error = [] then res.latency_ms
  else if testRunnerIsTestAborted res.error then 0
  else
    match vpnConnected with
    | some verdicts =>
      if ent ∈ s.vpnProfiles ∧ vpnConnectedOf verdicts tag = true then kLatencyConnectOnly else -1
    | none => -1

def applyUrlResult (s : LatencyTests) (ent : ℤ) (tag : Text) (res : TestResult)
    (vpnConnected : Option (List (Text × Bool))) : LatencyTests :=
  { s with latency := Function.update s.latency ent (s.urlLatency ent tag res vpnConnected) }

def applyIpResult (s : LatencyTests) (ent : ℤ) (res : TestResult) : LatencyTests :=
  { s with
    ipOut := Function.update s.ipOut ent
      (if res.error = [] then (res.ip, res.country_code) else ([], [])) }

def applyResult (s : LatencyTests) (kind : LatencyKind) (ent : ℤ) (tag : Text) (res : TestResult)
    (vpnConnected : Option (List (Text × Bool))) : LatencyTests :=
  match kind with
  | .url => s.applyUrlResult ent tag res vpnConnected
  | .ip => s.applyIpResult ent res

/-- `GetProfile` of a tag of the answer. -/
def finalProfile (s : LatencyTests) (target : Target) (tag : Text) : Option ℤ :=
  let entid := testRunnerResolveEntID target.tag2entID tag target.entID
  if entid = -1 ∨ entid ∉ s.profiles then none else some entid

/-- `GetProfile` of a tag of a reply. -/
def tickProfile (s : LatencyTests) (target : Target) (tag : Text) : Option ℤ :=
  let entid := testRunnerResolveEntID target.tag2entID tag (-1)
  if entid = -1 ∨ entid ∉ s.profiles then none else some entid

/-! ## Calls and the session -/

def setCall (s : LatencyTests) (k : ℕ) (call : TestCall) : LatencyTests :=
  { s with calls := s.calls.set k call }

def setProbe (s : LatencyTests) (i : ℕ) (p : LatencyProbe) : LatencyTests :=
  { s with probes := s.probes.set i p }

/-- `finish` of a call. -/
def finishCall (s : LatencyTests) (k : ℕ) (call : TestCall) : LatencyTests :=
  s.setCall k { call with phase := .finished, finishes := call.finishes + 1 }

/-- `runLatencyGroup` on the thread of the call: it ends at once, waits, or takes the session. -/
def runLatencyGroup (s : LatencyTests) (k : ℕ) (call : TestCall) : LatencyTests :=
  let items := call.items.filter fun item => !decide (item.id ∈ s.autoSelectors)
  if items = [] then s.finishCall k call
  else
    match s.session with
    | .free =>
      { s.setCall k { call with phase := .running } with
        session := .held
          { call := k, kind := call.kind, slices := slices kTestRunnerBatchSize items }
        sessionGen := s.sessionGen + 1
        stopRequested := false }
    | _ => if call.waitForSession then s else s.finishCall k call

/-- `runUrlTests` and `runIpTests`. -/
def runTests (s : LatencyTests) (kind : LatencyKind) (items : List TestItem) : LatencyTests :=
  let call : TestCall := { kind, waitForSession := false, items }
  { s with calls := s.calls ++ [call] }.runLatencyGroup s.calls.length call

/-- `queueUrlTests` starts a thread. -/
def queueUrlTests (s : LatencyTests) (items : List TestItem) : LatencyTests :=
  { s with calls := s.calls ++ [{ kind := .url, waitForSession := true, items }] }

/-- The thread of a queued call looks, or gets the session it waits for. -/
def queuedEnters (s : LatencyTests) (k : ℕ) : LatencyTests :=
  match s.calls[k]? with
  | some call => if call.phase = .queued then s.runLatencyGroup k call else s
  | none => s

/-- The next batch is built, and its probes go to the pool. -/
def runBatch (s : LatencyTests) : LatencyTests :=
  match s.session with
  | .held run =>
    match run.batch, run.slices with
    | none, slice :: slices =>
      if s.stopRequested then s
      else
        let targets := batchTargets slice
        { s with
          sessionGen := s.sessionGen + 1
          latency := fun id => if id ∈ failedItems slice then -1 else s.latency id
          probes := s.probes ++ targets.map fun target => { kind := run.kind, target }
          session := .held
            { run with
              slices
              batch :=
                if targets = [] then none
                else some ((List.range targets.length).map (s.probes.length + ·)) } }
    | _, _ => s
  | _ => s

def probeDone (s : LatencyTests) (i : ℕ) : Bool :=
  match s.probes[i]? with
  | some p => p.phase = .done
  | none => true

/-- `batchDone` has all its permits. -/
def endBatch (s : LatencyTests) : LatencyTests :=
  match s.session with
  | .held run =>
    match run.batch with
    | some batch =>
      if batch.all s.probeDone then { s with session := .held { run with batch := none } } else s
    | none => s
  | _ => s

/-- The session is over, by its end or by a stop. -/
def unlock (s : LatencyTests) : LatencyTests :=
  match s.session with
  | .held run =>
    if run.batch = none ∧ (run.slices = [] ∨ s.stopRequested = true) then
      match s.calls[run.call]? with
      | some call => { s.setCall run.call { call with phase := .unlocked } with session := .free }
      | none => s
    else s
  | _ => s

def finish (s : LatencyTests) (k : ℕ) : LatencyTests :=
  match s.calls[k]? with
  | some call => if call.phase = .unlocked then s.finishCall k call else s
  | none => s

/-! ## Probes -/

/-- A task of the pool: it is skipped, or starts its poller and calls the core. -/
def startProbe (s : LatencyTests) (i : ℕ) : LatencyTests :=
  match s.probes[i]? with
  | some p =>
    if p.phase = .pooled then
      if s.stopRequested then s.setProbe i { p with phase := .done }
      else s.setProbe i { p with phase := .asked, gen := s.sessionGen, coreRuns := true }
    else s
  | none => s

/-- The outbounds of a probe. -/
def tests (target : Target) (tag : Text) : Prop :=
  target.useDefaultOutbound = true ∨ tag ∈ target.outboundTags

instance (target : Target) (tag : Text) : Decidable (tests target tag) := by
  unfold tests
  infer_instance

def setBuffer (s : LatencyTests) (kind : LatencyKind) (results : List Published) : LatencyTests :=
  { s with buffer := Function.update s.buffer kind results }

/-- An outbound of a probe is measured. -/
def publish (s : LatencyTests) (i : ℕ) (tag : Text) (result : TestResult) : LatencyTests :=
  match s.probes[i]? with
  | some p =>
    if p.coreRuns = true ∧ tests p.target tag ∧ tag ∉ p.published.map Prod.fst then
      (s.setProbe i { p with published := p.published ++ [(tag, result)] }).setBuffer p.kind
        (s.buffer p.kind ++ [⟨i, tag, result⟩])
    else s
  | none => s

/-- What a probe has left in its buffer is taken out. -/
def reclaim (s : LatencyTests) (kind : LatencyKind) (i : ℕ) : LatencyTests :=
  s.setBuffer kind ((s.buffer kind).filter fun r => r.probe ≠ i)

/-- The call of a probe returns one result for each outbound, as it was published. -/
def answer (s : LatencyTests) (i : ℕ) (results : List (Text × TestResult))
    (vpnConnected : List (Text × Bool)) : LatencyTests :=
  match s.probes[i]? with
  | some p =>
    if p.phase = .asked ∧ (∀ r ∈ results, tests p.target r.1) ∧
        ∀ r ∈ results, ∀ r' ∈ p.published, r'.1 = r.1 → r' = r then
      (s.setProbe i
        { p with phase := .answered results vpnConnected, stop := true, coreRuns := false }).reclaim
          p.kind i
    else s
  | none => s

/-- The call fails; when it ran out of time, the core goes on. -/
def fail (s : LatencyTests) (i : ℕ) (timeout : Bool) : LatencyTests :=
  match s.probes[i]? with
  | some p =>
    if p.phase = .asked then
      s.setProbe i { p with phase := .done, stop := true, coreRuns := timeout }
    else s
  | none => s

/-- The core ends a test that nobody waits for. -/
def coreEnds (s : LatencyTests) (i : ℕ) : LatencyTests :=
  match s.probes[i]? with
  | some p =>
    if p.phase = .done then (s.setProbe i { p with coreRuns := false }).reclaim p.kind i else s
  | none => s

/-- The next result of an answer, or the end of the probe. -/
def applyFinal (s : LatencyTests) (i : ℕ) : LatencyTests :=
  match s.probes[i]? with
  | some p =>
    match p.phase with
    | .answered ((tag, res) :: results) vpnConnected =>
      let s := s.setProbe i { p with phase := .answered results vpnConnected }
      match s.finalProfile p.target tag with
      | some ent => s.applyResult p.kind ent tag res (some vpnConnected)
      | none => s
    | .answered [] _ => s.setProbe i { p with phase := .done }
    | _ => s
  | none => s

/-! ## Pollers -/

def setTick (s : LatencyTests) (i : ℕ) (p : LatencyProbe) (tick : LatencyTick) : LatencyTests :=
  s.setProbe i { p with tick := tick }

/-- The loop of the poller. -/
def beginTick (s : LatencyTests) (i : ℕ) : LatencyTests :=
  match s.probes[i]? with
  | some p =>
    if p.phase ≠ .pooled ∧ p.stop = false ∧ p.tick = .idle then s.setTick i p .begun else s
  | none => s

/-- The first check of the generation. -/
def askTick (s : LatencyTests) (i : ℕ) : LatencyTests :=
  match s.probes[i]? with
  | some p =>
    if p.tick = .begun then s.setTick i p (if p.gen = s.sessionGen then .asked else .idle) else s
  | none => s

/-- The core gives away what its buffer holds. -/
def serveTick (s : LatencyTests) (i : ℕ) : LatencyTests :=
  match s.probes[i]? with
  | some p =>
    if p.tick = .asked then
      (s.setTick i p (.replied (s.buffer p.kind))).setBuffer p.kind []
    else s
  | none => s

/-- The second check of the generation. -/
def checkTick (s : LatencyTests) (i : ℕ) : LatencyTests :=
  match s.probes[i]? with
  | some p =>
    match p.tick with
    | .replied results => s.setTick i p (if p.gen = s.sessionGen then .checked results else .idle)
    | _ => s
  | none => s

/-- The next result of a reply, or the end of the tick. -/
def applyTick (s : LatencyTests) (i : ℕ) : LatencyTests :=
  match s.probes[i]? with
  | some p =>
    match p.tick with
    | .checked (r :: results) =>
      let s := s.setTick i p (.checked results)
      match s.tickProfile p.target r.tag with
      | some ent => s.applyResult p.kind ent r.tag r.result none
      | none => s
    | .checked [] => s.setTick i p .idle
    | _ => s
  | none => s

/-! ## The steps -/

inductive LatencyEvent where
  | runTests (kind : LatencyKind) (items : List TestItem)
  | queueUrlTests (items : List TestItem)
  | queuedEnters (k : ℕ)
  | runBatch
  | endBatch
  | unlock
  | finish (k : ℕ)
  | startProbe (i : ℕ)
  | publish (i : ℕ) (tag : Text) (result : TestResult)
  | answer (i : ℕ) (results : List (Text × TestResult)) (vpnConnected : List (Text × Bool))
  | fail (i : ℕ) (timeout : Bool)
  | coreEnds (i : ℕ)
  | applyFinal (i : ℕ)
  | beginTick (i : ℕ)
  | askTick (i : ℕ)
  | serveTick (i : ℕ)
  | checkTick (i : ℕ)
  | applyTick (i : ℕ)
  | stop
  /-- Another kind of test takes the session, with a generation of its own, or gives it back. -/
  | otherLocks
  | otherUnlocks
  deriving DecidableEq, Repr

def step (s : LatencyTests) : LatencyEvent → LatencyTests
  | .runTests kind items => s.runTests kind items
  | .queueUrlTests items => s.queueUrlTests items
  | .queuedEnters k => s.queuedEnters k
  | .runBatch => s.runBatch
  | .endBatch => s.endBatch
  | .unlock => s.unlock
  | .finish k => s.finish k
  | .startProbe i => s.startProbe i
  | .publish i tag result => s.publish i tag result
  | .answer i results vpnConnected => s.answer i results vpnConnected
  | .fail i timeout => s.fail i timeout
  | .coreEnds i => s.coreEnds i
  | .applyFinal i => s.applyFinal i
  | .beginTick i => s.beginTick i
  | .askTick i => s.askTick i
  | .serveTick i => s.serveTick i
  | .checkTick i => s.checkTick i
  | .applyTick i => s.applyTick i
  | .stop => { s with stopRequested := true }
  | .otherLocks =>
    if s.session = .free then
      { s with session := .other, sessionGen := s.sessionGen + 1, stopRequested := false }
    else s
  | .otherUnlocks => if s.session = .other then { s with session := .free } else s

end LatencyTests

end Throned.Engine.Tests
