import Throned.Library.NetipFormat
import Throned.Library.Transition
import Throned.Model.Targets

/-!
# Probing a chunk of targets

The core's side of a scan (core/internal/scan/engine.go, core/internal/rpc/scan.go).
`Probe` starts a goroutine for each target of a chunk, at most `Concurrency` at a time,
and collects their results until the chunk is done or the run is cancelled; the RPC
handler passes the answer on.  What a probe of one target ends with is the network's
choice, and so is the order in which the goroutines end: `ProbeStep` has one step for each
section that the others can observe.

Results and answers carry the position of their target, which no code reads.
-/

set_option autoImplicit false

namespace Throned.Scan

open Throned.Library

structure ProbeRequest where
  spec : Spec
  cursor : ℕ
  maxTargets : Int
  /-- The phases that are enabled. -/
  icmp : Bool
  tcp : Bool
  http : Bool
  concurrency : Int
  deriving Repr

/-- What the phases of one probe measured. -/
structure Measured where
  probePort : ℕ
  icmpMs : Int
  tcpMs : Int
  tlsMs : Int
  httpMs : Int
  deriving DecidableEq, Repr

/-- How `probeRun.target` ends. -/
inductive Outcome where
  | passed (m : Measured)
  | failed (m : Measured) (localFailure : Bool)
  /-- `ErrNoEgress`: the probe was refused, the target says nothing. -/
  | noEgress
  deriving DecidableEq, Repr

structure Result where
  addr : Addr
  port : ℕ
  passed : Bool
  measured : Measured
  localFailure : Bool
  position : ℕ
  deriving DecidableEq, Repr

structure ProbeResponse where
  total : ℕ
  nextCursor : ℕ
  aborted : Bool
  results : List Result
  sampledEntries : ℕ
  invalidEntries : ℕ
  deriving Repr

def defaultConcurrency : ℕ := 64
def maxConcurrency : ℕ := 1000
def maxChunkTargets : ℕ := 2 ^ 16

def errEgressLost : Text := "no default interface; the scan was paused".toList

/-- `Targets.At`, at a position counted as a number. -/
def Targets.target (t : Targets) (position : ℕ) : Option Target :=
  t.at' (BitVec.ofNat 64 position)

/-! ## The goroutines of a chunk (engine.go:191-239) -/

/-- The chunk of targets a call runs over, and how many goroutines at once. -/
structure Chunk where
  targets : Targets
  start : ℕ
  count : ℕ
  slots : ℕ

structure ProbeRun where
  /-- `i` of the launch loop. -/
  next : ℕ
  launching : Bool
  /-- The goroutines that have not ended, by index and target. -/
  running : List (ℕ × Target)
  finished : List Bool
  results : List Result
  /-- `runCtx.Err() != nil`. -/
  cancelled : Bool
  egressLost : Bool

/-- The result of a probe that was not refused. -/
def Outcome.result (position : ℕ) (target : Target) : Outcome → Option Result
  | .passed m => some ⟨target.addr, target.port, true, m, false, position⟩
  | .failed m localFailure => some ⟨target.addr, target.port, false, m, localFailure, position⟩
  | .noEgress => none

def ProbeRun.initial (c : Chunk) : ProbeRun :=
  { next := 0, launching := true, running := [], finished := List.replicate c.count false
    results := [], cancelled := false, egressLost := false }

inductive ProbeStep (c : Chunk) : ProbeRun → ProbeRun → Prop where
  /-- The session is stopped. -/
  | cancel (s : ProbeRun) : ProbeStep c s { s with cancelled := true }
  | launch {s : ProbeRun} {target : Target} (hloop : s.launching = true)
      (hctx : s.cancelled = false) (hnext : s.next < c.count)
      (hslot : s.running.length < c.slots)
      (htarget : c.targets.target (c.start + s.next) = some target) :
      ProbeStep c s { s with next := s.next + 1, running := (s.next, target) :: s.running }
  /-- The loop ends, cut short or not. -/
  | stop {s : ProbeRun} (hloop : s.launching = true)
      (hend : s.cancelled = true ∨ s.next = c.count) : ProbeStep c s { s with launching := false }
  | refused {s : ProbeRun} {g : ℕ × Target} (hg : g ∈ s.running) :
      ProbeStep c s
        { s with egressLost := true, cancelled := true, running := s.running.erase g }
  /-- A failure after the cancellation is not a measurement. -/
  | dropped {s : ProbeRun} {g : ℕ × Target} (hg : g ∈ s.running) (hctx : s.cancelled = true) :
      ProbeStep c s { s with running := s.running.erase g }
  | finish {s : ProbeRun} {g : ℕ × Target} {outcome : Outcome} {result : Result}
      (hg : g ∈ s.running) (hresult : outcome.result (c.start + g.1) g.2 = some result)
      (hmeasured : result.passed = true ∨ s.cancelled = false) :
      ProbeStep c s
        { s with finished := s.finished.set g.1 true, results := s.results ++ [result]
                 running := s.running.erase g }

def probeSystem (c : Chunk) : System ProbeRun where
  init s := s = .initial c
  step := ProbeStep c

/-- After `wg.Wait()`. -/
def ProbeRun.Done (s : ProbeRun) : Prop := s.launching = false ∧ s.running = []

/-! ## `Probe` (engine.go:150-253) -/

/-- What every answer says, whatever is probed. -/
def countResponse (req : ProbeRequest) : ProbeResponse :=
  let targets := newTargets req.spec
  { total := targets.total.toNat, nextCursor := min req.cursor targets.total.toNat
    aborted := false, results := [], sampledEntries := targets.sampledEntries
    invalidEntries := targets.invalidEntries }

def ProbeRequest.chunk (req : ProbeRequest) : Chunk :=
  let targets := newTargets req.spec
  { targets, start := req.cursor
    count := min (min req.maxTargets.toNat maxChunkTargets) (targets.total.toNat - req.cursor)
    slots := min (if req.concurrency ≤ 0 then defaultConcurrency else req.concurrency.toNat)
      maxConcurrency }

/-- Without a phase every target passes. -/
def untested (c : Chunk) : Option (List Result) :=
  (List.range c.count).mapM fun i =>
    (c.targets.target (c.start + i)).map fun target =>
      ⟨target.addr, target.port, true, ⟨0, 0, 0, 0, 0⟩, false, c.start + i⟩

/-- The answer once every goroutine has ended: the cursor stops at the first position
without a result. -/
def ProbeRun.response (s : ProbeRun) (req : ProbeRequest) : ProbeResponse :=
  match s.finished.findIdx? (!·) with
  | none => { countResponse req with
      results := s.results, nextCursor := req.cursor + req.chunk.count }
  | some i => { countResponse req with
      results := s.results, nextCursor := req.cursor + i, aborted := true }

/-- The answers and errors `Probe` can give. -/
inductive Probe (req : ProbeRequest) : ProbeResponse → Option Text → Prop where
  | counted (h : req.maxTargets ≤ 0 ∨ (newTargets req.spec).total.toNat ≤ req.cursor) :
      Probe req (countResponse req) none
  /-- `newProbePlan` refuses the HTTP options, or `icmpCheck` fails. -/
  | refused (hmax : 0 < req.maxTargets) (hcursor : req.cursor < (newTargets req.spec).total.toNat)
      (hphase : req.http = true ∨ req.icmp = true) (error : Text) :
      Probe req (countResponse req) (some error)
  | untested {results : List Result} (hmax : 0 < req.maxTargets)
      (hcursor : req.cursor < (newTargets req.spec).total.toNat)
      (hphases : req.icmp = false ∧ req.tcp = false ∧ req.http = false)
      (hresults : untested req.chunk = some results) :
      Probe req { countResponse req with
        results, nextCursor := req.cursor + req.chunk.count } none
  | probed {s : ProbeRun} (hmax : 0 < req.maxTargets)
      (hcursor : req.cursor < (newTargets req.spec).total.toNat)
      (hphases : req.icmp = true ∨ req.tcp = true ∨ req.http = true)
      (hrun : (probeSystem req.chunk).Reachable s) (hdone : s.Done) :
      Probe req (s.response req) (if s.egressLost then some errEgressLost else none)

/-! ## The RPC handler (rpc/scan.go:70-118) -/

structure ScanProbeResult where
  address : Text
  port : Int
  passed : Bool
  icmpMs : Int
  tcpMs : Int
  tlsMs : Int
  httpMs : Int
  probePort : Int
  localFailure : Bool
  position : ℕ
  deriving DecidableEq, Repr

structure ScanProbeResponse where
  total : ℕ
  nextCursor : ℕ
  aborted : Bool
  results : List ScanProbeResult
  sampledEntries : ℕ
  invalidEntries : ℕ
  error : Text
  deriving Repr

def scanProbeResult (r : Result) : ScanProbeResult :=
  { address := r.addr.string, port := r.port, passed := r.passed, icmpMs := r.measured.icmpMs
    tcpMs := r.measured.tcpMs, tlsMs := r.measured.tlsMs, httpMs := r.measured.httpMs
    probePort := r.measured.probePort, localFailure := r.localFailure, position := r.position }

def scanProbeResponse (r : ProbeResponse) (error : Option Text) : ScanProbeResponse :=
  { total := r.total, nextCursor := r.nextCursor, aborted := r.aborted
    results := r.results.map scanProbeResult, sampledEntries := r.sampledEntries
    invalidEntries := r.invalidEntries, error := error.getD [] }

/-- The answers of the `ScanProbe` call; `Acquire` refuses a stopped session. -/
inductive ScanProbe (req : ProbeRequest) : ScanProbeResponse → Prop where
  | refused (hmax : 0 < req.maxTargets) (error : Text) :
      ScanProbe req ⟨0, 0, false, [], 0, 0, error⟩
  | answered {response : ProbeResponse} {error : Option Text} (h : Probe req response error) :
      ScanProbe req (scanProbeResponse response error)

end Throned.Scan
