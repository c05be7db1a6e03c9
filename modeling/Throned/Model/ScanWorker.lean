import Throned.Model.IpListParse
import Throned.Model.Probe

/-!
# The scan worker

The chunk loop of a scan (src/scanner/ScanWorker.cpp): it asks the core to probe the next
targets, puts the candidates through the config test, retries what a rescan would remove,
checks the network before it trusts failures, updates the result list and moves the
cursor.

What the loop meets from outside (the core's answers, the moments at which the user stops
the scan, whether its progress may still be written) is a list of `ChunkAnswers`, one for
each round of the loop.  The stop flag only ever goes up, so an answer says whether a stop
has been asked for by the moment the flag is read.
-/

set_option autoImplicit false

namespace Throned.Scanner

open Throned.Library Throned.Scan

inductive Kind where
  | generic
  | warp
  deriving DecidableEq, Repr

inductive Mode where
  | initial
  | rescanResult
  deriving DecidableEq, Repr

/-- `PortMode`, under its `PortModeKey`. -/
inductive PortMode where
  | ignore
  | merge
  | list
  deriving DecidableEq, Repr

def PortMode.key : PortMode → String
  | ignore => "ignore"
  | list => "list"
  | merge => "merge"

structure ScanConfig where
  ports : List Int
  portMode : PortMode
  shuffle : Bool
  scanIPv6 : Bool
  /-- 0 = no limit. -/
  stopAfter : Int
  concurrency : Int
  /-- The phases that are enabled. -/
  icmp : Bool
  tcp : Bool
  http : Bool
  configTest : Bool
  deriving DecidableEq, Repr

/-- `ipScanCleanPorts`. -/
def ipScanCleanPorts (ports : List Int) : List Int :=
  ports.foldl (fun out port =>
    if port ≥ 1 ∧ port ≤ 65535 ∧ port ∉ out then out ++ [port] else out) []

/-- What `TargetSpecHash` hashes; no two of these are taken to have one SHA-1. -/
structure TargetSpec where
  baseListId : Int
  ports : List Int
  portMode : PortMode
  shuffle : Bool
  scanIPv6 : Bool
  deriving DecidableEq, Repr

def ScanConfig.targetSpecHash (config : ScanConfig) (baseListId : Int) : TargetSpec :=
  { baseListId, ports := ipScanCleanPorts config.ports, portMode := config.portMode
    shuffle := config.shuffle, scanIPv6 := config.scanIPv6 }

/-- The columns of a scan that a pass reads and writes. -/
structure IpScan where
  kind : Kind
  config : ScanConfig
  baseListId : Int
  mode : Mode
  resultListId : Int
  snapshotListId : Int
  seed : Word64
  cursor : ℕ
  total : ℕ
  specHash : TargetSpec
  rescanSnapshotListId : Int
  rescanCursor : ℕ
  rescanTotal : ℕ
  found : ℕ
  removed : ℕ
  /-- The spec the cursor belongs to, which no code reads. -/
  pass : Spec
  deriving Repr

def IpScan.activeCursor (scan : IpScan) : ℕ :=
  if scan.mode = .rescanResult then scan.rescanCursor else scan.cursor

def IpScan.activeTotal (scan : IpScan) : ℕ :=
  if scan.mode = .rescanResult then scan.rescanTotal else scan.total

def IpScan.canResumeInitial (scan : IpScan) : Bool :=
  decide (0 ≤ scan.snapshotListId ∧ 0 < scan.total ∧ scan.cursor < scan.total)

/-- The write through `quint64 &cursor`. -/
def IpScan.setCursor (scan : IpScan) (cursor : ℕ) : IpScan :=
  if scan.mode = .rescanResult then { scan with rescanCursor := cursor }
  else { scan with cursor }

/-! ## Entries and results (ScanWorker.cpp:67-149) -/

def kScanWorkerRescanRetries : ℕ := 5

def scanWorkerIsAborted (error : Text) : Bool :=
  decide ("test aborted".toList <:+: error ∨ "context canceled".toList <:+: error)

def scanWorkerIsStopped (error : Text) : Bool := decide ("scan stopped".toList <:+: error)

def scanWorkerIsIpv6 (entry : IpListEntry) : Bool := decide (':' ∈ entry.cidr)

def scanWorkerHasFamily (entries : List IpListEntry) (ipv6 : Bool) : Bool :=
  entries.any fun entry => scanWorkerIsIpv6 entry == ipv6

def scanWorkerFamilyFilter (entries : List IpListEntry) (ipv6 : Bool) : List IpListEntry :=
  if ipv6 then entries else entries.filter fun entry => !scanWorkerIsIpv6 entry

def scanWorkerBuildSpec (entries : List IpListEntry) (ports : List Int) (portMode : String)
    (shuffle : Bool) (seed : Word64) : Spec :=
  { entries := entries.map fun entry => ⟨entry.cidr, entry.port⟩
    defaultPorts := ports, portMode, maxHostsPerEntry := 0, shuffle, seed }

def scanWorkerEntry (address : Text) (port latencyMs : Int) : IpListEntry :=
  ⟨(normalizeCidr address).getD address, port, latencyMs⟩

def scanWorkerProbeLatency (result : ScanProbeResult) (config : ScanConfig) : Int :=
  if config.http = true ∧ result.httpMs > 0 then result.httpMs
  else if config.http = true ∧ result.tlsMs > 0 then result.tlsMs
  else if config.tcp = true ∧ result.tcpMs > 0 then result.tcpMs
  else if config.icmp then result.icmpMs
  else 0

structure ProbeOutcome where
  address : Text
  port : Int
  probePort : Int
  latencyMs : Int
  deriving DecidableEq, Repr

structure ChunkResult where
  hits : List IpListEntry
  failures : List IpListEntry
  localFailures : List IpListEntry
  replaced : List IpListEntry
  aborted : Bool
  error : Text
  deriving DecidableEq, Repr

/-! ## What the worker meets -/

/-- What `BuildScanTestConfig` makes of a batch; `built` is `build != nullptr`. -/
structure ScanTestBuild where
  error : Text
  built : Bool
  outboundTags : List Text
  tag2target : List (Text × Int)
  unsupported : List Int
  deriving DecidableEq, Repr

structure UrlTestResult where
  outboundTag : Text
  error : Text
  latencyMs : Int
  deriving DecidableEq, Repr

structure TestResp where
  results : List UrlTestResult
  /-- The tags of the VPN endpoints, with whether they connected. -/
  vpnStatus : List (Text × Bool)
  deriving DecidableEq, Repr

/-- One batch of the config test. -/
structure BatchAnswers where
  stopBefore : Bool
  build : List (Text × Int) → ScanTestBuild
  urlTest : ScanTestBuild → Except Text TestResp
  stopAfter : Bool

/-- One call of `runChunk`. -/
structure CallAnswers where
  probe : ProbeRequest → Except Text ScanProbeResponse
  stopAfterProbe : Bool
  batches : ℕ → BatchAnswers

/-- One round of `confirmFailures`. -/
structure RoundAnswers where
  stopWaiting : Bool
  call : CallAnswers
  stopAfter : Bool

/-- One round of the chunk loop. -/
structure ChunkAnswers where
  stopAtTop : Bool
  own : CallAnswers
  rounds : ℕ → RoundAnswers
  stopAtGuard : Bool
  /-- The network check of a family, `true` for IPv6. -/
  networkUp : Bool → Bool
  persistResults : Bool
  persistProgress : Bool
  stopAtEnd : Bool

/-! ## What a chunk comes to -/

/-- What `confirmFailures` leaves, with what each of its rounds gave. -/
structure Confirmation where
  result : ChunkResult
  next : ℕ
  stop : Bool
  rounds : List ChunkResult
  deriving Repr

structure NetworkCheck where
  guarded : Bool
  unverified : Bool
  ipv4Up : Bool
  ipv6Up : Bool
  networkError : Text
  deriving DecidableEq, Repr

/-- What `runChunks` returned: whether the pass is complete, and its error. -/
structure Finish where
  completed : Bool
  error : Text
  deriving DecidableEq, Repr

/-- What a round of the loop did. -/
structure ChunkRecord where
  start : ℕ
  /-- Where the cursor went. -/
  cursor : ℕ
  configPhase : Bool
  /-- The probe request of the chunk's own run and the core's answer to it. -/
  request : ProbeRequest
  answer : Except Text ScanProbeResponse
  /-- What the chunk's own run gave, and what each retry gave. -/
  own : ChunkResult
  rounds : List ChunkResult
  /-- The chunk's result after the retries. -/
  result : ChunkResult
  network : NetworkCheck
  /-- The entries removed from the result list because a hit under another port took their
  place, and those removed as dead. -/
  replaced : List IpListEntry
  dead : List IpListEntry

/-! ## The worker -/

/-- The snapshot lists of the database, by id. -/
structure IpLists where
  lists : List (Int × List IpListEntry)
  /-- The next id `NewIpListID` gives. -/
  nextId : ℕ
  deriving Repr

/-- Nothing for a list that does not exist. -/
def IpLists.getEntries (db : IpLists) (id : Int) : List IpListEntry := (db.lists.lookup id).getD []

def IpLists.addIpList (db : IpLists) (entries : List IpListEntry) : IpLists :=
  { lists := (db.nextId, entries) :: db.lists, nextId := db.nextId + 1 }

def IpLists.deleteIpList (db : IpLists) (id : Int) : IpLists :=
  { db with lists := db.lists.filter fun list => list.1 ≠ id }

structure ScanWorker where
  scan : IpScan
  spec : Spec
  basePort : Int
  /-- The entries of the result list. -/
  results : List IpListEntry
  /-- The row as it was last written. -/
  row : IpScan
  lists : IpLists
  stop : Bool
  persist : Bool
  deriving Repr

namespace ScanWorker

/-- The constructor turns the probes a WARP scan does not have off. -/
def config (w : ScanWorker) : ScanConfig :=
  if w.scan.kind = .warp then { w.scan.config with tcp := false, http := false }
  else w.scan.config

def configPhase (w : ScanWorker) : Bool := w.scan.kind = .warp || w.scan.config.configTest

def rescanPass (w : ScanWorker) : Bool := w.scan.mode = .rescanResult

def probePhaseEnabled (w : ScanWorker) : Bool := w.config.icmp || w.config.tcp || w.config.http

/-- `std::clamp`. -/
def clamp (value low high : Int) : Int := max low (min value high)

/-- `scanWorkerConfigTest(scan_).subBatch`. -/
def subBatch (w : ScanWorker) : ℕ :=
  (clamp (max 1 w.config.concurrency * 4) 8 (if w.scan.kind = .warp then 32 else 100)).toNat

def chunkSize (w : ScanWorker) : ℕ :=
  if w.probePhaseEnabled then (clamp (w.config.concurrency * 4) 32 2048).toNat else w.subBatch

def probeRequest (w : ScanWorker) (spec : Spec) (chunkStart : ℕ) (maxTargets : Int) :
    ProbeRequest :=
  { spec, cursor := chunkStart, maxTargets, icmp := w.config.icmp, tcp := w.config.tcp
    http := w.config.http, concurrency := w.config.concurrency }

/-! ## The config test (ScanWorker.cpp:679-765) -/

def addHit (w : ScanWorker) (result : ChunkResult) (candidate : ProbeOutcome)
    (port latencyMs : Int) : ChunkResult :=
  { result with
    hits := result.hits ++ [scanWorkerEntry candidate.address port latencyMs]
    replaced := if w.rescanPass ∧ port ≠ candidate.port then
        result.replaced ++ [scanWorkerEntry candidate.address candidate.port 0]
      else result.replaced }

def addFailure (result : ChunkResult) (candidate : ProbeOutcome) : ChunkResult :=
  { result with failures := result.failures ++ [scanWorkerEntry candidate.address candidate.port 0] }

/-- `batch[index]`, where the index is in range. -/
def batchAt (batch : List ProbeOutcome) (index : Int) : Option ProbeOutcome :=
  if index < 0 then none else batch[index.toNat]?

def targetOf (build : ScanTestBuild) (tag : Text) : Int :=
  (build.tag2target.lookup tag).getD (-1)

/-- One result of the config test; the indices reported so far go along. -/
def testResult (w : ScanWorker) (batch : List ProbeOutcome) (build : ScanTestBuild)
    (tunnelsUp : List Text) (acc : ChunkResult × List Int) (item : UrlTestResult) :
    ChunkResult × List Int :=
  let index := targetOf build item.outboundTag
  match batchAt batch index with
  | none => acc
  | some candidate =>
    if index ∈ acc.2 then acc
    else
      let port := if candidate.port > 0 then candidate.port else w.basePort
      let result :=
        if item.error = [] then w.addHit acc.1 candidate port item.latencyMs
        else if scanWorkerIsAborted item.error then { acc.1 with aborted := true }
        -- the tunnel came up, so the server answers
        else if item.outboundTag ∈ tunnelsUp then w.addHit acc.1 candidate port 0
        else addFailure acc.1 candidate
      (result, index :: acc.2)

/-- The results of a batch; a target without one aborts the chunk. -/
def testResults (w : ScanWorker) (batch : List ProbeOutcome) (build : ScanTestBuild)
    (response : TestResp) (result : ChunkResult) : ChunkResult :=
  let tunnelsUp := (response.vpnStatus.filter (·.2)).map (·.1)
  let (result, reported) :=
    response.results.foldl (w.testResult batch build tunnelsUp) (result, [])
  if build.tag2target.all (fun target => target.2 ∈ reported) then result
  else { result with aborted := true }

/-- One batch: the chunk's result, the stop flag, and what `testConfigs` returns if it
ends here. -/
def testBatch (w : ScanWorker) (batch : List ProbeOutcome) (answers : BatchAnswers)
    (result : ChunkResult) (stop : Bool) : ChunkResult × Bool × Option Text :=
  let stop := stop || answers.stopBefore
  if stop then ({ result with aborted := true }, stop, some [])
  else
    let build := answers.build (batch.map fun candidate => (candidate.address, candidate.port))
    if build.error ≠ [] then (result, stop, some build.error)
    else
      let result := (build.unsupported.filterMap (batchAt batch)).foldl addFailure result
      if build.built = false ∨ build.outboundTags = [] then (result, stop, none)
      else
        match answers.urlTest build with
        | .ok response => (w.testResults batch build response result, stop, none)
        | .error coreError =>
          let stop := stop || scanWorkerIsStopped coreError || answers.stopAfter
          if stop then ({ result with aborted := true }, stop, some [])
          else if coreError = [] then
            (result, stop, some "The core did not answer the config test".toList)
          else (result, stop, some coreError)

/-- The loop over the batches from the `k`-th on, as many as `n`. -/
def testBatches (w : ScanWorker) (candidates : List ProbeOutcome) (answers : ℕ → BatchAnswers) :
    ℕ → ℕ → ChunkResult → Bool → ChunkResult × Bool × Text
  | 0, _, result, stop => (result, stop, [])
  | n + 1, k, result, stop =>
    match w.testBatch ((candidates.drop (k * w.subBatch)).take w.subBatch) (answers k) result stop
      with
    | (result, stop, some error) => (result, stop, error)
    | (result, stop, none) => w.testBatches candidates answers n (k + 1) result stop

def testConfigs (w : ScanWorker) (candidates : List ProbeOutcome) (answers : ℕ → BatchAnswers)
    (result : ChunkResult) (stop : Bool) : ChunkResult × Bool × Text :=
  w.testBatches candidates answers ((candidates.length + w.subBatch - 1) / w.subBatch) 0 result stop

/-! ## One call (ScanWorker.cpp:612-677) -/

def outcome (w : ScanWorker) (item : ScanProbeResult) : ProbeOutcome :=
  ⟨item.address, item.port, item.probePort, scanWorkerProbeLatency item w.config⟩

def candidates (w : ScanWorker) (results : List ScanProbeResult) : List ProbeOutcome :=
  (results.filter (·.passed)).map w.outcome

def resultEntry (item : ScanProbeResult) : IpListEntry := scanWorkerEntry item.address item.port 0

/-- The chunk's result once the core's results have been sorted. -/
def received (results : List ScanProbeResult) : ChunkResult :=
  { hits := [], replaced := [], aborted := false, error := []
    failures := (results.filter fun r => !r.passed && !r.localFailure).map resultEntry
    localFailures := (results.filter fun r => !r.passed && r.localFailure).map resultEntry }

def addProbeHits (w : ScanWorker) (candidates : List ProbeOutcome) (result : ChunkResult) :
    ChunkResult :=
  candidates.foldl (fun result candidate => w.addHit result candidate
    (if candidate.probePort > 0 then candidate.probePort else candidate.port)
    candidate.latencyMs) result

/-- The answer of a call that was cut short. -/
def cutShort (w : ScanWorker) (results : List ScanProbeResult) (error : Text)
    (answers : CallAnswers) (stop : Bool) : ChunkResult × Bool :=
  -- the positions of a call cut short stay unfinished, so its failures prove nothing
  let result := { received results with failures := [], localFailures := [] }
  let result := if w.configPhase then result else w.addProbeHits (w.candidates results) result
  let stop := stop || scanWorkerIsStopped error || answers.stopAfterProbe
  if stop then ({ result with aborted := true }, stop)
  else if error = [] then
    ({ result with error := "The core did not answer the probe request".toList }, stop)
  else ({ result with error }, stop)

/-- `runChunk`: the chunk's result, `*nextCursor` and the stop flag. -/
def runChunk (w : ScanWorker) (spec : Spec) (chunkStart : ℕ) (maxTargets : Int) (next : ℕ)
    (answers : CallAnswers) (stop : Bool) : ChunkResult × ℕ × Bool :=
  match answers.probe (w.probeRequest spec chunkStart maxTargets) with
  | .error coreError =>
    let (result, stop) := w.cutShort [] coreError answers stop
    (result, next, stop)
  | .ok response =>
    if response.error ≠ [] then
      let (result, stop) := w.cutShort response.results response.error answers stop
      (result, next, stop)
    else
      let candidates := w.candidates response.results
      let next := max chunkStart response.nextCursor
      let result := { received response.results with aborted := response.aborted }
      if w.configPhase = false then (w.addProbeHits candidates result, next, stop)
      else if candidates = [] then (result, next, stop)
      else if (result.aborted || (stop || answers.stopAfterProbe)) = true then
        ({ result with aborted := true }, next, stop || answers.stopAfterProbe)
      else
        let (result, stop, error) := w.testConfigs candidates answers.batches result stop
        ({ result with error }, next, stop)

/-! ## Retries (ScanWorker.cpp:577-610) -/

def retrySpec (failures : List IpListEntry) : Spec :=
  scanWorkerBuildSpec failures [] "list" false 0

/-- The loop from the `k`-th round on, at most `n` rounds. -/
def confirmRounds (w : ScanWorker) (chunkStart : ℕ) (answers : ℕ → RoundAnswers) :
    ℕ → ℕ → Confirmation → Confirmation
  | 0, _, c => c
  | n + 1, k, c =>
    if c.result.failures = [] then c
    else
      let stop := c.stop || (answers k).stopWaiting
      if stop then
        { c with
          result := { c.result with failures := [], aborted := true }, next := chunkStart, stop }
      else
        let (retry, _, stop) := w.runChunk (retrySpec c.result.failures) 0 c.result.failures.length
          0 (answers k).call stop
        if retry.error ≠ [] ∨ retry.aborted = true then
          let stop := stop || (answers k).stopAfter
          -- unconfirmed, so nothing is removed; a pause re-runs the whole chunk instead
          { result := { c.result with failures := [], aborted := c.result.aborted || stop }
            next := if stop then chunkStart else c.next, stop, rounds := c.rounds ++ [retry] }
        else
          w.confirmRounds chunkStart answers n (k + 1)
            { c with
              result := { c.result with
                hits := c.result.hits ++ retry.hits
                replaced := c.result.replaced ++ retry.replaced
                localFailures := c.result.localFailures ++ retry.localFailures
                failures := retry.failures }
              stop, rounds := c.rounds ++ [retry] }

def confirmFailures (w : ScanWorker) (result : ChunkResult) (chunkStart next : ℕ)
    (answers : ℕ → RoundAnswers) (stop : Bool) : Confirmation :=
  w.confirmRounds chunkStart answers kScanWorkerRescanRetries 0 ⟨result, next, stop, []⟩

/-! ## The network check (ScanWorker.cpp:515-544) -/

/-- A hit only proves its own family reachable. -/
def familyUnproven (result : ChunkResult) : Bool :=
  (scanWorkerHasFamily result.failures false && !scanWorkerHasFamily result.hits false) ||
    (scanWorkerHasFamily result.failures true && !scanWorkerHasFamily result.hits true)

def guarded (w : ScanWorker) (result : ChunkResult) : Bool :=
  decide (result.error = []) && decide (result.failures ≠ [] ∨ result.localFailures ≠ []) &&
    (w.rescanPass || decide (result.hits = []) || familyUnproven result)

/-- The check of a chunk whose failures are not trusted yet. -/
def checkNetwork (w : ScanWorker) (result : ChunkResult) (networkUp : Bool → Bool) :
    NetworkCheck :=
  let rescan := w.rescanPass
  let ipv4Failed := scanWorkerHasFamily result.failures false
  let ipv6Failed := scanWorkerHasFamily result.failures true
  let ipv6Any := ipv6Failed || scanWorkerHasFamily result.localFailures true
  let ipv6Unproven := ipv6Failed && !scanWorkerHasFamily result.hits true
  let ipv4Up := networkUp false
  -- an initial pass cannot set a failure aside: one whose family is down rewinds the chunk
  let ipv4Blocks := !rescan && !ipv4Up && ipv4Failed
  let ipv6Up := !ipv4Blocks &&
    ((rescan && ipv6Failed) || (!rescan && ipv6Unproven) || (!ipv4Up && ipv6Any)) && networkUp true
  let ipv6Blocks := !rescan && !ipv6Up && ipv6Unproven
  let unverified := (!ipv4Up && !ipv6Up) || ipv4Blocks || ipv6Blocks
  { guarded := true, unverified, ipv4Up, ipv6Up
    networkError := if unverified = false then []
      else if ipv4Up ∧ ipv6Blocks then
        ("IPv6 is unreachable from this network; scan paused " ++
          "(turn off IPv6 scanning to go on)").toList
      else "Network appears to be down; scan paused".toList }

def verify (w : ScanWorker) (result : ChunkResult) (networkUp : Bool → Bool) (stop : Bool) :
    NetworkCheck :=
  if w.guarded result = false then ⟨false, false, false, false, []⟩
  else if stop then ⟨true, true, false, false, []⟩
  else w.checkNetwork result networkUp

/-! ## The result list (IpListsRepo.cpp:586-674) -/

def sameKey (a b : IpListEntry) : Bool := decide (a.cidr = b.cidr ∧ a.port = b.port)

/-- A known entry takes the new latency, a new one goes to the end. -/
def upsertEntry (entries : List IpListEntry) (entry : IpListEntry) : List IpListEntry :=
  if entry.cidr = [] then entries
  else if entries.any (sameKey entry) then
    entries.map fun e => if sameKey entry e then { e with latencyMs := entry.latencyMs } else e
  else entries ++ [entry]

def upsertEntries (entries hits : List IpListEntry) : List IpListEntry :=
  hits.foldl upsertEntry entries

def removeEntries (entries dead : List IpListEntry) : List IpListEntry :=
  entries.filter fun e => !dead.any (sameKey e)

/-! ## The chunk loop (ScanWorker.cpp:457-575) -/

/-- The entries a rescan removes. -/
def deadEntries (w : ScanWorker) (result : ChunkResult) (network : NetworkCheck) :
    List IpListEntry :=
  if w.rescanPass && network.guarded && !network.unverified then
    result.failures.filter fun entry =>
      if scanWorkerIsIpv6 entry then network.ipv6Up else network.ipv4Up
  else []

/-- The entries whose place a hit takes. -/
def replacedEntries (w : ScanWorker) (result : ChunkResult) : List IpListEntry :=
  if w.rescanPass = true ∧ result.hits ≠ [] then result.replaced else []

/-- The result list after a chunk, and how many entries were removed as dead. -/
def updateResults (w : ScanWorker) (hits replaced dead : List IpListEntry) :
    List IpListEntry × ℕ :=
  let results := removeEntries (upsertEntries w.results hits) replaced
  (removeEntries results dead, results.length - (removeEntries results dead).length)

/-- Where the cursor goes. -/
def nextCursor (w : ScanWorker) (result : ChunkResult) (unverified : Bool)
    (chunkStart next : ℕ) : ℕ :=
  min (if result.error ≠ [] ∨ unverified = true then chunkStart
    else if result.aborted then (if w.configPhase then chunkStart else next)
    else next) w.scan.activeTotal

/-- The chunk's own run. -/
def ownRun (w : ScanWorker) (a : ChunkAnswers) : ChunkResult × ℕ × Bool :=
  w.runChunk w.spec w.scan.activeCursor w.chunkSize w.scan.activeCursor a.own w.stop

/-- The chunk's result once a rescan has tried its failures again. -/
def confirmation (w : ScanWorker) (a : ChunkAnswers) : Confirmation :=
  let (own, next, stop) := w.ownRun a
  if w.rescanPass = true ∧ own.error = [] ∧ own.aborted = false ∧ own.failures ≠ [] then
    w.confirmFailures own w.scan.activeCursor next a.rounds stop
  else ⟨own, next, stop, []⟩

/-- The stop flag when the failures are weighed. -/
def stopAtGuard (w : ScanWorker) (a : ChunkAnswers) : Bool :=
  (w.confirmation a).stop || a.stopAtGuard

def network (w : ScanWorker) (a : ChunkAnswers) : NetworkCheck :=
  w.verify (w.confirmation a).result a.networkUp (w.stopAtGuard a)

/-- Whether this chunk may still write to the result list. -/
def writesResults (w : ScanWorker) (a : ChunkAnswers) : Bool :=
  w.persist && a.persistResults && decide (0 ≤ w.scan.resultListId)

/-- Where the cursor of the active pass stands after a chunk. -/
def cursorAfter (w : ScanWorker) (a : ChunkAnswers) : ℕ :=
  w.nextCursor (w.confirmation a).result (w.network a).unverified w.scan.activeCursor
    (w.confirmation a).next

def chunkRecord (w : ScanWorker) (a : ChunkAnswers) : ChunkRecord :=
  let request := w.probeRequest w.spec w.scan.activeCursor w.chunkSize
  { start := w.scan.activeCursor, cursor := w.cursorAfter a, configPhase := w.configPhase
    request, answer := a.own.probe request, own := (w.ownRun a).1
    rounds := (w.confirmation a).rounds, result := (w.confirmation a).result
    network := w.network a
    replaced := if w.writesResults a then w.replacedEntries (w.confirmation a).result else []
    dead := if w.writesResults a then w.deadEntries (w.confirmation a).result (w.network a)
      else [] }

/-- `SaveProgress`: the columns of the active pass. -/
def saveProgress (row scan : IpScan) : IpScan :=
  if scan.mode = .rescanResult then
    { row with
      mode := scan.mode, rescanCursor := scan.rescanCursor, rescanTotal := scan.rescanTotal
      found := scan.found, removed := scan.removed }
  else
    { row with
      mode := scan.mode, cursor := scan.cursor, total := scan.total, found := scan.found
      removed := scan.removed }

/-- The worker after a chunk. -/
def afterChunk (w : ScanWorker) (a : ChunkAnswers) : ScanWorker :=
  let c := w.confirmation a
  let (results, removed) :=
    if w.writesResults a then
      w.updateResults c.result.hits (w.chunkRecord a).replaced (w.chunkRecord a).dead
    else (w.results, 0)
  let scan :=
    { w.scan.setCursor (w.cursorAfter a) with
      found := if w.writesResults a then results.length else w.scan.found
      removed := w.scan.removed + removed }
  let persist := w.persist && a.persistResults && a.persistProgress
  { w with
    scan, results, persist, stop := w.stopAtGuard a || a.stopAtEnd
    row := if persist then saveProgress w.row scan else w.row }

/-- Whether the result list holds as many entries as configured. -/
def limitReached (w : ScanWorker) : Bool :=
  !w.rescanPass && decide (w.config.stopAfter > 0 ∧ (w.scan.found : Int) ≥ w.config.stopAfter)

/-- What the top of the loop returns, if it does. -/
def loopTop (w : ScanWorker) (a : ChunkAnswers) : Option Finish :=
  if w.limitReached then some ⟨true, []⟩
  else if w.scan.activeCursor ≥ w.scan.activeTotal then some ⟨true, []⟩
  else if w.stop || a.stopAtTop then some ⟨false, []⟩
  else none

/-- What the end of a round returns, if it does. -/
def chunkFinish (w : ScanWorker) (a : ChunkAnswers) : Option Finish :=
  let result := (w.confirmation a).result
  let after := w.afterChunk a
  if result.error ≠ [] then some ⟨false, result.error⟩
  else if (w.network a).networkError ≠ [] then some ⟨false, (w.network a).networkError⟩
  else if (w.network a).unverified then some ⟨false, []⟩
  -- the loop top completes a finished pass, even when a stop landed after its last chunk
  else if after.scan.activeCursor ≥ after.scan.activeTotal ∨ after.limitReached = true then none
  else if after.stop then some ⟨false, []⟩
  else if result.aborted then some ⟨false, "The core ended the scan session early".toList⟩
  else if after.scan.activeCursor = w.scan.activeCursor then
    some ⟨false, "The core made no progress on the scan".toList⟩
  else none

/-- The rounds the answers allow for: what each did, the worker they leave and what was
returned, `none` while the loop is still running. -/
def chunkLoop : ScanWorker → List ChunkAnswers → List ChunkRecord × ScanWorker × Option Finish
  | w, [] => ([], w, none)
  | w, a :: rest =>
    match w.loopTop a with
    | some finish => ([], w, some finish)
    | none =>
      match w.chunkFinish a with
      | some finish => ([w.chunkRecord a], w.afterChunk a, some finish)
      | none =>
        let (records, after, finish) := chunkLoop (w.afterChunk a) rest
        (w.chunkRecord a :: records, after, finish)

def runChunks (w : ScanWorker) (answers : List ChunkAnswers) :
    List ChunkRecord × ScanWorker × Option Finish :=
  let found := if w.persist = true ∧ 0 ≤ w.scan.resultListId then w.results.length else w.scan.found
  chunkLoop { w with scan := { w.scan with found } } answers

end ScanWorker

end Throned.Scanner
