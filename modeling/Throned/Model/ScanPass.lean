import Throned.Model.ScanWorker

/-!
# The passes of a scan

How a run of the worker starts and ends (src/scanner/ScanWorker.cpp:237-453, 776-884 and
`ScanManager::Start`): it prepares a pass or takes one up again from the row, runs the
chunk loop and writes the row back.  A scan is then a sequence of runs with edits of its
settings in between; a run whose loop has not returned is one that was killed.
-/

set_option autoImplicit false

namespace Throned.Scanner

open Throned.Library Throned.Scan

inductive StartMode where
  | fromInitial
  | resume
  | rescanResults
  deriving DecidableEq, Repr

/-- What one run meets outside its chunk loop. -/
structure PassAnswers where
  /-- Why the config test cannot run, empty if it can. -/
  baseError : Text
  basePort : Int
  /-- The base list, `none` when it is gone. -/
  baseList : Option (List IpListEntry)
  /-- `EnsureScanResultList`, negative when it fails. -/
  resultListId : Int
  addIpList : Bool
  seed : Word64
  count : ProbeRequest → Except Text ScanProbeResponse
  /-- At each reading of the flags: a stop has been asked for, the row may be written. -/
  flags : ℕ → Bool × Bool
  chunks : List ChunkAnswers

namespace ScanWorker

def sync (w : ScanWorker) (a : PassAnswers) (reading : ℕ) : ScanWorker :=
  { w with
    stop := w.stop || (a.flags reading).1, persist := w.persist && (a.flags reading).2 }

/-- The row is read again, so that what the run does not own survives. -/
def persistPassState (w : ScanWorker) : ScanWorker :=
  if w.persist then
    { w with
      row := { w.scan with
        kind := w.row.kind, config := w.row.config, baseListId := w.row.baseListId } }
  else w

def deleteList (w : ScanWorker) (id : Int) : ScanWorker :=
  if id < 0 ∨ w.persist = false then w else { w with lists := w.lists.deleteIpList id }

/-- A result list that had to be created is empty. -/
def ensureResultList (w : ScanWorker) (a : PassAnswers) : Option ScanWorker :=
  if a.resultListId < 0 then none
  else some
    { w with
      scan := { w.scan with resultListId := a.resultListId }
      results := if a.resultListId = w.scan.resultListId then w.results else [] }

def countRequest (spec : Spec) : ProbeRequest :=
  { spec, cursor := 0, maxTargets := 0, icmp := false, tcp := false, http := false
    concurrency := 0 }

def countTargets (w : ScanWorker) (a : PassAnswers) : ScanWorker × Except Text ℕ :=
  let failed (error : Text) : ScanWorker × Except Text ℕ :=
    let stop := w.stop || scanWorkerIsStopped error || (a.flags 4).1
    ({ w with stop }, .error (if stop then []
      else if error = [] then "The core did not answer the probe request".toList
      else error))
  match a.count (countRequest w.spec) with
  | .error coreError => failed coreError
  | .ok response => if response.error ≠ [] then failed response.error else (w, .ok response.total)

/-! ## Preparing a pass (ScanWorker.cpp:296-453) -/

/-- The old pass is forgotten. -/
def resetPass (w : ScanWorker) : ScanWorker :=
  let w := (w.deleteList w.scan.snapshotListId).deleteList w.scan.rescanSnapshotListId
  { w with
    results := []
    scan := { w.scan with
      snapshotListId := -1, rescanSnapshotListId := -1, rescanCursor := 0, rescanTotal := 0
      mode := .initial, cursor := 0, total := 0, found := 0, removed := 0 } }

/-- The spec of an initial pass over some entries. -/
def initialSpec (w : ScanWorker) (entries : List IpListEntry) (seed : Word64) : Spec :=
  scanWorkerBuildSpec entries w.config.ports w.config.portMode.key w.config.shuffle seed

/-- The new pass, over a snapshot of the base list. -/
def addSnapshot (w : ScanWorker) (entries : List IpListEntry) (seed : Word64) : ScanWorker :=
  let spec := w.initialSpec entries seed
  { w with
    lists := w.lists.addIpList entries, spec
    scan := { w.scan with
      snapshotListId := w.lists.nextId, seed
      specHash := w.config.targetSpecHash w.scan.baseListId, pass := spec } }

def prepareInitial (w : ScanWorker) (a : PassAnswers) : ScanWorker × Text :=
  match a.baseList with
  | none => (w, "The base IP list no longer exists".toList)
  | some [] => (w, "The base IP list is empty".toList)
  | some entries =>
    let baseEntries := scanWorkerFamilyFilter entries w.config.scanIPv6
    if baseEntries = [] then
      (w, "The base IP list holds only IPv6 ranges; enable IPv6 scanning".toList)
    else
      let w := w.sync a 1
      if w.persist = false ∨ w.stop = true then (w, [])
      else
        match w.ensureResultList a with
        | none => (w, "The result list could not be created".toList)
        | some w =>
          let w := w.sync a 2
          if w.persist = false then (w, [])
          else
            let w := w.resetPass.sync a 3
            if w.persist = false then (w, [])
            else if a.addIpList = false then (w, "The base IP list could not be copied".toList)
            else
              match (w.addSnapshot baseEntries a.seed).countTargets a with
              | (w, .error error) => (w, error)
              | (w, .ok total) =>
                let w := persistPassState { w with scan := { w.scan with total } }
                if total = 0 then (w, "The base IP list holds no valid target".toList)
                else (w, [])

/-- The rescan pass, over a snapshot of the result list. -/
def addRescanSnapshot (w : ScanWorker) (entries : List IpListEntry) : ScanWorker :=
  { w with
    lists := w.lists.addIpList entries, spec := retrySpec entries
    scan := { w.scan with
      rescanSnapshotListId := w.lists.nextId, mode := .rescanResult, removed := 0 } }

def resetRescan (w : ScanWorker) : ScanWorker :=
  let w := w.deleteList w.scan.rescanSnapshotListId
  { w with
    scan := { w.scan with rescanSnapshotListId := -1, rescanCursor := 0, rescanTotal := 0 } }

def prepareRescan (w : ScanWorker) (a : PassAnswers) : ScanWorker × Text :=
  let w := w.sync a 1
  if w.persist = false ∨ w.stop = true then (w, [])
  else
    match w.resetRescan.ensureResultList a with
    | none => (w.resetRescan, "The result list could not be created".toList)
    | some w =>
      if w.results = [] then (w.persistPassState, "The result list is empty".toList)
      else
        let entries := scanWorkerFamilyFilter w.results w.config.scanIPv6
        if entries = [] then
          (w.persistPassState,
            "The result list holds only IPv6 entries; enable IPv6 scanning".toList)
        else
          let w := w.sync a 3
          if w.persist = false then (w, [])
          else if a.addIpList = false then (w, "The result list could not be copied".toList)
          else
            match (w.addRescanSnapshot entries).countTargets a with
            | (w, .error error) => (w, error)
            | (w, .ok total) =>
              let w := persistPassState { w with scan := { w.scan with rescanTotal := total } }
              if total = 0 then (w, "The result list holds no valid target".toList)
              else (w, [])

def rescanResumable (scan : IpScan) : Bool :=
  decide (scan.mode = .rescanResult ∧ 0 ≤ scan.rescanSnapshotListId ∧
    scan.rescanCursor < scan.rescanTotal)

def preparePass (w : ScanWorker) (a : PassAnswers) : StartMode → ScanWorker × Text
  | .fromInitial => w.prepareInitial a
  | .rescanResults => w.prepareRescan a
  | .resume =>
    if rescanResumable w.scan = false ∧ w.scan.canResumeInitial = false then w.prepareInitial a
    else
      let w := if rescanResumable w.scan then w
        else { w with scan := { w.scan with mode := .initial } }
      let w := w.sync a 1
      if w.persist = false ∨ w.stop = true then (w, [])
      else
        match w.ensureResultList a with
        | none => (w, "The result list could not be created".toList)
        | some v =>
          (if v.scan.resultListId ≠ w.scan.resultListId then v.persistPassState else v, [])

def loadSpec (w : ScanWorker) : ScanWorker × Text :=
  if w.spec.entries ≠ [] then (w, [])
  else if w.rescanPass then
    let entries := w.lists.getEntries w.scan.rescanSnapshotListId
    if entries = [] then
      ({ w with scan := { w.scan with rescanSnapshotListId := -1 } },
        "The copy of the result list is gone; rescan the results again".toList)
    else ({ w with spec := retrySpec entries }, [])
  else
    let entries := w.lists.getEntries w.scan.snapshotListId
    if entries = [] then
      ({ w with scan := { w.scan with snapshotListId := -1 } },
        "The copy of the base IP list is gone; restart the scan".toList)
    else ({ w with spec := w.initialSpec entries w.scan.seed }, [])

/-! ## A run (ScanWorker.cpp:243-294, 776-826) -/

def execute (w : ScanWorker) (a : PassAnswers) (mode : StartMode) :
    List ChunkRecord × ScanWorker × Option Finish :=
  if w.configPhase = true ∧ a.baseError ≠ [] then ([], w, some ⟨false, a.baseError⟩)
  else
    let w := w.sync a 0
    if w.stop then ([], w, some ⟨false, []⟩)
    else
      match w.preparePass a mode with
      | (w, error) =>
        if error ≠ [] then ([], w, some ⟨false, error⟩)
        else
          let w := w.sync a 5
          if w.stop then ([], w, some ⟨false, []⟩)
          else
            match w.loadSpec with
            | (w, error) =>
              if error ≠ [] then ([], w, some ⟨false, error⟩) else w.runChunks a.chunks

def finishPass (w : ScanWorker) (completed : Bool) : ScanWorker :=
  persistPassState
    (if completed then
      if w.rescanPass then
        let w := w.deleteList w.scan.rescanSnapshotListId
        { w with scan := { w.scan with
          rescanSnapshotListId := -1
          mode := if w.scan.canResumeInitial then .initial else w.scan.mode } }
      else
        let w := w.deleteList w.scan.snapshotListId
        { w with scan := { w.scan with snapshotListId := -1 } }
    else if w.rescanPass = true ∧ rescanResumable w.scan = false ∧
        w.scan.canResumeInitial = true then
      { w with scan := { w.scan with mode := .initial } }
    else w)

def run (w : ScanWorker) (a : PassAnswers) (mode : StartMode) : List ChunkRecord × ScanWorker :=
  match w.execute a mode with
  | (records, w, none) => (records, w)
  | (records, w, some finish) => (records, (w.sync a 6).finishPass finish.completed)

end ScanWorker

/-! ## A scan -/

/-- What is stored about a scan. -/
structure ScanStore where
  row : IpScan
  results : List IpListEntry
  lists : IpLists
  deriving Repr

/-- `ScanManager::Start`: the mode a run starts in, `none` when the settings that decide
the targets have changed since the pass began. -/
def startMode (row : IpScan) (mode : StartMode) : Option StartMode :=
  if mode = .resume ∧ ScanWorker.rescanResumable row = false then
    if row.canResumeInitial = false then some .fromInitial
    else if row.specHash ≠ row.config.targetSpecHash row.baseListId then none
    else some .resume
  else some mode

def emptySpec : Spec := scanWorkerBuildSpec [] [] "" false 0

def ScanStore.worker (s : ScanStore) (basePort : Int) : ScanWorker :=
  { scan := s.row, spec := emptySpec, basePort, results := s.results, row := s.row
    lists := s.lists, stop := false, persist := true }

inductive ScanEvent where
  /-- The user edits the settings while the scan is not running. -/
  | edit (config : ScanConfig) (baseListId : Int)
  | run (mode : StartMode) (a : PassAnswers)

def ScanStore.step (s : ScanStore) : ScanEvent → List ChunkRecord × ScanStore
  | .edit config baseListId => ([], { s with row := { s.row with config, baseListId } })
  | .run mode a =>
    match startMode s.row mode with
    | none => ([], s)
    | some mode =>
      let (records, w) := (s.worker a.basePort).run a mode
      (records, { row := w.row, results := w.results, lists := w.lists })

/-- The rounds of a sequence of events, and what is stored after them. -/
def ScanStore.events (s : ScanStore) : List ScanEvent → List ChunkRecord × ScanStore
  | [] => ([], s)
  | event :: rest =>
    let (records, s) := s.step event
    let (more, s) := s.events rest
    (records ++ more, s)

/-- A scan that has just been created. -/
def ScanStore.initial (kind : Kind) (config : ScanConfig) (lists : IpLists) : ScanStore :=
  { row :=
      { kind, config, baseListId := -1, mode := .initial, resultListId := -1
        snapshotListId := -1, seed := 0, cursor := 0, total := 0
        specHash := config.targetSpecHash (-1), rescanSnapshotListId := -1, rescanCursor := 0
        rescanTotal := 0, found := 0, removed := 0, pass := emptySpec }
    results := [], lists }

end Throned.Scanner
