import Throned.Library.Runs
import Mathlib.Data.Int.Notation
import Mathlib.Data.Nat.Notation

/-!
# Starts of profiles

`ConnectionManager::start` with the places where a request waits
(src/engine/connection/ConnectionManager.cpp:88-402, 404-603): for the kill switch, for the
core (src/engine/connection/ConnectionModes.cpp:231-281), and for a ranking
(src/engine/autoselector/AutoSelectorController.cpp:59-193).

A step is one handler on the main thread, one post of another thread or the end of a worker.
What a pass finds at the database, the core supervisor and the core is the environment's choice.
Texts, view signals and dialogs are left out.
-/

set_option autoImplicit false

namespace Throned.Engine

inductive StartOutcome where
  | Started
  | Exiting
  | NotFound
  | GroupUnavailable
  | KillSwitchInactive
  | Superseded
  | CoreUnavailable
  | BuildFailed
  | Busy
  | ExtraCoreBlocked
  | GeoAssetsMissing
  | StrictRouteUnavailable
  | TunFailed
  | StartFailed
  deriving DecidableEq, Repr

structure StartRequest where
  profileId : ℤ
  interactive : Bool
  serial : ℕ
  /-- Tells requests apart; a guard restart with nothing to start has none. -/
  ticket : Option ℕ
  deriving DecidableEq, Repr

/-- What took the place of a superseded request. -/
inductive ReplacedBy where
  | request (other : StartRequest)
  | core (profileId : ℤ)
  deriving DecidableEq, Repr

/-- An emitted `startFinished`. -/
structure Finish where
  request : StartRequest
  outcome : StartOutcome
  replacedBy : Option ReplacedBy
  deriving DecidableEq, Repr

inductive KillSwitchState where
  | Disabled
  | Arming
  | Armed
  | Failed
  deriving DecidableEq, Repr

/-- Where a ranking stands; the request waits with it until it has been resumed. -/
inductive RankPhase where
  | measuring
  /-- The start with the working members is posted. -/
  | earlyPosted
  /-- That start has run, and the sweep goes on. -/
  | measuringOn
  /-- The sweep is over, and the start is posted. -/
  | resumePosted
  deriving DecidableEq, Repr

structure Ranking where
  request : StartRequest
  phase : RankPhase
  deriving DecidableEq, Repr

def Ranking.waiting (ranking : Ranking) : List StartRequest :=
  match ranking.phase with
  | .measuringOn => []
  | _ => [ranking.request]

structure StartWorker where
  request : StartRequest
  /-- The outcome has been posted. -/
  finished : Bool
  deriving DecidableEq, Repr

def StartWorker.waiting (worker : StartWorker) : List StartRequest :=
  if worker.finished then [] else [worker.request]

/-- What one pass of `start` finds. -/
structure StartEnv where
  profileFound : Bool
  groupAvailable : Bool
  runningWithoutGuardIdentity : Bool
  /-- The answer of `setStartWhenUp`. -/
  haveCore : Bool
  autoselector : Bool
  needsRanking : Bool
  buildFailed : Bool
  geoMissing : Bool
  awaitingCoreStarted : Bool
  core_running : Bool
  canStartCore : Bool
  deriving DecidableEq, Repr

/-- What `profile_start_stage2` finds, in the order in which it looks. -/
structure Stage2Env where
  extraCoreBlocked : Bool
  rpcOK : Bool
  /-- `Start` of the core returned an error. -/
  error : Bool
  xrayGeoError : Bool
  fwpm : Bool
  configureTun : Bool
  otpError : Bool
  deriving DecidableEq, Repr

structure ConnectionManager where
  prepare_exit : Bool
  now : ℕ
  killSwitch : KillSwitchState
  /-- A callback of `whenSettled` is registered. -/
  settleWaiter : Bool
  m_killSwitchDeferredStart : Option StartRequest
  m_coreStartRequest : Option StartRequest
  m_bootSerial : ℕ
  /-- When the core was last restarted for the guard. -/
  m_guardCoreRestart : Option ℕ
  m_killSwitchWasFailed : Bool
  m_killSwitchWasArmed : Bool
  mu_starting : Bool
  mu_stopping : Bool
  /-- `runningSnapshot()` is there. -/
  running : Bool
  worker : Option StartWorker
  rankings : List Ranking
  rankedFor : ℤ
  /-- Outcomes that are posted to the main thread. -/
  posted : List Finish
  finished : List Finish
  /-- The requests for which a worker was started. -/
  launched : List StartRequest
  tickets : ℕ
  deriving DecidableEq, Repr

namespace ConnectionManager

def kGuardRestartWindowMs : ℕ := 15000

def init : ConnectionManager where
  prepare_exit := false
  now := 0
  killSwitch := .Disabled
  settleWaiter := false
  m_killSwitchDeferredStart := none
  m_coreStartRequest := none
  m_bootSerial := 0
  m_guardCoreRestart := none
  m_killSwitchWasFailed := false
  m_killSwitchWasArmed := false
  mu_starting := false
  mu_stopping := false
  running := false
  worker := none
  rankings := []
  rankedFor := -1
  posted := []
  finished := []
  launched := []
  tickets := 0

/-! ## Answers and places to wait -/

/-- `emit startFinished`. -/
def finish (s : ConnectionManager) (request : StartRequest) (outcome : StartOutcome) :
    ConnectionManager :=
  { s with finished := s.finished ++ [⟨request, outcome, none⟩] }

def supersede (s : ConnectionManager) (request : StartRequest) (by_ : ReplacedBy) :
    ConnectionManager :=
  { s with finished := s.finished ++ [⟨request, .Superseded, some by_⟩] }

/-- A slot whose profile id is negative is empty. -/
def slotOf (request : StartRequest) : Option StartRequest :=
  if 0 ≤ request.profileId then some request else none

def deferStartToCore (s : ConnectionManager) (request : StartRequest) : ConnectionManager :=
  let s :=
    match s.m_coreStartRequest with
    | some waiting => s.supersede waiting (.request request)
    | none => s
  { s with m_coreStartRequest := slotOf request }

/-- The slot for the kill switch: only the latest request survives. -/
def deferToKillSwitch (s : ConnectionManager) (request : StartRequest) : ConnectionManager :=
  match s.m_killSwitchDeferredStart with
  | some waiting =>
    { s.supersede waiting (.request request) with m_killSwitchDeferredStart := some request }
  | none => { s with m_killSwitchDeferredStart := some request, settleWaiter := true }

def guardRestartPending (s : ConnectionManager) : Bool :=
  s.m_guardCoreRestart.any fun since => s.now - since ≤ kGuardRestartWindowMs

def restartCoreForGuard (s : ConnectionManager) (haveCore : Bool) (request : StartRequest) :
    ConnectionManager :=
  if !haveCore then s.finish request .CoreUnavailable
  else
    let s := s.deferStartToCore request
    if s.guardRestartPending then s else { s with m_guardCoreRestart := some s.now }

/-- `rankBeforeStart`: whether the request waits for a ranking. -/
def rankBeforeStart (s : ConnectionManager) (env : StartEnv) (request : StartRequest) :
    Bool × ConnectionManager :=
  let justRanked := s.rankedFor = request.profileId
  let s := { s with rankedFor := -1 }
  if !env.autoselector || !s.rankings.isEmpty || justRanked then (false, s)
  else if !env.needsRanking then (false, s)
  else (true, { s with rankings := s.rankings ++ [⟨request, .measuring⟩] })

/-! ## A start -/

/-- `start` behind the ranking: the build, the lock and the worker. -/
def startBuilt (s : ConnectionManager) (env : StartEnv) (request : StartRequest) :
    ConnectionManager :=
  if env.buildFailed then s.finish request .BuildFailed
  else if env.core_running && s.running && env.geoMissing then s.finish request .GeoAssetsMissing
  else if s.mu_starting then s.finish request .Busy
  else
    let s := { s with mu_starting := true }
    if s.mu_stopping then { s with mu_starting := false }.finish request .Busy
    else if env.awaitingCoreStarted then
      { s.deferStartToCore request with mu_starting := false }
    else if !env.core_running then
      if !env.canStartCore then { s with mu_starting := false }.finish request .CoreUnavailable
      else { s.deferStartToCore request with mu_starting := false }
    else { s with worker := some ⟨request, false⟩, launched := s.launched ++ [request] }

def start (s : ConnectionManager) (env : StartEnv) (request : StartRequest) : ConnectionManager :=
  if s.prepare_exit then s.finish request .Exiting
  else if request.profileId < 0 ∨ !env.profileFound then s.finish request .NotFound
  else if !env.groupAvailable then s.finish request .GroupUnavailable
  else if s.killSwitch = .Arming then s.deferToKillSwitch request
  else if s.killSwitch = .Failed then s.finish request .KillSwitchInactive
  else if s.guardRestartPending || (s.killSwitch = .Armed && env.runningWithoutGuardIdentity) then
    s.restartCoreForGuard env.haveCore request
  else
    match s.rankBeforeStart env request with
    | (true, s) => s
    | (false, s) => s.startBuilt env request

/-- A request that is made here, not taken from a slot. -/
def newRequest (s : ConnectionManager) (profileId : ℤ) (interactive : Bool) (serial : ℕ) :
    StartRequest × ConnectionManager :=
  (⟨profileId, interactive, serial, some s.tickets⟩, { s with tickets := s.tickets + 1 })

/-- A request from outside. -/
def startNew (s : ConnectionManager) (env : StartEnv) (profileId : ℤ) (interactive : Bool)
    (serial : ℕ) : ConnectionManager :=
  let (request, s) := s.newRequest profileId interactive serial
  s.start env request

/-! ## The start worker -/

def stage2 (env : Stage2Env) : StartOutcome :=
  if env.extraCoreBlocked then .ExtraCoreBlocked
  else if !env.rpcOK then .CoreUnavailable
  else if env.error then
    if env.xrayGeoError then .GeoAssetsMissing
    else if env.fwpm then .StrictRouteUnavailable
    else if env.configureTun then .TunFailed
    else .StartFailed
  else if env.otpError then .StartFailed
  else .Started

def workerFinishes (s : ConnectionManager) (env : Stage2Env) : ConnectionManager :=
  match s.worker with
  | some ⟨request, false⟩ =>
    { s with
      worker := some ⟨request, true⟩
      running := s.running || stage2 env = .Started
      posted := s.posted ++ [⟨request, stage2 env, none⟩] }
  | _ => s

/-- The scope guard of the worker. -/
def workerExits (s : ConnectionManager) : ConnectionManager :=
  match s.worker with
  | some ⟨_, true⟩ => { s with worker := none, mu_starting := false }
  | _ => s

/-- The main thread comes to the oldest posted outcome. -/
def deliver (s : ConnectionManager) : ConnectionManager :=
  match s.posted with
  | [] => s
  | outcome :: later => { s with posted := later, finished := s.finished ++ [outcome] }

/-! ## Stops -/

def stop (s : ConnectionManager) : ConnectionManager :=
  if !s.running || s.mu_stopping then s else { s with mu_stopping := true }

def stopTearsDown (s : ConnectionManager) : ConnectionManager :=
  if s.mu_stopping then { s with running := false } else s

def stopFinishes (s : ConnectionManager) : ConnectionManager := { s with mu_stopping := false }

/-! ## The core -/

def setBootStart (s : ConnectionManager) (profileId : ℤ) (interactive : Bool) (serial : ℕ) :
    ConnectionManager :=
  let s := { s with m_bootSerial := serial }
  if profileId < 0 then s.deferStartToCore ⟨profileId, interactive, serial, none⟩
  else
    let (request, s) := s.newRequest profileId interactive serial
    s.deferStartToCore request

/-- What `onCoreStarted` finds: the starts that restored modes ask for, and whether the
remembered Tun is held. -/
structure CoreStartedEnv where
  modeStarts : List (ℤ × StartEnv)
  tunRestoreHeld : Bool
  start : StartEnv
  deriving DecidableEq, Repr

/-- The request that a `coreStarted` is for: the one in the slot or a new one. -/
def coreStartRequest (s : ConnectionManager) (profileId : ℤ) (waiting : Option StartRequest) :
    StartRequest × ConnectionManager :=
  match waiting with
  | some request =>
    if request.profileId = profileId then (request, s) else s.newRequest profileId true 0
  | none => s.newRequest profileId true 0

/-- The part of `onCoreStarted` behind the restored modes. -/
def takeCoreStart (s : ConnectionManager) (env : CoreStartedEnv) (profileId : ℤ) :
    ConnectionManager :=
  let waiting := s.m_coreStartRequest
  let bootSerial := s.m_bootSerial
  let s := { s with m_coreStartRequest := none, m_bootSerial := 0 }
  let s :=
    match waiting with
    | some request =>
      if request.profileId = profileId then s else s.supersede request (.core profileId)
    | none => s
  if profileId < 0 then s
  else
    let (next, s) := s.coreStartRequest profileId waiting
    if env.tunRestoreHeld ∧ next.serial ≠ 0 ∧ next.serial = bootSerial then
      s.finish next .TunFailed
    else s.start env.start next

def onCoreStarted (s : ConnectionManager) (env : CoreStartedEnv) (profileId : ℤ) :
    ConnectionManager :=
  let s := { s with m_guardCoreRestart := none }
  let s := env.modeStarts.foldl (fun s modeStart => s.startNew modeStart.2 modeStart.1 true 0) s
  s.takeCoreStart env profileId

def onCoreGaveUp (s : ConnectionManager) : ConnectionManager :=
  let s := { s with m_guardCoreRestart := none }
  match s.m_coreStartRequest with
  | some request => { s with m_coreStartRequest := none }.finish request .CoreUnavailable
  | none => s

/-! ## The kill switch -/

/-- What `onKillSwitchStateChanged` asks the core supervisor and the settings. -/
structure GuardEnv where
  runningWithoutGuardIdentity : Bool
  awaitingCoreStarted : Bool
  startWhenUp : ℤ
  started_id : ℤ
  haveCore : Bool
  deriving DecidableEq, Repr

/-- The request that the restart for the guard carries over. -/
def guardRequest (s : ConnectionManager) (env : GuardEnv) : StartRequest × ConnectionManager :=
  if env.awaitingCoreStarted ∧ 0 ≤ env.startWhenUp then
    match s.m_coreStartRequest with
    | some request => (request, { s with m_coreStartRequest := none })
    | none => s.newRequest env.startWhenUp true 0
  else if 0 ≤ env.started_id then s.newRequest env.started_id true 0
  else (⟨env.started_id, true, 0, none⟩, s)

def onKillSwitchStateChanged (s : ConnectionManager) (env : GuardEnv) : ConnectionManager :=
  let failed : Bool := s.killSwitch = .Failed
  let armed : Bool := s.killSwitch = .Armed
  let enteredArmed := armed && !s.m_killSwitchWasArmed
  let s := { s with m_killSwitchWasFailed := failed, m_killSwitchWasArmed := armed }
  if enteredArmed && !s.guardRestartPending && env.runningWithoutGuardIdentity then
    let (request, s) := s.guardRequest env
    s.restartCoreForGuard env.haveCore request
  else s

/-- `setState` of the kill switch. -/
def killSwitchChanges (s : ConnectionManager) (state : KillSwitchState) (env : GuardEnv) :
    ConnectionManager :=
  { s with killSwitch := state }.onKillSwitchStateChanged env

/-- `settle` of the kill switch; a waiter is kept while it arms. -/
def killSwitchSettles (s : ConnectionManager) (env : StartEnv) : ConnectionManager :=
  if s.killSwitch = .Arming ∨ !s.settleWaiter then s
  else
    let next := s.m_killSwitchDeferredStart
    let s := { s with settleWaiter := false, m_killSwitchDeferredStart := none }
    match next with
    | some request => s.start env request
    | none => s

/-! ## Rankings -/

def rankAt (s : ConnectionManager) (k : ℕ) (phase : RankPhase) : Option Ranking :=
  s.rankings[k]?.filter (·.phase = phase)

def setRanking (s : ConnectionManager) (k : ℕ) (ranking : Ranking) : ConnectionManager :=
  { s with rankings := s.rankings.set k ranking }

def dropRanking (s : ConnectionManager) (k : ℕ) : ConnectionManager :=
  { s with rankings := s.rankings.eraseIdx k }

/-- Enough members work, and the thread posts the early start. -/
def quorumMet (s : ConnectionManager) (k : ℕ) : ConnectionManager :=
  match s.rankAt k .measuring with
  | none => s
  | some ranking => s.setRanking k { ranking with phase := .earlyPosted }

/-- The sweep is over without an early start. -/
def sweepDone (s : ConnectionManager) (k : ℕ) : ConnectionManager :=
  match s.rankAt k .measuring with
  | none => s
  | some ranking => s.setRanking k { ranking with phase := .resumePosted }

/-- `startRanked` of a request. -/
def startRanked (s : ConnectionManager) (env : StartEnv) (request : StartRequest) :
    ConnectionManager :=
  let s := { s with rankedFor := request.profileId }
  { s.start env request with rankedFor := -1 }

def resumesEarly (s : ConnectionManager) (k : ℕ) (env : StartEnv) : ConnectionManager :=
  match s.rankAt k .earlyPosted with
  | none => s
  | some ranking =>
    (s.setRanking k { ranking with phase := .measuringOn }).startRanked env ranking.request

def resumes (s : ConnectionManager) (k : ℕ) (env : StartEnv) : ConnectionManager :=
  match s.rankAt k .resumePosted with
  | none => s
  | some ranking => (s.dropRanking k).startRanked env ranking.request

/-- The end of a sweep behind its early start. -/
def earlySweepEnds (s : ConnectionManager) (k : ℕ) : ConnectionManager :=
  match s.rankAt k .measuringOn with
  | none => s
  | some _ => s.dropRanking k

/-- The rebuild of a running selector with its full ranking. -/
def rebuildRanked (s : ConnectionManager) (env : StartEnv) (profileId : ℤ) : ConnectionManager :=
  let (request, s) := s.newRequest profileId true 0
  s.startRanked env request

/-! ## Runs -/

inductive Event where
  | start (env : StartEnv) (profileId : ℤ) (interactive : Bool) (serial : ℕ)
  | stop
  | stopTearsDown
  | stopFinishes
  | setBootStart (profileId : ℤ) (interactive : Bool) (serial : ℕ)
  | coreStarted (env : CoreStartedEnv) (profileId : ℤ)
  | coreGaveUp
  | killSwitchChanges (state : KillSwitchState) (env : GuardEnv)
  | killSwitchSettles (env : StartEnv)
  | quorumMet (k : ℕ)
  | sweepDone (k : ℕ)
  | resumesEarly (k : ℕ) (env : StartEnv)
  | resumes (k : ℕ) (env : StartEnv)
  | earlySweepEnds (k : ℕ)
  | rebuildRanked (env : StartEnv) (profileId : ℤ)
  | workerFinishes (env : Stage2Env)
  | workerExits
  | deliver
  | elapse (ms : ℕ)
  | prepareExit
  deriving DecidableEq, Repr

def step (s : ConnectionManager) : Event → ConnectionManager
  | .start env profileId interactive serial => s.startNew env profileId interactive serial
  | .stop => s.stop
  | .stopTearsDown => s.stopTearsDown
  | .stopFinishes => s.stopFinishes
  | .setBootStart profileId interactive serial => s.setBootStart profileId interactive serial
  | .coreStarted env profileId => s.onCoreStarted env profileId
  | .coreGaveUp => s.onCoreGaveUp
  | .killSwitchChanges state env => s.killSwitchChanges state env
  | .killSwitchSettles env => s.killSwitchSettles env
  | .quorumMet k => s.quorumMet k
  | .sweepDone k => s.sweepDone k
  | .resumesEarly k env => s.resumesEarly k env
  | .resumes k env => s.resumes k env
  | .earlySweepEnds k => s.earlySweepEnds k
  | .rebuildRanked env profileId => s.rebuildRanked env profileId
  | .workerFinishes env => s.workerFinishes env
  | .workerExits => s.workerExits
  | .deliver => s.deliver
  | .elapse ms => { s with now := s.now + ms }
  | .prepareExit => { s with prepare_exit := true }

/-! ## What starts are for -/

/-- The requests that no worker has been started for. -/
def parked (s : ConnectionManager) : List StartRequest :=
  s.m_killSwitchDeferredStart.toList ++ s.m_coreStartRequest.toList ++
    s.rankings.flatMap Ranking.waiting

/-- The requests that have no answer yet, wherever they wait. -/
def waiting (s : ConnectionManager) : List StartRequest :=
  s.parked ++ s.worker.toList.flatMap StartWorker.waiting ++ s.posted.map Finish.request

/-- How often a ticket stands in a list of requests. -/
def ticketCount (t : ℕ) (requests : List StartRequest) : ℕ :=
  requests.countP fun request => request.ticket = some t

end ConnectionManager

end Throned.Engine
