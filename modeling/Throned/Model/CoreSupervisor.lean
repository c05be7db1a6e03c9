import Mathlib.Data.Int.Notation
import Mathlib.Data.Nat.Notation

/-!
# The core supervisor

`CoreSupervisor` (src/engine/supervisor/CoreSupervisor.cpp:183-306, 390-476, 574-739) starts the
core, accepts its connection and restarts it when it exits.  A step is one handler or request on
the main thread, or one task of the thread that owns the process, which runs what is posted to
it in order and on which the generations advance.

Reports of spawns, of exits and of the privilege probe are whatever arrives.
-/

set_option autoImplicit false

namespace Throned.Engine

inductive CoreState where
  | NotStarted
  | Starting
  | Connected
  | Backoff
  | GaveUp
  | ListenFailed
  | ShuttingDown
  deriving DecidableEq, Repr

def kConnectTimeoutMs : ℕ := 20000

def kStableMs : ℕ := 60 * 1000

def kBackoffFirstMs : ℕ := 500

def kBackoffCapMs : ℕ := 30000

def kGiveUpAfter : ℕ := 5

def kProfileCrashWindowMs : ℕ := 10000

def kIntentRestartDelayMs : ℕ := 200

def kCoreIdentityExitCode : Int := 86

def NoProfileId : Int := -1919

/-- What is posted to the thread of the process. -/
inductive Task where
  | start
  | restart
  /-- A kill that marks the exit as expected: that of `resetCore`, which also forgets the
  started profile, and that of `killForPrivilegeChange`. -/
  | resetKill
  | privilegeKill
  /-- The kill after a connect timeout. -/
  | killGeneration (gen : ℕ)
  | kill
  deriving DecidableEq, Repr

inductive Signal where
  | rpcConnected
  | coreStarted (profileId : Int)
  | coreGaveUp
  | stateChanged (state : CoreState)
  | coreExited (wasConnected : Bool)
  deriving DecidableEq, Repr

structure CoreSupervisor where
  state : CoreState
  expectedExitGen : ℕ
  startWhenUp : Int
  probing : Bool
  failures : ℕ
  startFailures : ℕ
  handledExitGen : ℕ
  acceptedGen : ℕ
  connectGen : ℕ
  timedOutGen : ℕ
  restartCount : ℕ
  /-- When the armed timers are due. -/
  restartTimer : Option ℕ
  connectTimer : Option ℕ
  /-- When the elapsed timers were started. -/
  connectedAt : Option ℕ
  profileCrashTimer : Option ℕ
  now : ℕ
  /-- The generation of the process; 0 before there is one. -/
  generation : ℕ
  cores : List Task
  /-- Calls of `restartDeadCore` that are posted to the main thread. -/
  deadCorePosts : ℕ
  started_id : Int
  prepare_exit : Bool
  /-- Of the kill switch. -/
  identityUnsupported : Bool
  /-- All signals so far. -/
  signals : List Signal
  deriving DecidableEq, Repr

namespace CoreSupervisor

/-- After `listen`, which may have failed. -/
def init (listening : Bool) : CoreSupervisor :=
  { state := if listening then .NotStarted else .ListenFailed
    expectedExitGen := 0
    startWhenUp := -1
    probing := false
    failures := 0
    startFailures := 0
    handledExitGen := 0
    acceptedGen := 0
    connectGen := 0
    timedOutGen := 0
    restartCount := 0
    restartTimer := none
    connectTimer := none
    connectedAt := none
    profileCrashTimer := none
    now := 0
    generation := 0
    cores := []
    deadCorePosts := 0
    started_id := NoProfileId
    prepare_exit := false
    identityUnsupported := false
    signals := [] }

def exiting (s : CoreSupervisor) : Bool := s.state = .ShuttingDown || s.prepare_exit

def canStartCore (s : CoreSupervisor) : Bool :=
  s.state ≠ .ListenFailed && s.state ≠ .ShuttingDown

def emit (s : CoreSupervisor) (signal : Signal) : CoreSupervisor :=
  { s with signals := s.signals ++ [signal] }

def setState (s : CoreSupervisor) (state : CoreState) : CoreSupervisor :=
  if s.state = state then s else { s with state := state }.emit (.stateChanged state)

/-- `runOnThread` on the thread of the process. -/
def post (s : CoreSupervisor) (task : Task) : CoreSupervisor := { s with cores := s.cores ++ [task] }

/-! ## Restarts -/

def beginRestart (s : CoreSupervisor) : CoreSupervisor :=
  { s with
    probing := false
    restartTimer := none
    connectTimer := none
    failures := 0
    startFailures := 0 }.setState .Starting

def postProcessRestart (s : CoreSupervisor) : CoreSupervisor :=
  { s with
    handledExitGen := max s.handledExitGen s.generation
    restartCount := s.restartCount + 1 }.post .restart

def scheduleRestart (s : CoreSupervisor) (delayMs : ℕ) : CoreSupervisor :=
  { s.setState .Backoff with restartTimer := some (s.now + delayMs) }

/-- The restart timer fires. -/
def postRestart (s : CoreSupervisor) : CoreSupervisor :=
  if s.state ≠ .Backoff ∨ s.exiting = true then s
  else (s.setState .Starting).postProcessRestart

def restartDeadCore (s : CoreSupervisor) (startWhenUpProfileId : Int) : CoreSupervisor :=
  if (s.state ≠ .Backoff ∧ s.state ≠ .GaveUp) ∨ s.exiting = true then s
  else { s.beginRestart with startWhenUp := startWhenUpProfileId }.postProcessRestart

/-! ## Requests -/

def start (s : CoreSupervisor) (startWhenUpProfileId : Int) : CoreSupervisor :=
  if s.state ≠ .NotStarted then s
  else
    let s := if 0 ≤ startWhenUpProfileId then { s with startWhenUp := startWhenUpProfileId } else s
    (s.setState .Starting).post .start

def shutdown (s : CoreSupervisor) : CoreSupervisor :=
  { s.setState .ShuttingDown with
    probing := false
    restartTimer := none
    connectTimer := none }.post .kill

def killForExit (s : CoreSupervisor) : CoreSupervisor :=
  { s.setState .ShuttingDown with
    probing := false
    restartTimer := none
    connectTimer := none }.post .kill

def resetCore (s : CoreSupervisor) : CoreSupervisor :=
  if s.canStartCore = false ∨ s.exiting = true then s
  else if s.state = .Backoff ∨ s.state = .GaveUp then
    -- that exit was already handled, so no exit report would restart the core
    { s.beginRestart with startWhenUp := -1, started_id := NoProfileId }.postProcessRestart
  else s.beginRestart.post .resetKill

def restartNotListening (s : CoreSupervisor) (profileId : Int) : CoreSupervisor :=
  if s.canStartCore = false ∨ s.exiting = true then s
  else { s.beginRestart with startWhenUp := profileId }.postProcessRestart

def restartForGuard (s : CoreSupervisor) : CoreSupervisor :=
  if s.canStartCore = false ∨ s.exiting = true then s
  else s.beginRestart.postProcessRestart

def killForPrivilegeChange (s : CoreSupervisor) : CoreSupervisor :=
  if s.state = .ListenFailed ∨ s.state = .ShuttingDown then s
  else if s.state = .Backoff ∨ s.state = .GaveUp then
    { s with deadCorePosts := s.deadCorePosts + 1 }
  else s.post .privilegeKill

/-- The posted call of `killForPrivilegeChange` for a core that is dead. -/
def deadCorePosted (s : CoreSupervisor) : CoreSupervisor :=
  if s.deadCorePosts = 0 then s
  else { s with deadCorePosts := s.deadCorePosts - 1 }.restartDeadCore s.started_id

def setStartWhenUp (s : CoreSupervisor) (profileId : Int) : CoreSupervisor :=
  if s.generation = 0 then s else { s with startWhenUp := profileId }

def cancelResume (s : CoreSupervisor) : CoreSupervisor :=
  { s with startWhenUp := -1, started_id := NoProfileId }

/-! ## Connections -/

def emitCoreStarted (s : CoreSupervisor) : CoreSupervisor :=
  { s with startFailures := 0, startWhenUp := -1 }.emit (.coreStarted s.startWhenUp)

/-- A connection from the core of a generation, or from another process.  The pid is that of the
current generation's core only. -/
def onNewConnection (windows : Bool) (s : CoreSupervisor) (peer : Option ℕ) : CoreSupervisor :=
  let gen := s.generation
  if gen = 0 ∨ peer ≠ some gen then s
  else if gen ≤ s.handledExitGen ∨ gen ≤ s.timedOutGen then s
  else
    let s := s.emit .rpcConnected
    if s.exiting then s
    else
      let s :=
        if s.acceptedGen < gen then { s with acceptedGen := gen, connectedAt := some s.now } else s
      let s := { s with connectTimer := none }.setState .Connected
      if windows then s.emitCoreStarted else { s with probing := true }

/-- The reply of the privilege probe; later attempts only refresh a cached answer. -/
def onPrivilegeProbed (s : CoreSupervisor) (gen : ℕ) (ok : Bool) (attempt : ℕ)
    (isConnected : Bool) : CoreSupervisor :=
  if (attempt = 0 ∧ s.probing = false) ∨ gen ≠ s.acceptedGen ∨ s.state ≠ .Connected ∨
      s.exiting = true then s
  else if ok = false ∧ isConnected = false then s
  else if 0 < attempt then s
  else { s with probing := false }.emitCoreStarted

def onCoreSpawned (s : CoreSupervisor) (gen : ℕ) : CoreSupervisor :=
  if s.state ≠ .Starting ∨ gen ≤ s.acceptedGen ∨ s.exiting = true then s
  else { s with connectGen := gen, connectTimer := some (s.now + kConnectTimeoutMs) }

/-- The generation that a connect timeout gives up on. -/
def timesOut (s : CoreSupervisor) : Option ℕ :=
  if s.state ≠ .Starting ∨ s.exiting = true then none
  else if s.connectGen ≤ s.acceptedGen ∨ s.connectGen ≠ s.generation then none
  else some s.connectGen

def onConnectTimeout (s : CoreSupervisor) : CoreSupervisor :=
  match s.timesOut with
  | none => s
  | some gen => { s with timedOutGen := gen }.post (.killGeneration gen)

/-! ## Exits -/

/-- The core of an exit had connected and sent its `coreStarted`. -/
def wasConnected (s : CoreSupervisor) (gen : ℕ) (failedToStart : Bool) : Bool :=
  !failedToStart && gen = s.acceptedGen && !s.probing

/-- The crash follows the last one of a connected core within the window. -/
def crashedAgain (s : CoreSupervisor) : Bool :=
  s.profileCrashTimer.any fun since => s.now - since < kProfileCrashWindowMs

def countFailure (s : CoreSupervisor) (wasConnected : Bool) : CoreSupervisor :=
  let stable := wasConnected && s.connectedAt.any fun since => kStableMs ≤ s.now - since
  { s with
    failures := (if stable then 0 else s.failures) + 1
    startFailures := if wasConnected then s.startFailures else s.startFailures + 1 }

/-- What is resumed after an unexpected exit. -/
def resumeAfter (s : CoreSupervisor) (wasConnected : Bool) : CoreSupervisor :=
  let tooFrequent := wasConnected && s.crashedAgain
  let s :=
    if wasConnected then
      { s with profileCrashTimer := if s.crashedAgain then none else some s.now }
    else s
  -- a core that never connected never took the waiting start
  if wasConnected = true ∨ s.startWhenUp < 0 then
    if tooFrequent = true ∧ 0 ≤ s.started_id then
      { s with startWhenUp := -1, started_id := NoProfileId }
    else { s with startWhenUp := s.started_id }
  else s

def givesUp (s : CoreSupervisor) (wasConnected : Bool) : Bool :=
  (kGiveUpAfter ≤ s.failures && s.startWhenUp < 0) ||
    (!wasConnected && kGiveUpAfter ≤ s.startFailures)

def giveUp (s : CoreSupervisor) : CoreSupervisor :=
  ({ s with startWhenUp := -1, started_id := NoProfileId }.setState .GaveUp).emit .coreGaveUp

def backoffMs (failures : ℕ) : ℕ :=
  min (kBackoffFirstMs <<< min (failures - 1) 6) kBackoffCapMs

/-- An exit that no request and no missing guard identity explains. -/
def onUnexpectedExit (s : CoreSupervisor) (wasConnected : Bool) : CoreSupervisor :=
  let s := ((s.countFailure wasConnected).resumeAfter wasConnected).emit (.coreExited wasConnected)
  if s.givesUp wasConnected then s.giveUp else s.scheduleRestart (backoffMs s.failures)

/-- The exit of a core that a request has killed. -/
def onExpectedExit (s : CoreSupervisor) (wasProbing : Bool) : CoreSupervisor :=
  { s with
    failures := 0
    startFailures := 0
    -- a start still waiting for the probing core carries over to the restarted one
    startWhenUp :=
      if wasProbing = false ∨ s.startWhenUp < 0 then s.started_id else s.startWhenUp
    }.scheduleRestart kIntentRestartDelayMs

/-- The part of `onCoreExited` for a generation whose exit was not handled before. -/
def actOnExit (s : CoreSupervisor) (gen : ℕ) (failedToStart : Bool) (exitCode : Int) :
    CoreSupervisor :=
  let wasProbing := s.probing && decide (gen = s.acceptedGen)
  let connected := s.wasConnected gen failedToStart
  let s := { s with handledExitGen := gen, probing := s.probing && !wasProbing }
  if s.exiting then s
  else
    let s := { s with connectTimer := none }
    if s.expectedExitGen = gen then s.onExpectedExit wasProbing
    else if connected = false ∧ exitCode = kCoreIdentityExitCode ∧ s.identityUnsupported = false then
      { s with identityUnsupported := true }.scheduleRestart kIntentRestartDelayMs
    else s.onUnexpectedExit connected

def onCoreExited (s : CoreSupervisor) (gen : ℕ) (failedToStart : Bool) (exitCode : Int) :
    CoreSupervisor :=
  if gen ≤ s.handledExitGen then s else s.actOnExit gen failedToStart exitCode

/-! ## The thread of the process -/

def runTask (s : CoreSupervisor) : Task → CoreSupervisor
  | .start => { s with generation := s.generation + 1 }
  | .restart =>
    if s.generation = 0 ∨ s.prepare_exit = true then s else { s with generation := s.generation + 1 }
  | .resetKill =>
    if s.generation = 0 then s
    else { s with started_id := NoProfileId, expectedExitGen := s.generation }
  | .privilegeKill => if s.generation = 0 then s else { s with expectedExitGen := s.generation }
  | .killGeneration _ => s
  | .kill => s

/-- The next task of the thread. -/
def runNext (s : CoreSupervisor) : CoreSupervisor :=
  match s.cores with
  | [] => s
  | task :: rest => { s with cores := rest }.runTask task

/-- A timer that is due is disarmed, and its handler runs. -/
def restartTimeout (s : CoreSupervisor) : CoreSupervisor :=
  if s.restartTimer.any (· ≤ s.now) then { s with restartTimer := none }.postRestart else s

def connectTimeout (s : CoreSupervisor) : CoreSupervisor :=
  if s.connectTimer.any (· ≤ s.now) then { s with connectTimer := none }.onConnectTimeout else s

inductive Event where
  | start (startWhenUpProfileId : Int)
  | shutdown
  | killForExit
  | resetCore
  | restartNotListening (profileId : Int)
  | restartForGuard
  | killForPrivilegeChange
  | deadCorePosted
  | setStartWhenUp (profileId : Int)
  | cancelResume
  | newConnection (peer : Option ℕ)
  | privilegeProbed (gen : ℕ) (ok : Bool) (attempt : ℕ) (isConnected : Bool)
  | coreSpawned (gen : ℕ)
  | coreExited (gen : ℕ) (failedToStart : Bool) (exitCode : Int)
  | restartTimeout
  | connectTimeout
  /-- The thread of the process runs its next task. -/
  | runNext
  | elapse (ms : ℕ)
  /-- A profile was started or stopped. -/
  | setStartedId (id : Int)
  | prepareExit
  deriving DecidableEq, Repr

def step (windows : Bool) (s : CoreSupervisor) : Event → CoreSupervisor
  | .start id => s.start id
  | .shutdown => s.shutdown
  | .killForExit => s.killForExit
  | .resetCore => s.resetCore
  | .restartNotListening id => s.restartNotListening id
  | .restartForGuard => s.restartForGuard
  | .killForPrivilegeChange => s.killForPrivilegeChange
  | .deadCorePosted => s.deadCorePosted
  | .setStartWhenUp id => s.setStartWhenUp id
  | .cancelResume => s.cancelResume
  | .newConnection peer => s.onNewConnection windows peer
  | .privilegeProbed gen ok attempt isConnected => s.onPrivilegeProbed gen ok attempt isConnected
  | .coreSpawned gen => s.onCoreSpawned gen
  | .coreExited gen failedToStart exitCode => s.onCoreExited gen failedToStart exitCode
  | .restartTimeout => s.restartTimeout
  | .connectTimeout => s.connectTimeout
  | .runNext => s.runNext
  | .elapse ms => { s with now := s.now + ms }
  | .setStartedId id => { s with started_id := id }
  | .prepareExit => { s with prepare_exit := true }

def run (windows : Bool) (s : CoreSupervisor) (events : List Event) : CoreSupervisor :=
  events.foldl (step windows) s

end CoreSupervisor

end Throned.Engine
