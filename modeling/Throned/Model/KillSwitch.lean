import Throned.Library.Runs
import Throned.Library.Text
import Mathlib.Data.Int.Notation
import Mathlib.Logic.Function.Basic

/-!
# The kill switch

The state machine of `Sys::KillSwitch` (src/sys/KillSwitch.cpp:50-131, 200-588) over its guard
processes.  Signals and callbacks let others act in the middle of a handler, so what a handler
still has to do then stands on a stack, `todo`; it is pushed before the signal is sent.

What a `QProcess` may report is as documented: a failed start while it starts, lines while it
runs, and lines before its end.  The resolution of extra core paths is the host's.  Logging,
the process group, the stop of a guard that does not end and the guards' deletion are left out.
-/

set_option autoImplicit false

namespace Throned.Sys

open Throned.Library

/-! ## The configuration of a guard -/

inductive Os where
  | linux
  | windows
  | macos
  deriving DecidableEq, Repr

/-- The system, with its path resolution and its folding of cases. -/
structure Host where
  os : Os
  nativePath : Text → Text
  foldCase : Text → Text

structure Settings where
  kill_switch : Bool
  prepare_exit : Bool
  disable_private_range_bypass : Bool
  vpn_tun_ipv4_cidr : Text
  vpn_tun_ipv6_cidr : Text
  vpn_l3_bridge : Bool
  extraCorePaths : List Text
  deriving DecidableEq, Repr

structure GuardConfig where
  allow_lan : Bool
  tun_name : Text
  tun_cidrs : List Text
  extra_paths : List Text
  bridge_name : Text
  api_port : ℕ
  deriving DecidableEq, Repr

def tunName (host : Host) : Text :=
  match host.os with
  | .macos => []
  | _ => ['t', 'h', 'r', 'o', 'n', 'e', '-', 't', 'u', 'n']

def bridgeName (host : Host) (settings : Settings) : Text :=
  if host.os = .linux ∧ settings.vpn_l3_bridge then ['t', 'h', 'r', 'o', 'n', 'e', '-', 'b', 'r']
  else []

/-- The paths of the extra cores, each once. -/
def extraPaths (host : Host) : List Text → List Text → List Text
  | taken, [] => taken
  | taken, path :: paths =>
    let native := host.nativePath path
    if native = [] ∨ (taken.map host.foldCase).contains (host.foldCase native) then
      extraPaths host taken paths
    else extraPaths host (taken ++ [native]) paths

def buildConfig (host : Host) (settings : Settings) (apiPort : ℕ) : GuardConfig where
  allow_lan := !settings.disable_private_range_bypass
  tun_name := tunName host
  tun_cidrs := [settings.vpn_tun_ipv4_cidr, settings.vpn_tun_ipv6_cidr]
  extra_paths := if host.os = .windows then extraPaths host [] settings.extraCorePaths else []
  bridge_name := bridgeName host settings
  api_port := apiPort

/-! ## States -/

inductive State where
  | Disabled
  | Arming
  | Armed
  | Failed
  deriving DecidableEq, Repr

inductive ProcessPhase where
  | unstarted
  | starting
  | running
  | finished
  deriving DecidableEq, Repr

structure GuardProcess where
  config : GuardConfig
  /-- The launch-only key. -/
  keep_states : Bool
  readyTimer : Bool
  ready : Bool
  closing : Bool
  phase : ProcessPhase
  deriving DecidableEq, Repr

def GuardProcess.close (guard : GuardProcess) : GuardProcess :=
  if guard.closing then guard else { guard with closing := true, readyTimer := false }

structure Waiter where
  id : ℕ
  /-- The object it is bound to. -/
  context : Option ℕ
  idle : Bool
  deriving DecidableEq, Repr

/-- What the settings, the other objects and the processes do. -/
inductive Op where
  | setSettings (settings : Settings)
  | setOverride (overridden : Bool)
  | apply
  | noteIdentityUnsupported (detail : Text)
  | setApiPort (port : ℕ)
  /-- The queued half of `SetApiPort`. -/
  | apiPortChanged
  | whenSettled (context : Option ℕ)
  | whenIdle
  | destroyed (context : ℕ)
  | started (guard : ℕ)
  | startFailed (guard : ℕ) (program errorString : Text)
  | readOutput (guard : ℕ) (line : Text)
  | finished (guard : ℕ) (lines : List Text) (exitCode : ℤ) (crashed : Bool)
  | readyTimeout (guard : ℕ)
  /-- The timer of `armFailed`. -/
  | respawnTimeout
  | elapse (ms : ℕ)
  | shutdown
  deriving DecidableEq, Repr

inductive Todo where
  | op (op : Op)
  /-- The others run: a signal was sent or a callback called. -/
  | others
  | settle
  | settleRest (waiting : List Waiter)
  /-- `apply` behind the report of an identity failure. -/
  | applyRest
  /-- `spawn` behind its signal. -/
  | start (guard : ℕ)
  | line (guard : ℕ) (line : Text)
  /-- `onFinished` behind the lines. -/
  | exited (guard : ℕ) (exitCode : ℤ) (crashed : Bool)
  deriving DecidableEq, Repr

structure KillSwitch where
  settings : Settings
  apiPort : ℕ
  now : ℕ
  /-- The objects that are no longer there. -/
  gone : List ℕ
  state : State
  identityUnsupported : Bool
  identityDetail : Text
  overridden : Bool
  active : Option ℕ
  pending : Option ℕ
  failureCode : Text
  failureMessage : Text
  lastRespawn : Option ℕ
  waiters : List Waiter
  shutdown : Bool
  guards : ℕ → GuardProcess
  /-- The guards so far; the number of the next one. -/
  spawned : ℕ
  /-- Calls of `armFailed`'s timer and of `SetApiPort` that are to come. -/
  respawns : ℕ
  queuedPorts : ℕ
  /-- The waiters so far, and the callbacks with their arguments. -/
  registered : ℕ
  called : List (ℕ × Bool)
  todo : List Todo

namespace KillSwitch

def kReadyTimeoutMs : ℕ := 15000

def kRespawnIntervalMs : ℕ := 30000

def kPrivilege : Text := "privilege".toList

def kUnsupported : Text := "unsupported".toList

def kConfig : Text := "config".toList

def kInternal : Text := "internal".toList

def kCrash : Text := "crash".toList

def kTimeout : Text := "timeout".toList

def kOverridden : Text := "overridden".toList

/-! ## Texts -/

def killSwitchIdentityMessage (detail : Text) : Text :=
  ("the core cannot adopt the kill-switch group 1950896719 here (it needs CAP_SETGID and that " ++
    "GID mapped in this user namespace); the kill switch keeps blocking traffic, and profiles " ++
    "stay refused until kill_switch is turned off").toList ++
    if detail = [] then [] else "; the core reported: ".toList ++ detail

def overriddenMessage : Text :=
  ("turned off for this run by --no-kill-switch (THRONE_KILL_SWITCH); profiles stay refused " ++
    "until kill_switch is turned off").toList

def timeoutMessage : Text :=
  "the kill switch did not respond within ".toList ++ decimal (kReadyTimeoutMs / 1000) ++
    " seconds".toList

def startMessage (program errorString : Text) : Text :=
  "could not start ".toList ++ program ++ ": ".toList ++ errorString

def exitCodeText (exitCode : ℤ) : Text :=
  if exitCode < 0 then '-' :: decimal exitCode.natAbs else decimal exitCode.natAbs

def lostMessage (exitCode : ℤ) (crashed : Bool) : Text :=
  if crashed then "the kill switch process crashed".toList
  else "the kill switch process exited with code ".toList ++ exitCodeText exitCode

def notReadyMessage (exitCode : ℤ) (crashed : Bool) : Text :=
  if crashed then "the kill switch process crashed before it was ready".toList
  else
    "the kill switch process exited with code ".toList ++ exitCodeText exitCode ++
      " before it was ready".toList

/-- `section(' ', 0, 0)`. -/
def firstWord (line : Text) : Text := line.takeWhile (· ≠ ' ')

/-- `section(' ', 1)`. -/
def otherWords (line : Text) : Text := (line.dropWhile (· ≠ ' ')).drop 1

def verbWarn : Text := ['W', 'A', 'R', 'N']

def verbReady : Text := ['R', 'E', 'A', 'D', 'Y']

def verbError : Text := ['E', 'R', 'R', 'O', 'R']

def verbFail : Text := ['F', 'A', 'I', 'L']

/-- The codes that no respawn can fix. -/
def lasting (code : Text) : Prop := code = kPrivilege ∨ code = kUnsupported ∨ code = kConfig

instance (code : Text) : Decidable (lasting code) :=
  inferInstanceAs (Decidable (_ ∨ _ ∨ _))

/-! ## Parts of the handlers -/

def push (t : Todo) (s : KillSwitch) : KillSwitch := { s with todo := t :: s.todo }

/-- The signal is sent on a change only. -/
def setState (state : State) (s : KillSwitch) : KillSwitch :=
  { s with
    state := state
    failureCode := if state = .Failed then s.failureCode else []
    failureMessage := if state = .Failed then s.failureMessage else []
    todo := if s.state = state then s.todo else .others :: s.todo }

def closeGuard (guard : Option ℕ) (s : KillSwitch) : KillSwitch :=
  { s with guards := fun g => if guard = some g then (s.guards g).close else s.guards g }

def setGuard (guard : ℕ) (process : GuardProcess) (s : KillSwitch) : KillSwitch :=
  { s with guards := Function.update s.guards guard process }

/-- Both guards. -/
def closeGuards (s : KillSwitch) : KillSwitch :=
  { closeGuard s.active (closeGuard s.pending s) with active := none, pending := none }

def fail (code message : Text) (s : KillSwitch) : KillSwitch :=
  setState .Failed (push .settle { s with failureCode := code, failureMessage := message })

def failIdentity (s : KillSwitch) : KillSwitch :=
  let message := killSwitchIdentityMessage s.identityDetail
  if s.state ≠ .Failed ∨ s.failureCode ≠ kUnsupported ∨ s.failureMessage ≠ message then
    setState .Failed
      (push .settle { s with failureCode := kUnsupported, failureMessage := message })
  else push .settle s

def spawn (config : GuardConfig) (s : KillSwitch) : KillSwitch :=
  let s := closeGuard s.pending s
  let guard := s.spawned
  let s := push (.start guard)
    (setGuard guard ⟨config, s.active.isSome, false, false, false, .unstarted⟩
      { s with spawned := s.spawned + 1, pending := some guard })
  if s.active = none ∧ !s.identityUnsupported then setState .Arming s else s

/-- A failed start is reported out of `start` on some systems. -/
def start (guard : ℕ) (s : KillSwitch) : KillSwitch :=
  let process := s.guards guard
  let phase := if process.phase = .unstarted then .starting else process.phase
  push .others (setGuard guard { process with readyTimer := true, phase } s)

/-! ## Handlers -/

def applyRest (host : Host) (s : KillSwitch) : KillSwitch :=
  let config := buildConfig host s.settings s.apiPort
  let runsWith (guard : Option ℕ) := guard.any fun g => (s.guards g).config = config
  if runsWith s.pending then s
  else if runsWith s.active then
    match s.pending with
    | some _ => push .settle { closeGuard s.pending s with pending := none }
    | none => s
  else spawn config s

def apply (host : Host) (s : KillSwitch) : KillSwitch :=
  if s.shutdown then s
  else if !s.settings.kill_switch then
    setState .Disabled
      (push .settle { closeGuards s with identityUnsupported := false, identityDetail := [] })
  else if s.overridden then
    let s := closeGuards s
    if s.state = .Failed ∧ s.failureCode = kOverridden ∧ s.failureMessage = overriddenMessage then
      push .settle s
    else fail kOverridden overriddenMessage s
  else if s.identityUnsupported ∧ s.state = .Armed then failIdentity (push .applyRest s)
  else applyRest host s

def noteIdentityUnsupported (host : Host) (detail : Text) (s : KillSwitch) : KillSwitch :=
  apply host { s with identityDetail := detail, identityUnsupported := true }

/-- Queued by `SetApiPort`: an apply that races the change cannot keep the old port. -/
def apiPortChanged (host : Host) (s : KillSwitch) : KillSwitch :=
  if s.state ≠ .Arming ∧ s.state ≠ .Armed ∧ s.active = none ∧ s.pending = none then s
  else if s.settings.prepare_exit then s
  else apply host s

def call (waiter : Waiter) (s : KillSwitch) : KillSwitch :=
  push .others { s with called := s.called ++ [(waiter.id, decide (s.state = .Armed))] }

def whenSettled (context : Option ℕ) (s : KillSwitch) : KillSwitch :=
  let waiter : Waiter := ⟨s.registered, context, false⟩
  let s := { s with registered := s.registered + 1 }
  if s.state ≠ .Arming then call waiter s else { s with waiters := s.waiters ++ [waiter] }

def whenIdle (s : KillSwitch) : KillSwitch :=
  let waiter : Waiter := ⟨s.registered, none, true⟩
  let s := { s with registered := s.registered + 1 }
  if s.pending = none then call waiter s else { s with waiters := s.waiters ++ [waiter] }

def armFailed (code message : Text) (s : KillSwitch) : KillSwitch :=
  if s.active ≠ none then
    push .settle { s with respawns := if lasting code then s.respawns else s.respawns + 1 }
  else fail code message s

def respawnTimeout (host : Host) (s : KillSwitch) : KillSwitch :=
  if s.shutdown ∨ s.pending ≠ none ∨ s.active = none then s
  else if s.settings.prepare_exit then s
  else apply host s

def protectionLost (host : Host) (code message : Text) (s : KillSwitch) : KillSwitch :=
  if s.shutdown then s
  else if !s.settings.kill_switch then apply host s
  else if s.pending ≠ none then
    if s.identityUnsupported then push .settle s else setState .Arming (push .settle s)
  else if ¬ lasting code ∧ s.lastRespawn.all (fun since => kRespawnIntervalMs < s.now - since) then
    spawn (buildConfig host s.settings s.apiPort) { s with lastRespawn := some s.now }
  else fail code message s

def onReady (guard : ℕ) (s : KillSwitch) : KillSwitch :=
  if s.pending ≠ some guard ∨ (s.guards guard).ready then s
  else
    let previous := s.active
    let s := closeGuard previous
      (setGuard guard { s.guards guard with ready := true, readyTimer := false }
        { s with active := some guard, pending := none })
    if s.identityUnsupported then failIdentity s else setState .Armed (push .settle s)

/-- A guard that is no longer one of the two changes nothing. -/
def forget (guard : ℕ) (s : KillSwitch) : KillSwitch :=
  { s with
    active := if s.active = some guard then none else s.active
    pending := if s.pending = some guard then none else s.pending }

/-- What the loss of a guard means where it was one of the two. -/
def lost (host : Host) (guard : ℕ) (code activeMessage pendingMessage : Text)
    (before s : KillSwitch) : KillSwitch :=
  if before.active = some guard then protectionLost host code activeMessage s
  else if before.pending = some guard then armFailed code pendingMessage s
  else s

def handleLine (host : Host) (guard : ℕ) (line : Text) (s : KillSwitch) : KillSwitch :=
  let verb := firstWord line
  if verb = verbWarn then s
  else if verb = verbReady then onReady guard s
  else if verb ≠ verbError ∧ verb ≠ verbFail then s
  else if (s.guards guard).closing then s
  else
    let code := firstWord (otherWords line)
    let message := otherWords (otherWords line)
    lost host guard code message message s (closeGuard (some guard) (forget guard s))

def onReadyTimeout (guard : ℕ) (s : KillSwitch) : KillSwitch :=
  if s.pending ≠ some guard ∨ (s.guards guard).ready then s
  else armFailed kTimeout timeoutMessage (closeGuard (some guard) { s with pending := none })

def onStartFailed (guard : ℕ) (program errorString : Text) (s : KillSwitch) : KillSwitch :=
  let wasPending := !(s.guards guard).closing ∧ s.pending = some guard
  let s := setGuard guard { s.guards guard with readyTimer := false, closing := true }
    { s with pending := if wasPending then none else s.pending }
  if wasPending then armFailed kInternal (startMessage program errorString) s else s

/-- `onFinished` behind the lines. -/
def onFinished (host : Host) (guard : ℕ) (exitCode : ℤ) (crashed : Bool) (s : KillSwitch) :
    KillSwitch :=
  let ended := setGuard guard { s.guards guard with readyTimer := false, closing := true }
  if (s.guards guard).closing then ended s
  else
    lost host guard kCrash (lostMessage exitCode crashed) (notReadyMessage exitCode crashed) s
      (ended (forget guard s))

def settle (s : KillSwitch) : KillSwitch :=
  push (.settleRest s.waiters) { s with waiters := [] }

/-- What keeps a waiter in the queue. -/
def waits (waiter : Waiter) (s : KillSwitch) : Bool :=
  if waiter.idle then s.pending ≠ none else s.state = .Arming

def settleRest (waiting : List Waiter) (s : KillSwitch) : KillSwitch :=
  match waiting with
  | [] => s
  | waiter :: waiting =>
    if waits waiter s then
      push (.settleRest waiting) { s with waiters := s.waiters ++ [waiter] }
    else if waiter.context.any (· ∈ s.gone) then push (.settleRest waiting) s
    else call waiter (push (.settleRest waiting) s)

/-- Every guard that is left is told to end. -/
def shutdownAll (s : KillSwitch) : KillSwitch :=
  if s.shutdown then s
  else
    { s with
      shutdown := true
      waiters := []
      active := none
      pending := none
      guards := fun g => { s.guards g with closing := true, readyTimer := false } }

/-! ## Runs -/

def handle (host : Host) (s : KillSwitch) : Op → KillSwitch
  | .setSettings settings => { s with settings := settings }
  | .setOverride overridden => { s with overridden := overridden }
  | .apply => apply host s
  | .noteIdentityUnsupported detail => noteIdentityUnsupported host detail s
  | .setApiPort port =>
    if s.apiPort = port then s else { s with apiPort := port, queuedPorts := s.queuedPorts + 1 }
  | .apiPortChanged =>
    if s.queuedPorts = 0 then s
    else apiPortChanged host { s with queuedPorts := s.queuedPorts - 1 }
  | .whenSettled context => whenSettled context s
  | .whenIdle => whenIdle s
  | .destroyed context => { s with gone := context :: s.gone }
  | .started guard =>
    if (s.guards guard).phase = .starting then
      setGuard guard { s.guards guard with phase := .running } s
    else s
  | .startFailed guard program errorString =>
    if (s.guards guard).phase = .starting then
      onStartFailed guard program errorString
        (setGuard guard { s.guards guard with phase := .finished } s)
    else s
  | .readOutput guard line =>
    if (s.guards guard).phase = .running then handleLine host guard line s else s
  | .finished guard lines exitCode crashed =>
    if (s.guards guard).phase = .running then
      { setGuard guard { s.guards guard with phase := .finished } s with
        todo := lines.map (.line guard) ++ .exited guard exitCode crashed :: s.todo }
    else s
  | .readyTimeout guard => if (s.guards guard).readyTimer then onReadyTimeout guard s else s
  | .respawnTimeout =>
    if s.respawns = 0 then s else respawnTimeout host { s with respawns := s.respawns - 1 }
  | .elapse ms => { s with now := s.now + ms }
  | .shutdown => shutdownAll s

def perform (host : Host) (s : KillSwitch) : Todo → KillSwitch
  | .op op => handle host s op
  | .others => s
  | .settle => settle s
  | .settleRest waiting => settleRest waiting s
  | .applyRest => applyRest host s
  | .start guard => start guard s
  | .line guard line =>
    if (s.guards guard).phase = .finished then handleLine host guard line s else s
  | .exited guard exitCode crashed => onFinished host guard exitCode crashed s

inductive Act where
  /-- The others do something: nothing is going on, or a signal or callback lets them. -/
  | arrive (op : Op)
  /-- The handlers go on. -/
  | proceed
  deriving DecidableEq, Repr

def step (host : Host) (s : KillSwitch) : Act → KillSwitch
  | .arrive op =>
    match s.todo with
    | [] | .others :: _ => push (.op op) s
    | _ => s
  | .proceed =>
    match s.todo with
    | [] => s
    | t :: later => perform host { s with todo := later } t

/-- The switch before its first `apply`. -/
def init (settings : Settings) : KillSwitch where
  settings := settings
  apiPort := 0
  now := 0
  gone := []
  state := .Disabled
  identityUnsupported := false
  identityDetail := []
  overridden := false
  active := none
  pending := none
  failureCode := []
  failureMessage := []
  lastRespawn := none
  waiters := []
  shutdown := false
  guards := fun _ => ⟨⟨false, [], [], [], [], 0⟩, false, false, false, false, .unstarted⟩
  spawned := 0
  respawns := 0
  queuedPorts := 0
  registered := 0
  called := []
  todo := []

def run (host : Host) (s : KillSwitch) (acts : List Act) : KillSwitch :=
  runAll (step host) s acts

end KillSwitch

end Throned.Sys
