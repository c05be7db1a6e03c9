import Mathlib.Algebra.Group.Nat.Defs
import Throned.Library.Transition

/-!
# The Xray gate

The gate owns the inbound ports of an Xray instance that is started on demand
(core/internal/xray/gate.go).  A handler for each connection, any number of `Recycle` and
`Close` calls and the sweeper run side by side; a step of the system is one section under
`mu` or `connsMu`, one atomic operation or one call that closes something.

The starts of an instance, the dials and the moments at which a relay ends are the
environment's choice, and so is the time that passes.
-/

set_option autoImplicit false

namespace Throned.Xray

open Throned.Library

/-- The two connections of the `h`-th handler. -/
inductive Conn where
  | client (h : ℕ)
  | upstream (h : ℕ)
  deriving DecidableEq, Repr

/-- What `ensure` hands out: the targets of an instance, which stand for it, and the
generation. -/
structure Given where
  instanceId : ℕ
  generation : ℕ
  deriving DecidableEq, Repr

structure Gate where
  idle : ℕ
  inst : Option ℕ
  closed : Bool
  /-- `failedAt` while `failure` is set. -/
  failure : Option ℕ
  generation : ℕ
  /-- `none` once the gate is closed. -/
  conns : Option (List (Conn × ℕ))
  active : Int
  lastUse : ℕ
  stopped : Bool
  listening : Bool
  now : ℕ
  /-- The connections that have been closed. -/
  cut : List Conn
  /-- The instances that have been started and not closed. -/
  live : List ℕ
  nextInstance : ℕ
  /-- What `Close` found in `conns`, which no code reads. -/
  taken : List (Conn × ℕ)
  deriving DecidableEq, Repr

/-- How `startInstance` ends. -/
inductive StartAnswer where
  | started
  | addrInUse
  | failed
  deriving DecidableEq, Repr

def gateStartAttempts : ℕ := 3
def gateStartCooldown : ℕ := 10 ^ 9

namespace Gate

def touch (g : Gate) : Gate := { g with lastUse := g.now }

def idleNow (g : Gate) : Bool :=
  decide (0 < g.idle ∧ g.active = 0 ∧ g.idle ≤ g.now - g.lastUse)

def closeConn (g : Gate) (conn : Conn) : Gate := { g with cut := conn :: g.cut }

def closeInstance (g : Gate) (id : ℕ) : Gate := { g with live := g.live.filter (· ≠ id) }

/-- `none` when the connection is refused. -/
def track (g : Gate) (conn : Conn) (generation : ℕ) : Option Gate :=
  match g.conns with
  | none => none
  | some conns =>
    if generation ≠ 0 ∧ generation ≠ g.generation then none
    else some { g with conns := some ((conn, generation) :: conns.filter (·.1 ≠ conn)) }

def forget (g : Gate) (conn : Conn) : Gate :=
  { g with conns := g.conns.map fun conns => conns.filter (·.1 ≠ conn) }

/-- The attempts of a start from the `k`-th on, at most `n`. -/
def startAttempts (answers : ℕ → StartAnswer) : ℕ → ℕ → Bool
  | 0, _ => false
  | n + 1, k =>
    match answers k with
    | .started => true
    | .addrInUse => startAttempts answers n (k + 1)
    | .failed => false

def ensure (g : Gate) (answers : ℕ → StartAnswer) : Gate × Option Given :=
  if g.closed then (g, none)
  else
    match g.inst with
    | some id => (g, some ⟨id, g.generation⟩)
    | none =>
      if (g.failure.any fun failedAt => decide (g.now - failedAt < gateStartCooldown)) = true then
        (g, none)
      else if startAttempts answers gateStartAttempts 0 = true then
        ({ g with
            inst := some g.nextInstance, live := g.nextInstance :: g.live
            nextInstance := g.nextInstance + 1, failure := none },
          some ⟨g.nextInstance, g.generation⟩)
      else ({ g with failure := some g.now }, none)

end Gate

/-! ## The handler of a connection (gate.go:268-309) -/

/-- Where a handler is, with what it has been given. -/
inductive HandlePc where
  | accepted
  | refused
  | tracked
  | touching
  | counted
  | given (given : Given)
  | bound (given : Given)
  | dialed (given : Given)
  | upstreamRefused (given : Given)
  | relaying (given : Given)
  | relayed (given : Given)
  | upstreamForgotten (given : Given)
  | returning (given : Option Given)
  | uncounted
  | leaving
  | forgotten
  | done
  deriving DecidableEq, Repr

/-- What a handler meets. -/
structure HandleAnswers where
  starts : ℕ → StartAnswer
  dialed : Bool

def Gate.handleStep (g : Gate) (h : ℕ) (a : HandleAnswers) : HandlePc → Option (Gate × HandlePc)
  | .accepted =>
    match g.track (.client h) 0 with
    | some g => some (g, .tracked)
    | none => some (g, .refused)
  | .refused => some (g.closeConn (.client h), .done)
  -- counted before the instance is up, or the sweeper could call the gate idle mid-setup
  | .tracked => some ({ g with active := g.active + 1 }, .touching)
  | .touching => some (g.touch, .counted)
  | .counted =>
    match g.ensure a.starts with
    | (g, some given) => some (g, .given given)
    | (g, none) => some (g, .returning none)
  | .given given =>
    match g.track (.client h) given.generation with
    | some g => some (g, .bound given)
    | none => some (g, .returning (some given))
  | .bound given => some (g, if a.dialed then .dialed given else .returning (some given))
  | .dialed given =>
    match g.track (.upstream h) given.generation with
    | some g => some (g, .relaying given)
    | none => some (g, .upstreamRefused given)
  | .upstreamRefused given => some (g.closeConn (.upstream h), .returning (some given))
  | .relaying given => some (g, .relayed given)
  | .relayed given => some (g.forget (.upstream h), .upstreamForgotten given)
  | .upstreamForgotten given => some (g.closeConn (.upstream h), .returning (some given))
  | .returning _ => some ({ g with active := g.active - 1 }, .uncounted)
  | .uncounted => some (g.touch, .leaving)
  | .leaving => some (g.forget (.client h), .forgotten)
  | .forgotten => some (g.closeConn (.client h), .done)
  | .done => none

/-- Between `active.Add(1)` and `active.Add(-1)`. -/
def HandlePc.isCounted : HandlePc → Bool
  | .touching | .counted | .given _ | .bound _ | .dialed _ | .upstreamRefused _ | .relaying _
  | .relayed _ | .upstreamForgotten _ | .returning _ => true
  | _ => false

/-- What a counted handler has been given. -/
def HandlePc.holds : HandlePc → Option Given
  | .given g | .bound g | .dialed g | .upstreamRefused g | .relaying g | .relayed g
  | .upstreamForgotten g => some g
  | .returning g => g
  | _ => none

/-! ## `Recycle`, `Close` and the sweeper (gate.go:201-256, 401-430) -/

/-- A `Recycle` call that has retired an instance. -/
inductive RecyclePc where
  | retired (given : Given)
  | closing (given : Given) (stale : List Conn)
  | returned (given : Given)
  deriving DecidableEq, Repr

def Gate.recycleStep (g : Gate) : RecyclePc → Option (Gate × RecyclePc)
  | .retired given => some (g, .closing given
      (((g.conns.getD []).filter fun conn => conn.2 = given.generation).map (·.1)))
  | .closing given (conn :: stale) => some (g.closeConn conn, .closing given stale)
  | .closing given [] => some (g.closeInstance given.instanceId, .returned given)
  | .returned _ => none

/-- The `Close` call that finds the gate open. -/
inductive ClosePc where
  | notCalled
  | taken (inst : Option ℕ)
  | stopped (inst : Option ℕ)
  | closing (inst : Option ℕ) (conns : List Conn)
  | returned
  deriving DecidableEq, Repr

def Gate.closeStep (g : Gate) : ClosePc → Option (Gate × ClosePc)
  | .notCalled => none
  | .taken inst => some ({ g with stopped := true, listening := false }, .stopped inst)
  | .stopped inst =>
    let conns := g.conns.getD []
    some ({ g with conns := none, taken := conns }, .closing inst (conns.map (·.1)))
  | .closing inst (conn :: conns) => some (g.closeConn conn, .closing inst conns)
  | .closing none [] => some (g, .returned)
  | .closing (some id) [] => some (g.closeInstance id, .returned)
  | .returned => none

inductive SweepPc where
  | ticking
  | rechecking
  | closing (id : ℕ)
  | returned
  deriving DecidableEq, Repr

def Gate.sweepStep (g : Gate) : SweepPc → Option (Gate × SweepPc)
  | .ticking => some (g, if g.idleNow then .rechecking else .ticking)
  | .rechecking =>
    if g.idleNow then
      match g.inst with
      | none => some (g, .ticking)
      | some id => some ({ g with inst := none }, .closing id)
    else some (g, .ticking)
  | .closing id => some (g.closeInstance id, .ticking)
  | .returned => none

/-! ## The system -/

structure GateState where
  gate : Gate
  handles : List HandlePc
  recycles : List RecyclePc
  close : ClosePc
  sweeper : SweepPc
  /-- The `Close` calls that have returned. -/
  closesReturned : ℕ
  deriving DecidableEq, Repr

inductive Event where
  | accept
  | handle (h : ℕ) (a : HandleAnswers)
  | recycle
  | recycleStep (k : ℕ)
  | close
  | closeStep
  | sweepStep
  /-- The sweeper sees the gate stopped. -/
  | sweepReturn
  | pass (time : ℕ)

namespace GateState

def step (s : GateState) : Event → Option GateState
  | .accept => if s.gate.listening then some { s with handles := s.handles ++ [.accepted] } else none
  | .handle h a => do
    let pc ← s.handles[h]?
    let (gate, pc) ← s.gate.handleStep h a pc
    return { s with gate, handles := s.handles.set h pc }
  | .recycle =>
    match s.gate.inst with
    -- a no-op while the gate is cold
    | none => some s
    | some id => some
      { s with
        gate := { s.gate with inst := none, generation := s.gate.generation + 1 }
        recycles := s.recycles ++ [.retired ⟨id, s.gate.generation⟩] }
  | .recycleStep k => do
    let pc ← s.recycles[k]?
    let (gate, pc) ← s.gate.recycleStep pc
    return { s with gate, recycles := s.recycles.set k pc }
  | .close =>
    if s.gate.closed then some { s with closesReturned := s.closesReturned + 1 }
    else some
      { s with gate := { s.gate with closed := true, inst := none }, close := .taken s.gate.inst }
  | .closeStep => do
    let (gate, close) ← s.gate.closeStep s.close
    return { s with
      gate, close
      closesReturned := if close = .returned then s.closesReturned + 1 else s.closesReturned }
  | .sweepStep => do
    let (gate, sweeper) ← s.gate.sweepStep s.sweeper
    return { s with gate, sweeper }
  | .sweepReturn =>
    if s.gate.stopped = true ∧ s.sweeper = .ticking then some { s with sweeper := .returned } else none
  | .pass time => some { s with gate := { s.gate with now := s.gate.now + time } }

/-- `StartGate`. -/
def initial (idle : ℕ) : GateState :=
  { gate :=
      { idle, inst := none, closed := false, failure := none, generation := 1, conns := some []
        active := 0, lastUse := 0, stopped := false, listening := true, now := 0, cut := []
        live := [], nextInstance := 0, taken := [] }
    handles := [], recycles := [], close := .notCalled, sweeper := .ticking, closesReturned := 0 }

/-- The state after some events, if each can happen. -/
def run (s : GateState) : List Event → Option GateState
  | [] => some s
  | event :: events => (s.step event).bind fun s => s.run events

end GateState

def gateSystem : System GateState where
  init s := ∃ idle, s = .initial idle
  step s t := ∃ event, s.step event = some t

end Throned.Xray
