import Throned.Library.Framing
import Throned.Library.Runs
import Throned.Library.Text

/-!
# The channel to the core

`LocalSocketChannel` (src/api/RPC.cpp:26-222) carries calls to the core over one socket.  The
socket and the buffer belong to the io thread, to which adoptions and writes are queued; calls
wait on any thread, and a `Reconnect` on the main thread brings the next socket.

A step is one section under a lock, one atomic operation, one queued item or one signal of a
socket.  Sockets are numbered in the order of their `Reconnect`; what they bring and when they
drop is the environment's choice.
-/

set_option autoImplicit false

namespace Throned.API

open Throned.Library

/-! ## Frames -/

/-- A response: request id, status and payload. -/
structure Response where
  reqId : ℕ
  status : UInt8
  data : List UInt8
  deriving DecidableEq, Repr

def u32 (b0 b1 b2 b3 : UInt8) : ℕ :=
  b0.toNat + 256 * b1.toNat + 65536 * b2.toNat + 16777216 * b3.toNat

/-- The bytes of `QDataStream` and of Go's `binary.LittleEndian`. -/
def putU32 (n : ℕ) : List UInt8 :=
  [.ofNat n, .ofNat (n / 256), .ofNat (n / 65536), .ofNat (n / 16777216)]

def putU16 (n : ℕ) : List UInt8 := [.ofNat n, .ofNat (n / 256)]

/-- The lengths whose cast to `int` keeps them. -/
def intLimit : ℕ := 2 ^ 31

/-- One round of `processBuffer`; `mid` takes the whole rest for a negative length. -/
def nextResponse : List UInt8 → Option (Response × List UInt8)
  | i0 :: i1 :: i2 :: i3 :: status :: l0 :: l1 :: l2 :: l3 :: rest =>
    let dataLen := u32 l0 l1 l2 l3
    if rest.length < dataLen then none
    else
      some
        ({ reqId := u32 i0 i1 i2 i3
           status := status
           data := if dataLen < intLimit then rest.take dataLen else rest },
          rest.drop dataLen)
  | _ => none

theorem nextResponse_shorter (buf : List UInt8) (frame : Response) (rest : List UInt8)
    (h : nextResponse buf = some (frame, rest)) : rest.length < buf.length := by
  unfold nextResponse at h
  split at h
  · simp only at h
    split at h
    · cases h
    · have hrest := congrArg Prod.snd (Option.some.inj h)
      simp only at hrest
      rw [← hrest, List.length_drop]
      simp only [List.length_cons]
      omega
  · cases h

def responses : Framing UInt8 Response := ⟨nextResponse, nextResponse_shorter⟩

/-- What `writeResponse` of the core writes (core/internal/rpc/dispatch.go:38-52). -/
def writeResponse (frame : Response) : List UInt8 :=
  putU32 frame.reqId ++ frame.status :: putU32 frame.data.length ++ frame.data

/-- The frame that `Call` builds. -/
def requestFrame (reqId : ℕ) (method req : List UInt8) : List UInt8 :=
  putU32 reqId ++ putU16 method.length ++ method ++ putU32 req.length ++ req

/-! ## The channel -/

/-- What is queued to the io thread. -/
inductive Item where
  | adopt (newSock : ℕ)
  | write (call : ℕ) (frame : List UInt8)
  deriving DecidableEq, Repr

/-- What `Reconnect` has done last. -/
inductive Phase where
  | marked
  | woken
  | queued
  deriving DecidableEq, Repr

inductive Result where
  | notConnected
  | ok (rsp : List UInt8)
  /-- `rsp` is filled where the core has answered with an error. -/
  | failed (rsp : Option (List UInt8))
  deriving DecidableEq, Repr

inductive Progress where
  | checked
  | registered
  | queued
  | returned (result : Result)
  deriving DecidableEq, Repr

/-- A call with its `PendingCall`. -/
structure Call where
  reqId : ℕ
  method : List UInt8
  req : List UInt8
  progress : Progress
  done : Bool
  status : UInt8
  data : List UInt8
  /-- The socket that the request was written to. -/
  wentTo : Option ℕ
  deriving DecidableEq, Repr

structure Channel where
  sock : Option ℕ
  read_buf : List UInt8
  next_id : ℕ
  pending : List (ℕ × ℕ)
  connected : Bool
  queue : List Item
  calls : ℕ → Option Call
  reconnect : Option Phase
  /-- The io thread is in `wakeAllWithError`, behind the store. -/
  waking : Bool
  /-- The sockets that are connected, and how many there have been. -/
  alive : ℕ → Bool
  sockets : ℕ
  /-- What was read from the socket in use, the frames cut from it, and all frames. -/
  stream : List UInt8
  delivered : List Response
  received : List Response

namespace Channel

def init : Channel :=
  { sock := none
    read_buf := []
    next_id := 1
    pending := []
    connected := false
    queue := []
    calls := fun _ => none
    reconnect := none
    waking := false
    alive := fun _ => false
    sockets := 0
    stream := []
    delivered := []
    received := [] }

def IsConnected (s : Channel) : Bool := s.connected

/-- The part of `wakeAllWithError` under the lock. -/
def wakeAll (s : Channel) : Channel :=
  { s with
    calls := fun c =>
      if c ∈ s.pending.map Prod.snd then (s.calls c).map fun call => { call with done := true }
      else s.calls c
    pending := [] }

/-- A frame is handed to the call that waits for its id. -/
def deliver (s : Channel) (frame : Response) : Channel :=
  let s := { s with
    delivered := s.delivered ++ [frame]
    received := s.received ++ [frame] }
  match s.pending.lookup frame.reqId with
  | none => s
  | some c =>
    { s with
      pending := s.pending.filter fun entry => entry.1 ≠ frame.reqId
      calls := fun c' =>
        if c' = c then
          (s.calls c).map fun call =>
            { call with status := frame.status, data := frame.data, done := true }
        else s.calls c' }

def processBuffer (s : Channel) : Channel :=
  let frames := responses.drain s.read_buf
  { frames.1.foldl deliver s with read_buf := frames.2 }

def onReadyRead (s : Channel) (readAll : List UInt8) : Channel :=
  if s.sock = none then s
  else { s with read_buf := s.read_buf ++ readAll, stream := s.stream ++ readAll }.processBuffer

/-! ## Calls -/

def setCall (s : Channel) (c : ℕ) (call : Call) : Channel :=
  { s with calls := fun c' => if c' = c then some call else s.calls c' }

/-- A call checks the flag and takes its id. -/
def callBegins (s : Channel) (c : ℕ) (method req : List UInt8) : Channel :=
  if s.calls c ≠ none then s
  else
    let call : Call :=
      { reqId := s.next_id
        method := method
        req := req
        progress := .checked
        done := false
        status := 1
        data := []
        wentTo := none }
    if s.connected then
      { s.setCall c call with next_id := (s.next_id + 1) % 2 ^ 32 }
    else s.setCall c { call with progress := .returned .notConnected }

/-- The call of a number, where it has come to a point. -/
def callAt (s : Channel) (c : ℕ) (progress : Progress) : Option Call :=
  (s.calls c).filter fun call => call.progress = progress

def callRegisters (s : Channel) (c : ℕ) : Channel :=
  match s.callAt c .checked with
  | none => s
  | some call =>
    { s.setCall c { call with progress := .registered } with
      pending := (call.reqId, c) :: s.pending.filter fun entry => entry.1 ≠ call.reqId }

/-- The write is queued. -/
def callQueues (s : Channel) (c : ℕ) : Channel :=
  match s.callAt c .registered with
  | none => s
  | some call =>
    { s.setCall c { call with progress := .queued } with
      queue := s.queue ++ [.write c (requestFrame call.reqId call.method call.req)] }

/-- A call that is done returns. -/
def callReturns (s : Channel) (c : ℕ) : Channel :=
  match s.callAt c .queued with
  | none => s
  | some call =>
    if call.done then
      if call.status = 0 then s.setCall c { call with progress := .returned (.ok call.data) }
      else s.setCall c { call with progress := .returned (.failed (some call.data)) }
    else s

/-- The wait of a call runs out, or the second one, for a call that was taken from `pending`. -/
def callTimesOut (s : Channel) (c : ℕ) (again : Bool) : Channel :=
  match s.callAt c .queued with
  | none => s
  | some call =>
    if call.done then s
    else if call.reqId ∈ s.pending.map Prod.fst ∨ again = true then
      { s.setCall c { call with progress := .returned (.failed none) } with
        pending := s.pending.filter fun entry => entry.1 ≠ call.reqId }
    else s

/-! ## Reconnect -/

/-- `Reconnect` with a new socket; the first statement of `wakeAllWithError`. -/
def reconnectMarks (s : Channel) : Channel :=
  if s.reconnect ≠ none then s
  else
    { s with
      connected := false
      reconnect := some .marked
      alive := fun n => if n = s.sockets then true else s.alive n
      sockets := s.sockets + 1 }

def reconnectWakes (s : Channel) : Channel :=
  if s.reconnect ≠ some .marked then s else { s.wakeAll with reconnect := some .woken }

def reconnectQueues (s : Channel) : Channel :=
  if s.reconnect ≠ some .woken then s
  else { s with queue := s.queue ++ [.adopt (s.sockets - 1)], reconnect := some .queued }

def reconnectStores (s : Channel) : Channel :=
  if s.reconnect ≠ some .queued then s else { s with connected := true, reconnect := none }

/-! ## The io thread -/

/-- The old socket is closed, and the new one takes its place. -/
def adopt (s : Channel) (newSock : ℕ) : Channel :=
  { s with
    alive := fun n => if some n = s.sock then false else s.alive n
    sock := some newSock
    read_buf := []
    stream := []
    delivered := [] }

def writeTo (s : Channel) (c : ℕ) : Channel :=
  { s with
    calls := fun c' =>
      if c' = c then (s.calls c).map fun call => { call with wentTo := s.sock } else s.calls c' }

/-- The next queued item; an adopted socket may have bytes already. -/
def runQueued (s : Channel) (bytesAvailable : List UInt8) : Channel :=
  if s.waking then s
  else
    match s.queue with
    | [] => s
    | .adopt newSock :: rest =>
      let s := { s with queue := rest }.adopt newSock
      if bytesAvailable = [] then s else s.onReadyRead bytesAvailable
    | .write c _ :: rest => { s with queue := rest }.writeTo c

def readyRead (s : Channel) (readAll : List UInt8) : Channel :=
  if s.waking then s else s.onReadyRead readAll

/-- A connected socket disconnects; the one in use has a handler, which begins with a store. -/
def disconnected (s : Channel) (n : ℕ) : Channel :=
  if s.alive n = false then s
  else if s.sock = some n then
    if s.waking then s
    else
      { s with
        alive := fun m => if m = n then false else s.alive m
        connected := false
        waking := true }
  else { s with alive := fun m => if m = n then false else s.alive m }

/-- The handler takes the lock. -/
def ioWakes (s : Channel) : Channel := if s.waking then { s.wakeAll with waking := false } else s

inductive Event where
  | callBegins (c : ℕ) (method req : List UInt8)
  | callRegisters (c : ℕ)
  | callQueues (c : ℕ)
  | callReturns (c : ℕ)
  | callTimesOut (c : ℕ) (again : Bool)
  | reconnectMarks
  | reconnectWakes
  | reconnectQueues
  | reconnectStores
  | runQueued (bytesAvailable : List UInt8)
  | readyRead (readAll : List UInt8)
  | disconnected (n : ℕ)
  | ioWakes
  deriving DecidableEq, Repr

def step (s : Channel) : Event → Channel
  | .callBegins c method req => s.callBegins c method req
  | .callRegisters c => s.callRegisters c
  | .callQueues c => s.callQueues c
  | .callReturns c => s.callReturns c
  | .callTimesOut c again => s.callTimesOut c again
  | .reconnectMarks => s.reconnectMarks
  | .reconnectWakes => s.reconnectWakes
  | .reconnectQueues => s.reconnectQueues
  | .reconnectStores => s.reconnectStores
  | .runQueued bytesAvailable => s.runQueued bytesAvailable
  | .readyRead readAll => s.readyRead readAll
  | .disconnected n => s.disconnected n
  | .ioWakes => s.ioWakes

end Channel

end Throned.API
