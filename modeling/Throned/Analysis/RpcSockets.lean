import Mathlib.Data.List.Range
import Throned.Analysis.RpcCalls

/-!
# The sockets of the channel

The socket in use and those that are queued to replace it are the last ones in their order;
the last of them is where the next request goes.  What has been read from the socket in use is
cut as one stream, and the flag says whether the last socket is connected, where no drop came
between a `Reconnect` and the adoption of its socket.
-/

set_option autoImplicit false

namespace Throned.API

open Throned.Library

def Item.adopted : Item → Option ℕ
  | .adopt newSock => some newSock
  | .write _ _ => none

def adopts (queue : List Item) : List ℕ := queue.filterMap Item.adopted

theorem adopts_append (queue queue' : List Item) :
    adopts (queue ++ queue') = adopts queue ++ adopts queue' := List.filterMap_append

theorem mem_adopts {queue : List Item} {n : ℕ} : n ∈ adopts queue ↔ .adopt n ∈ queue := by
  unfold adopts
  rw [List.mem_filterMap]
  constructor
  · rintro ⟨item, hitem, hn⟩
    cases item with
    | adopt m =>
      rw [← Option.some.inj hn]
      exact hitem
    | write c frame => cases hn
  · exact fun hmem => ⟨.adopt n, hmem, rfl⟩

namespace Channel

variable {s : Channel}

/-- The socket in use and those that will replace it. -/
def chain (s : Channel) : List ℕ := s.sock.toList ++ adopts s.queue

/-- The socket of the next request is connected. -/
def TargetAlive (s : Channel) : Prop := ∃ n, s.chain.getLast? = some n ∧ s.alive n = true

/-- The sockets that `Reconnect` has queued. -/
def queued (s : Channel) : ℕ :=
  if s.reconnect = some .marked ∨ s.reconnect = some .woken then s.sockets - 1 else s.sockets

/-- No wake is under way. -/
def Awake (s : Channel) : Prop := s.waking = false ∧ s.reconnect ≠ some .marked

/-! ## What is asked of a step -/

/-- A socket that drops is noticed: it is the one in use and no other is about to replace it
after its `Reconnect`, or it is one that was replaced. -/
structure DropNoticed (s : Channel) (n : ℕ) : Prop where
  notNew : s.reconnect ≠ none → n + 1 ≠ s.sockets
  notQueued : .adopt n ∉ s.queue
  last : s.sock = some n → s.reconnect = none → adopts s.queue = []

/-- A call that nobody has woken queues its request to a socket that is connected and that no
`Reconnect` replaces without a wake, or a wake is still to come. -/
def Heard (s : Channel) (c : ℕ) : Prop :=
  ∀ call, s.callAt c .registered = some call → call.done = false → s.Awake →
    s.TargetAlive ∧ s.reconnect ≠ some .woken

def FramesFit (buf : List UInt8) : Prop := ∀ frame ∈ (responses.drain buf).1, Fits frame

def Ok (s : Channel) : Event → Prop
  | .callRegisters c => s.IdFree c
  | .callQueues c => s.Heard c
  | .runQueued bytesAvailable => FramesFit bytesAvailable
  | .readyRead readAll => FramesFit (s.read_buf ++ readAll)
  | .disconnected n => s.DropNoticed n
  | _ => True

/-! ## The frames -/

/-- All that frames change. -/
theorem foldl_deliver_eq (frames : List Response) (s : Channel) :
    ∃ pending calls, frames.foldl deliver s =
      { s with
        pending := pending
        calls := calls
        delivered := s.delivered ++ frames
        received := s.received ++ frames } := by
  induction frames generalizing s with
  | nil => exact ⟨s.pending, s.calls, by simp⟩
  | cons frame frames ih =>
    rw [List.foldl_cons]
    obtain ⟨pending, calls, heq⟩ := ih (s.deliver frame)
    have hdeliver : ∃ pending calls, s.deliver frame =
        { s with
          pending := pending
          calls := calls
          delivered := s.delivered ++ [frame]
          received := s.received ++ [frame] } := by
      unfold deliver
      simp only
      split
      · exact ⟨s.pending, s.calls, rfl⟩
      · exact ⟨_, _, rfl⟩
    obtain ⟨pending', calls', heq'⟩ := hdeliver
    refine ⟨pending, calls, ?_⟩
    rw [heq, heq']
    simp only [List.append_assoc, List.singleton_append]

theorem processBuffer_eq (s : Channel) :
    ∃ pending calls, s.processBuffer =
      { s with
        pending := pending
        calls := calls
        read_buf := (responses.drain s.read_buf).2
        delivered := s.delivered ++ (responses.drain s.read_buf).1
        received := s.received ++ (responses.drain s.read_buf).1 } := by
  obtain ⟨pending, calls, heq⟩ := foldl_deliver_eq (responses.drain s.read_buf).1 s
  refine ⟨pending, calls, ?_⟩
  unfold processBuffer
  simp only
  rw [heq]

/-- What was read from the socket in use, and the frames cut from it. -/
structure KeepsStream (s : Channel) : Prop where
  drained : (s.delivered, s.read_buf) = responses.drain s.stream
  fits : ∀ frame ∈ s.delivered, Fits frame

theorem KeepsStream.onReadyRead (h : s.KeepsStream) {readAll : List UInt8}
    (hfits : FramesFit (s.read_buf ++ readAll)) : (s.onReadyRead readAll).KeepsStream := by
  unfold Channel.onReadyRead
  split
  · exact h
  · obtain ⟨pending, calls, heq⟩ := processBuffer_eq
      { s with read_buf := s.read_buf ++ readAll, stream := s.stream ++ readAll }
    rw [heq]
    have hdelivered := congrArg Prod.fst h.drained
    have hbuf := congrArg Prod.snd h.drained
    simp only at hdelivered hbuf
    have hfit : ∀ frame ∈ (responses.drain s.stream).1, Fits frame := by
      rw [← hdelivered]
      exact h.fits
    have hstream := responses.drain_append settled_responses hfit readAll
    rw [← hdelivered, ← hbuf] at hstream
    refine ⟨hstream.symm, fun frame hframe => ?_⟩
    rcases List.mem_append.mp hframe with hold | hnew
    · exact h.fits frame hold
    · exact hfits frame hnew

theorem KeepsStream.adopt (newSock : ℕ) : (s.adopt newSock).KeepsStream :=
  ⟨(responses.drain_none responses.next_nil).symm, fun _ hframe => absurd hframe List.not_mem_nil⟩

/-- **The frames do not depend on the chunks**, in every step. -/
theorem KeepsStream.step (h : s.KeepsStream) {ev : Event} (hok : s.Ok ev) :
    (s.step ev).KeepsStream := by
  have hsame : ∀ t : Channel, t.delivered = s.delivered → t.read_buf = s.read_buf →
      t.stream = s.stream → t.KeepsStream := by
    intro t hdelivered hbuf hstream
    refine ⟨?_, ?_⟩
    · rw [hdelivered, hbuf, hstream]
      exact h.drained
    · rw [hdelivered]
      exact h.fits
  cases ev with
  | callBegins c method req =>
    simp only [Channel.step, callBegins]
    split
    · exact h
    · split
      · exact hsame _ rfl rfl rfl
      · exact hsame _ rfl rfl rfl
  | callRegisters c =>
    simp only [Channel.step, callRegisters]
    split
    · exact h
    · exact hsame _ rfl rfl rfl
  | callQueues c =>
    simp only [Channel.step, callQueues]
    split
    · exact h
    · exact hsame _ rfl rfl rfl
  | callReturns c =>
    simp only [Channel.step, callReturns]
    split
    · exact h
    · split
      · split
        · exact hsame _ rfl rfl rfl
        · exact hsame _ rfl rfl rfl
      · exact h
  | callTimesOut c again =>
    simp only [Channel.step, callTimesOut]
    split
    · exact h
    · split
      · exact h
      · split
        · exact hsame _ rfl rfl rfl
        · exact h
  | reconnectMarks =>
    simp only [Channel.step, reconnectMarks]
    split
    · exact h
    · exact hsame _ rfl rfl rfl
  | reconnectWakes =>
    simp only [Channel.step, reconnectWakes]
    split
    · exact h
    · exact hsame _ rfl rfl rfl
  | reconnectQueues =>
    simp only [Channel.step, reconnectQueues]
    split
    · exact h
    · exact hsame _ rfl rfl rfl
  | reconnectStores =>
    simp only [Channel.step, reconnectStores]
    split
    · exact h
    · exact hsame _ rfl rfl rfl
  | runQueued bytesAvailable =>
    simp only [Channel.step, runQueued]
    split
    · exact h
    · split
      · exact h
      · rename_i newSock rest _
        have hadopt : (Channel.adopt { s with queue := rest } newSock).KeepsStream :=
          KeepsStream.adopt newSock
        split
        · exact hadopt
        · exact hadopt.onReadyRead hok
      · exact hsame _ rfl rfl rfl
  | readyRead readAll =>
    simp only [Channel.step, Channel.readyRead]
    split
    · exact h
    · exact h.onReadyRead hok
  | disconnected n =>
    simp only [Channel.step, Channel.disconnected]
    split
    · exact h
    · split
      · split
        · exact h
        · exact hsame _ rfl rfl rfl
      · exact hsame _ rfl rfl rfl
  | ioWakes =>
    simp only [Channel.step, Channel.ioWakes]
    split
    · exact hsame _ rfl rfl rfl
    · exact h

end Channel

end Throned.API
