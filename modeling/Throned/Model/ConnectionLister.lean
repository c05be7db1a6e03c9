import Throned.Library.Text

/-!
# The traffic of single connections

`ConnectionLister::update` (src/stats/connectionLister/connectionLister.cpp:139-223), as far as
it credits the bytes of the connections to their programs.
-/

set_option autoImplicit false

namespace Throned.Stats

open Throned.Library

/-- A connection as the core reports it. -/
structure ConnectionMetaData where
  id : Text
  process : Text
  process_path : Text
  outbound : Text
  upload : Int
  download : Int
  deriving DecidableEq, Repr

structure QueryConnectionsResp where
  active : List ConnectionMetaData
  closed : List ConnectionMetaData
  deriving DecidableEq, Repr

/-- `Client::QueryConnections`: a call that fails gives the empty response. -/
def QueryConnections (reply : Option QueryConnectionsResp) : QueryConnectionsResp :=
  reply.getD ⟨[], []⟩

/-- A call of `AddAppDelta`; `id` only records for which connection. -/
structure AppDelta where
  id : Text
  processName : Text
  path : Text
  outbound : Text
  up : Int
  down : Int
  deriving DecidableEq, Repr

/-- What is kept from one poll to the next. -/
structure ConnectionLister where
  lastBytes : Text → Option (Int × Int)
  accountedClosed : List Text

namespace ConnectionLister

def start : ConnectionLister := ⟨fun _ => none, []⟩

/-- The lambda of the same name in `update`. -/
def credit (s : ConnectionLister) (cm : ConnectionMetaData) : List AppDelta :=
  let (baseUp, baseDown) := (s.lastBytes cm.id).getD (0, 0)
  let dUp := max (cm.upload - baseUp) 0
  let dDown := max (cm.download - baseDown) 0
  if dUp = 0 ∧ dDown = 0 then []
  else
    let name := if cm.process = [] then "Unknown".toList else cm.process
    [⟨cm.id, name, cm.process_path, cm.outbound, dUp, dDown⟩]

/-- `QHash::insert` for each of the live connections. -/
def newLast (active : List ConnectionMetaData) : Text → Option (Int × Int) :=
  active.foldl (fun last cm => Function.update last cm.id (some (cm.upload, cm.download)))
    fun _ => none

def update (s : ConnectionLister) (reply : Option QueryConnectionsResp) :
    ConnectionLister × List AppDelta :=
  let resp := QueryConnections reply
  let live := resp.active.flatMap s.credit
  let closed := resp.closed.flatMap fun cm =>
    if cm.id ∈ s.accountedClosed then [] else s.credit cm
  ({ lastBytes := newLast resp.active
     accountedClosed := resp.closed.map ConnectionMetaData.id },
    live ++ closed)

/-- The polls one after another, and all that they credit. -/
def polls (replies : List (Option QueryConnectionsResp)) : ConnectionLister × List AppDelta :=
  replies.foldl (fun (s, log) reply =>
    let (t, deltas) := s.update reply
    (t, log ++ deltas)) (start, [])

end ConnectionLister

end Throned.Stats
