import Throned.Library.Expressions
import Throned.Library.NetipParse
import Throned.Library.RuneMaps

/-!
# The writer of connection logs (connection_log_writer.go)

The writer between the core's logger and its output, which names the process behind a closed
connection.  Texts are bytes.  `none` is a run-time panic.
-/

set_option autoImplicit false

namespace Throned.Boxmain

open Throned.Library
open Throned.Library.Expression

/-- What is used of Go's library that depends on Unicode or on the system. -/
structure GoLibrary where
  /-- `unicode.ToLower`. -/
  toLower : Char → Char
  /-- `filepath.Base`. -/
  base : ByteText → ByteText
  toLower_ascii : ∀ c : Char, c.toNat < 128 → toLower c = c.toLower

structure trackedProcess where
  source : ByteText := []
  name : ByteText := []
  path : ByteText := []
  pid : UInt32 := 0
  matched : Bool := false
  deriving DecidableEq, Repr

abbrev processResolver := List ByteText → trackedProcess

structure connectionContext where
  source : ByteText := []
  processPath : ByteText := []
  deriving DecidableEq, Repr

def contextCacheSize : ℕ := 2048

/-- The writer's cache, and the texts that have been passed to the target. -/
structure connectionLogWriter where
  contexts : ByteText → Option connectionContext
  contextRing : List ByteText
  contextNext : ℕ
  passed : List ByteText

def newConnectionLogWriter : connectionLogWriter where
  contexts _ := none
  contextRing := List.replicate contextCacheSize []
  contextNext := 0
  passed := []

/-- The bytes of a literal. -/
def bytes (text : String) : ByteText := encode text.toList

/-! ## Expressions (connection_log_writer.go:42-52) -/

/-- `\[[^\]]+\]:\d+|[^\s:]+:\d+` -/
def endpointPattern : Expression :=
  alt
    (seqs [literal "[".toList, plus (except [']']), literal "]:".toList, plus digit])
    (seqs [plus (rune fun c => !isBlank c && c ≠ ':'), literal ":".toList, plus digit])

def connectionEndpointsPattern : Expression :=
  seqs [wordBoundary, alt (folded "raw-read".toList) (folded "raw-write".toList),
    folded " tcp".toList, opt (alt (literal "4".toList) (literal "6".toList)), plus blank,
    group endpointPattern, star blank, literal "->".toList, star blank, group endpointPattern]

def connectionContextPattern : Expression :=
  seqs [literal "[".toList, group (plus digit), plus blank, plus (except [']']),
    literal "]".toList]

def inboundSourcePattern : Expression :=
  seqs [wordBoundary, folded "inbound/".toList, plus (except [':']), folded ":".toList, plus blank,
    folded "inbound ".toList, opt (folded "packet ".toList), folded "connection from".toList,
    plus blank, group endpointPattern]

/-! ## Lines -/

def contains (s sub : ByteText) : Bool := (indexOf sub s).isSome

/-- `strings.TrimSpace` -/
def trimText (s : ByteText) : ByteText :=
  let isBlankRune : Rune → Bool := fun r => isSpace r.value
  bytesOf (((runes s).dropWhile isBlankRune).rdropWhile isBlankRune)

def uploadClosed : ByteText := bytes "connection upload closed:"

def downloadClosed : ByteText := bytes "connection download closed:"

def isConnectionReset (lowerLine : ByteText) : Bool :=
  contains lowerLine (bytes "forcibly closed by the remote host") ||
    contains lowerLine (bytes "connection reset by peer") ||
    contains lowerLine (bytes "wsarecv") ||
    contains lowerLine (bytes "wsasend") ||
    contains lowerLine (bytes "10054")

/-- `Addr.IsLoopback`, of a mapped IPv4 address as well. -/
def isLoopback (addr : Addr) : Bool :=
  match addr.unmap with
  | .v4 value => value.toNat / 2 ^ 24 = 127
  | .v6 high low => high = 0 ∧ low = 1

/-- The address of `netip.ParseAddrPort`; a byte beyond ASCII is in no address. -/
def parseAddrPort (endpoint : ByteText) : Option Addr := do
  let text : Text := endpoint.map fun b => Char.ofNat b.toNat
  let ip := (text.reverse.dropWhile (· ≠ ':')).tail.reverse
  let port := (text.reverse.takeWhile (· ≠ ':')).reverse
  if ':' ∉ text ∨ ip = [] ∨ port = [] then none
  else
    let bracketed := ip.head? = some '['
    if bracketed ∧ (ip.length < 2 ∨ ip.getLast? ≠ some ']') then none
    else
      let number ← parseDecimal port
      let (addr, _) ← Netip.parseAddr (if bracketed then ip.tail.dropLast else ip)
      match addr with
      | .v4 _ => if number ≤ 65535 ∧ ¬ bracketed then some addr else none
      | .v6 _ _ => if number ≤ 65535 ∧ bracketed then some addr else none

def isLoopbackEndpoint (endpoint : ByteText) : Bool :=
  (parseAddrPort endpoint).any isLoopback

def demoteErrorLevel (line : ByteText) : ByteText :=
  if bytes "ERROR" <+: line then bytes "INFO" ++ line.drop 5
  else
    match indexOf (bytes " ERROR ") line with
    | some at' => line.take at' ++ bytes " INFO " ++ line.drop (at' + 7)
    | none => line

section Lines

variable (go : GoLibrary)

/-- `strings.ToLower` -/
def toLowerText (s : ByteText) : ByteText := mapText go.toLower s

def processAnnotation (process : trackedProcess) : ByteText :=
  let name :=
    if process.name = [] ∧ process.path ≠ [] then
      go.base (process.path.map fun b => if b = 0x5c then 0x2f else b)
    else process.name
  let pid := encode (decimal process.pid.toNat)
  if name ≠ [] ∧ process.pid ≠ 0 then bytes " [process: " ++ name ++ bytes ", PID " ++ pid ++ bytes "]"
  else if name ≠ [] then bytes " [process: " ++ name ++ bytes "]"
  else if process.pid ≠ 0 then bytes " [PID " ++ pid ++ bytes "]"
  else bytes " [process unavailable]"

/-- A line without its ending, and the ending. -/
def splitEnding (input : ByteText) : ByteText × ByteText :=
  if input.getLast? = some 0x0a then
    let line := input.dropLast
    if line.getLast? = some 0x0d then (line.dropLast, [0x0d, 0x0a]) else (line, [0x0a])
  else (input, [])

/-- The process of a connection, by its endpoints or by what its context says. -/
def findProcess (resolve : processResolver) (hint : connectionContext)
    (endpoints : ByteText × ByteText) : trackedProcess :=
  -- the peer is normally the second endpoint
  let process := resolve [endpoints.2, endpoints.1]
  let process :=
    if process.matched = false ∧ hint.source ≠ [] then resolve [hint.source] else process
  if process.matched = false ∧ hint.processPath ≠ [] then
    { source := hint.source, path := hint.processPath, matched := true }
  else process

/-- The endpoints of a line that says a connection is closed. -/
def closedEndpoints (line : ByteText) : Option (ByteText × ByteText) :=
  let lower := toLowerText go line
  if contains lower uploadClosed = false ∧ contains lower downloadClosed = false then none
  else
    match findSubmatch connectionEndpointsPattern line with
    | some [local', remote] => some (local', remote)
    | _ => none

/-- The part of the line before the message, cut where the small letters have the message. -/
def cutBeforeMessage (line : ByteText) : Option ByteText :=
  let messageAt := (indexOf uploadClosed (toLowerText go line)).orElse fun _ =>
    indexOf downloadClosed (toLowerText go line)
  match messageAt with
  | none => none
  | some at' => if at' ≤ line.length then some (line.take at') else none

/-- What takes the place of the message. -/
def localClosed (process : trackedProcess) (endpoints : ByteText × ByteText) : ByteText :=
  let peer := if process.source = endpoints.1 then endpoints.2 else endpoints.1
  bytes "local client closed connection: " ++ process.source ++ bytes " -> " ++ peer ++
    processAnnotation go process

def enrichConnectionLogWithContext (input : ByteText) (resolve : processResolver)
    (hint : connectionContext) : Option ByteText :=
  let (line, lineEnding) := splitEnding input
  match closedEndpoints go line with
  | none => some input
  | some endpoints =>
    let process := findProcess resolve hint endpoints
    if process.matched = false then some input
    else if isLoopbackEndpoint process.source ∧ isConnectionReset (toLowerText go line) then
      match cutBeforeMessage go (demoteErrorLevel line) with
      | none => none
      | some before => some (before ++ localClosed go process endpoints ++ lineEnding)
    else some (line ++ processAnnotation go process ++ lineEnding)

end Lines

/-! ## The writer -/

/-- The identifier of a line's context. -/
def contextId (line : ByteText) : Option ByteText :=
  match findSubmatch connectionContextPattern line with
  | some [id] => some id
  | _ => none

/-- What a line adds to its context. -/
def readContext (line : ByteText) (hint : connectionContext) : connectionContext :=
  let hint :=
    match findSubmatch inboundSourcePattern line with
    | some [source] => { hint with source }
    | _ => hint
  let found := bytes "router: found process path:"
  match indexOf found line with
  | some at' => { hint with processPath := trimText (line.drop (at' + found.length)) }
  | none => hint

def observeConnectionContext (w : connectionLogWriter) (line : ByteText) :
    connectionContext × connectionLogWriter :=
  match contextId line with
  | none => ({}, w)
  | some id =>
    let (hint, w) :=
      match w.contexts id with
      | some hint => (hint, w)
      | none =>
        let evicted := w.contextRing[w.contextNext]?.getD []
        let contexts := if evicted ≠ [] then Function.update w.contexts evicted none else w.contexts
        (({} : connectionContext),
          { w with contexts,
                   contextRing := w.contextRing.set w.contextNext id,
                   contextNext := (w.contextNext + 1) % contextCacheSize })
    let hint := readContext line hint
    (hint, { w with contexts := Function.update w.contexts id (some hint) })

/-- A call of `Write`: what is written, what the resolver knows then, and how many bytes the
target takes and whether it fails. -/
structure LogCall where
  data : ByteText
  resolve : processResolver
  target : ByteText → ℕ × Bool

/-- What `Write` returns. -/
inductive WriteResult
  | ok (n : ℕ)
  | targetError
  | shortWrite
  deriving DecidableEq, Repr

def Write (go : GoLibrary) (w : connectionLogWriter) (call : LogCall) :
    Option (WriteResult × connectionLogWriter) :=
  let (hint, w) := observeConnectionContext w call.data
  match enrichConnectionLogWithContext go call.data call.resolve hint with
  | none => none
  | some output =>
    let (written, failed) := call.target output
    let w := { w with passed := w.passed ++ [output] }
    if failed then some (.targetError, w)
    else if written ≠ output.length then some (.shortWrite, w)
    else some (.ok call.data.length, w)

end Throned.Boxmain
