import Mathlib.Data.List.Infix
import Throned.Library.NetipParse

/-!
# The IP list parser

The GUI's reader of address lists (src/scanner/IpListParse.cpp): single addresses,
prefixes and address ranges, with ports, in lines, CSV rows or columns.  A `QString` is
the list of its characters; a character outside the basic plane is one element here and
two code units there, which only the length of a sample can tell.
-/

set_option autoImplicit false

namespace Throned.Scanner

open Throned.Library

def kIpListParseMaxSamples : ℕ := 5
def kIpListParseSampleChars : ℕ := 64

/-- IPv4 lives in the low 32 bits of `lo`. -/
structure IpListParseAddr where
  v6 : Bool
  hi : Word64
  lo : Word64
  deriving DecidableEq, Repr

def ipListParseBits (addr : IpListParseAddr) : ℕ := if addr.v6 then 128 else 32

/-! ## Numbers and addresses (IpListParse.cpp:37-162) -/

def ipListParseDecimal (text : Text) (maxDigits : ℕ) : Option ℕ :=
  if text = [] ∨ text.length > maxDigits then none else parseDecimal text

def ipListParsePort (text : Text) : Option ℕ :=
  (ipListParseDecimal text 5).filter (· ≤ 65535)

/-- The loop of `ipListParseV4` over the parts between the dots: how many have been
read, and their value. -/
def ipListParseV4Parts : ℕ → ℕ → List Text → Option ℕ
  | parts, value, [] => if parts ≠ 4 then none else some value
  | parts, value, part :: rest =>
    match ipListParseDecimal part 3 with
    | none => none
    | some octet =>
      if octet > 255 then none
      else if part.length > 1 ∧ part.head? = some '0' then none
      else if parts + 1 > 4 then none
      else ipListParseV4Parts (parts + 1) (value * 256 + octet) rest

def ipListParseV4 (text : Text) : Option ℕ := ipListParseV4Parts 0 0 (text.splitOn '.')

/-- The loop of `ipListParseV6Part` over the texts between the colons. -/
def ipListParseV6Groups (allowV4Tail : Bool) : List ℕ → List Text → Option (List ℕ)
  | groups, [] => some groups
  | groups, group :: rest =>
    if rest = [] ∧ allowV4Tail ∧ '.' ∈ group then
      if groups.length > 6 then none
      else (ipListParseV4 group).map fun v4 => groups ++ [v4 / 65536, v4 % 65536]
    else if group = [] ∨ group.length > 4 ∨ groups.length ≥ 8 then none
    else match parseHex group with
      | none => none
      | some value => ipListParseV6Groups allowV4Tail (groups ++ [value]) rest

def ipListParseV6Part (text : Text) (allowV4Tail : Bool) : Option (List ℕ) :=
  if text = [] then some [] else ipListParseV6Groups allowV4Tail [] (text.splitOn ':')

/-- The eight groups of an IPv6 address. -/
def ipListParseV6 (text : Text) : Option (List ℕ) :=
  match cutDouble ':' text with
  | none => (ipListParseV6Part text true).filter (·.length = 8)
  | some (left, right) =>
    if (cutDouble ':' (':' :: right)).isSome then none
    else
      match ipListParseV6Part left false, ipListParseV6Part right true with
      | some head, some tail =>
        if head.length + tail.length > 7 then none
        else some (head ++ List.replicate (8 - head.length - tail.length) 0 ++ tail)
      | _, _ => none

def ipListParseAddress (text : Text) : Option IpListParseAddr :=
  if ':' ∈ text then
    (ipListParseV6 (text.takeWhile (· ≠ '%'))).map fun groups =>
      { v6 := true, hi := Netip.ofGroups (groups.take 4), lo := Netip.ofGroups (groups.drop 4) }
  else (ipListParseV4 text).map fun v4 => { v6 := false, hi := 0, lo := BitVec.ofNat 64 v4 }

def ipListParseIsMapped (addr : IpListParseAddr) : Bool :=
  addr.v6 && addr.hi == 0 && addr.lo >>> 32 == 0xffff

/-- An IPv4-mapped address becomes its IPv4 address. -/
def ipListParseUnmap (addr : IpListParseAddr) : IpListParseAddr :=
  { v6 := false, hi := 0, lo := addr.lo &&& 0xffffffff }

def ipListParseMask (addr : IpListParseAddr) (length : ℕ) : IpListParseAddr :=
  if !addr.v6 then
    { addr with lo := addr.lo &&& (((0xffffffff : Word64) <<< (32 - length)) &&& 0xffffffff) }
  else if length < 64 then
    { addr with
      hi := addr.hi &&& (if length = 0 then 0 else BitVec.allOnes 64 <<< (64 - length))
      lo := 0 }
  else if length = 64 then { addr with lo := 0 }
  else if length < 128 then
    { addr with lo := addr.lo &&& (BitVec.allOnes 64 <<< (128 - length)) }
  else addr

/-! ## Writing addresses (IpListParse.cpp:165-210) -/

/-- The eight groups of an address, the highest first. -/
def addrGroups (addr : IpListParseAddr) : List ℕ :=
  (List.range 4).map (fun i => (addr.hi >>> (48 - 16 * i)).toNat % 65536) ++
    (List.range 4).map fun i => (addr.lo >>> (48 - 16 * i)).toNat % 65536

/-- The loop that looks for the first longest run of two or more zero groups: the groups
from the `i`-th on, and the best run so far. -/
def bestZeroRun : ℕ → ℕ → List ℕ → Option ℕ × ℕ → Option ℕ × ℕ
  | 0, _, _, best => best
  | _, _, [], best => best
  | fuel + 1, i, group :: rest, (bestStart, bestLength) =>
    if group ≠ 0 then bestZeroRun fuel (i + 1) rest (bestStart, bestLength)
    else
      let run := 1 + (rest.takeWhile (· = 0)).length
      bestZeroRun fuel (i + run) (rest.drop (run - 1))
        (if run > bestLength then (some i, run) else (bestStart, bestLength))

/-- The loop that writes the groups from the `i`-th on after `out`. -/
def formatGroups (best : Option ℕ × ℕ) : ℕ → ℕ → List ℕ → Text → Text
  | 0, _, _, out => out
  | _, _, [], out => out
  | fuel + 1, i, group :: rest, out =>
    if best.1 = some i then
      formatGroups best fuel (i + best.2) (rest.drop (best.2 - 1)) (out ++ [':', ':'])
    else
      let out := if out ≠ [] ∧ out.getLast? ≠ some ':' then out ++ [':'] else out
      formatGroups best fuel (i + 1) rest (out ++ hex group)

def ipListParseFormat (addr : IpListParseAddr) : Text :=
  if !addr.v6 then
    let v := addr.lo.toNat % 2 ^ 32
    decimal (v / 2 ^ 24) ++ ['.'] ++ decimal (v / 2 ^ 16 % 256) ++ ['.'] ++
      decimal (v / 2 ^ 8 % 256) ++ ['.'] ++ decimal (v % 256)
  else
    let groups := addrGroups addr
    formatGroups (bestZeroRun 8 0 groups (none, 1)) 8 0 groups []

def ipListParseCidr (addr : IpListParseAddr) (length : ℕ) : Text :=
  let address := ipListParseFormat addr
  if length ≥ ipListParseBits addr then address else address ++ ['/'] ++ decimal length

/-! ## Prefixes (IpListParse.cpp:212-250, 418-423) -/

/-- The address part of a network text and the text of its prefix length; brackets may
stand around the address or around the whole. -/
def splitNetwork (text : Text) : Option (Text × Option Text) :=
  let text := trimSpace text
  if text.head? = some '[' then
    match cut ']' text with
    | none => none
    | some (inner, suffix) =>
      if suffix ≠ [] ∧ suffix.head? ≠ some '/' then none
      else match cut '/' inner.tail with
        | some (body, lengthText) => if suffix ≠ [] then none else some (body, some lengthText)
        | none => some (inner.tail, if suffix = [] then none else some suffix.tail)
  else match cut '/' text with
    | some (body, lengthText) => some (body, some lengthText)
    | none => some (text, none)

def ipListParseNetwork (text : Text) : Option (IpListParseAddr × ℕ) :=
  match splitNetwork text with
  | none => none
  | some (body, lengthText) =>
    match ipListParseAddress body with
    | none => none
    | some addr =>
      let bits := ipListParseBits addr
      let length := match lengthText with
        | none => some bits
        | some text => (ipListParseDecimal text 3).filter (· ≤ bits)
      match length with
      | none => none
      | some length =>
        let (addr, length) := if ipListParseIsMapped addr ∧ length ≥ 96 then
          (ipListParseUnmap addr, length - 96) else (addr, length)
        if length = 0 then none else some (ipListParseMask addr length, length)

/-- `none` for the empty string the source returns on invalid input. -/
def normalizeCidr (text : Text) : Option Text :=
  (ipListParseNetwork text).map fun (addr, length) => ipListParseCidr addr length

/-! ## Ranges (IpListParse.cpp:247-317) -/

def ipListParseLess (a b : IpListParseAddr) : Bool :=
  if a.hi ≠ b.hi then a.hi < b.hi else a.lo < b.lo

/-- `std::countr_zero` of a number below `2 ^ fuel`. -/
def countrZero : ℕ → ℕ → ℕ
  | 0, _ => 0
  | fuel + 1, n => if n % 2 = 1 then 0 else countrZero fuel (n / 2) + 1

/-- `std::bit_width`. -/
def bitWidth (x : Word64) : ℕ := if x = 0 then 0 else Nat.log2 x.toNat + 1

/-- How many low bits the next block leaves free. -/
def coverBits (bits : ℕ) (first last : IpListParseAddr) : ℕ :=
  let align := if first.lo ≠ 0 then countrZero 64 first.lo.toNat
    else if first.hi ≠ 0 then 64 + countrZero 64 first.hi.toNat else 128
  let align := min align bits
  let diffLo := last.lo - first.lo
  let diffHi := last.hi - first.hi - (if last.lo < first.lo then 1 else 0)
  let sizeLo := diffLo + 1
  let sizeHi := diffHi + (if sizeLo = 0 then 1 else 0)
  let fit := if sizeHi ≠ 0 then 64 + bitWidth sizeHi - 1 else bitWidth sizeLo - 1
  min align fit

/-- The last address of the block at `first`. -/
def coverEnd (first : IpListParseAddr) (k : ℕ) : IpListParseAddr :=
  if k ≥ 64 then
    { first with
      lo := BitVec.allOnes 64
      hi := if k > 64 then first.hi ||| (((1 : Word64) <<< (k - 64)) - 1) else first.hi }
  else if k > 0 then { first with lo := first.lo ||| (((1 : Word64) <<< k) - 1) }
  else first

/-- The loop of `ipListParseCoverRange`; `none` when the fuel runs out. -/
def coverLoop (bits : ℕ) (last : IpListParseAddr) :
    ℕ → IpListParseAddr → Option (List Text)
  | 0, _ => none
  | fuel + 1, first =>
    let k := coverBits bits first last
    let cidr := ipListParseCidr first (bits - k)
    let blockEnd := coverEnd first k
    if blockEnd.hi = last.hi ∧ blockEnd.lo = last.lo then some [cidr]
    else
      let lo := blockEnd.lo + 1
      let hi := blockEnd.hi + (if lo = 0 then 1 else 0)
      (coverLoop bits last fuel { first with hi, lo }).map (cidr :: ·)

/-- The address as a number. -/
def IpListParseAddr.toNat (addr : IpListParseAddr) : ℕ := addr.hi.toNat * 2 ^ 64 + addr.lo.toNat

/-- `none` when the cover would be the whole address space.  Every round of the loop
covers an address, so as many rounds as addresses are enough. -/
def ipListParseCoverRange (first last : IpListParseAddr) : Option (List Text) :=
  let bits := ipListParseBits first
  let topHi : Word64 := if first.v6 then BitVec.allOnes 64 else 0
  let topLo : Word64 := if first.v6 then BitVec.allOnes 64 else 0xffffffff
  if first.hi = 0 ∧ first.lo = 0 ∧ last.hi = topHi ∧ last.lo = topLo then none
  else coverLoop bits last (last.toNat - first.toNat + 1) first

def ipListParseRangeEnd (text : Text) : Option IpListParseAddr :=
  let text := if text.head? = some '[' ∧ text.getLast? = some ']' then
    (text.drop 1).take (text.length - 2) else text
  if '/' ∈ text then none
  else (ipListParseAddress text).map fun addr =>
    if ipListParseIsMapped addr then ipListParseUnmap addr else addr

/-- The right end of a range and the port behind it; -1 = none. -/
def splitRangePort (right : Text) : Option (Text × Int) :=
  if right.head? = some '[' then
    match cut ']' right with
    | none => none
    | some (inner, rest) =>
      if rest = [] then some (inner ++ [']'], -1)
      else if rest.head? ≠ some ':' then none
      else (ipListParsePort rest.tail).map fun (port : ℕ) => (inner ++ [']'], (port : Int))
  else if right.count ':' = 1 then
    match cut ':' right with
    | none => none
    | some (right, portText) => (ipListParsePort portText).map fun (port : ℕ) => (right, (port : Int))
  else some (right, -1)

/-- The ends of a range, in order: a decimal right end stands for the last octet. -/
def rangeEnds (left right : Text) : Option (IpListParseAddr × IpListParseAddr) :=
  match ipListParseRangeEnd left with
  | none => none
  | some first =>
    let last : Option IpListParseAddr :=
      match if first.v6 then none else ipListParseDecimal right 3 with
      | some octet =>
        if octet > 255 ∨ right.length > 1 ∧ right.head? = some '0' then none
        else some { first with lo := first.lo &&& ~~~0xff ||| BitVec.ofNat 64 octet }
      | none => (ipListParseRangeEnd right).filter (·.v6 = first.v6)
    last.map fun last => if ipListParseLess last first then (last, first) else (first, last)

def ipListParseRangeToken (token : Text) : Option (List Text × Int) :=
  match cut '-' token with
  | none => none
  | some (left, right) =>
    match splitRangePort right with
    | none => none
    | some (right, port) =>
      match rangeEnds left right with
      | none => none
      | some (first, last) => (ipListParseCoverRange first last).map (·, port)

/-! ## Tokens (IpListParse.cpp:319-415) -/

/-- The network part of a token that is not a range, and the port behind it; -1 = none. -/
def splitTokenPort (token : Text) : Option (Text × Int) :=
  if token.head? = some '[' then
    match cut ']' token with
    | none => none
    | some (inner, rest) =>
      if rest.head? = some ':' then
        (ipListParsePort rest.tail).map fun (port : ℕ) => (inner ++ [']'], (port : Int))
      else some (token, -1)
  else if token.count ':' = 1 then
    match cut ':' token with
    | none => none
    | some (network, portText) =>
      (ipListParsePort portText).map fun (port : ℕ) => (network, (port : Int))
  else some (token, -1)

def ipListParseAddressToken (token : Text) : Option (List Text × Int) :=
  if token = [] then none
  else if '-' ∈ token then ipListParseRangeToken token
  else match splitTokenPort token with
    | none => none
    | some (network, port) =>
      (ipListParseNetwork network).map fun (addr, length) => ([ipListParseCidr addr length], port)

def ipListParseLooksLikeAddress (token : Text) : Bool :=
  if token = [] then false
  else if token.head? = some '[' ∨ (cutDouble ':' token).isSome ∨ token.count ':' ≥ 7 then true
  else if token.count '.' < 2 ∨ (token.head?.bind decimalDigit).isNone then false
  else token.all fun c =>
    (decimalDigit c).isSome || c = '.' || c = '/' || c = ':' || c = '-'

/-- Case folding as far as it reaches ASCII letters. -/
def foldCase (c : Char) : Char :=
  if c = 'ſ' then 's' else if c = '\u212a' then 'k' else c.toLower

def ipListParseColumnNames : List Text :=
  ["address".toList, "host".toList, "hostname".toList, "cidr".toList, "subnet".toList,
    "network".toList, "prefix".toList, "range".toList, "endpoint".toList, "server".toList,
    "target".toList]

/-- `contains("port", Qt::CaseInsensitive)`. -/
def namesPort (text : Text) : Bool := decide ("port".toList <:+: text.map foldCase)

def ipListParseIsColumnName (token : Text) : Bool :=
  let folded := token.map foldCase
  "ip".toList.isPrefixOf folded || "addr".toList.isPrefixOf folded || namesPort token ||
    folded ∈ ipListParseColumnNames

def ipListParseIsSeparator (c : Char) : Bool := c = ',' || c = ';' || c = '\t' || c = '|'

def ipListParseRangeChar (c : Char) : Bool :=
  (hexDigit c).isSome || c = '.' || c = ':' || c = '[' || c = ']'

/-- The loop of `ipListParseJoinRanges`: what has been written, what is left. -/
def joinRangesLoop : ℕ → Text → Text → Text
  | 0, out, _ => out
  | _, out, [] => out
  | fuel + 1, out, c :: rest =>
    if c = '-' ∨ c = '–' then
      let left := out.rdropWhile isSpace
      let right := rest.dropWhile isSpace
      if (left.getLast?.any ipListParseRangeChar) ∧ (right.head?.any ipListParseRangeChar) then
        joinRangesLoop fuel (left ++ ['-']) right
      else joinRangesLoop fuel (out ++ [c]) rest
    else joinRangesLoop fuel (out ++ [c]) rest

def ipListParseJoinRanges (line : Text) : Text := joinRangesLoop line.length [] line

def isQuote (c : Char) : Bool := c = '"' || c = '\''

def ipListParseUnquote (text : Text) : Text :=
  trimSpace (((trimSpace text).dropWhile isQuote).rdropWhile isQuote)

/-- Separated fields keep their empty cells. -/
def ipListParseSplit (text : Text) (bySeparator : Bool) : List Text :=
  if bySeparator then text.splitOnP ipListParseIsSeparator
  else (text.splitOnP isSpace).filter (· ≠ [])

/-! ## The list (IpListParse.cpp:425-562) -/

inductive IpListParseKind where
  | address
  | port
  | other
  deriving DecidableEq, Repr

structure IpListParseToken where
  text : Text
  field : ℕ
  kind : IpListParseKind
  cidrs : List Text
  port : Int
  deriving DecidableEq, Repr

structure IpListEntry where
  cidr : Text
  port : Int
  latencyMs : Int
  deriving DecidableEq, Repr

structure ParseResult where
  entries : List IpListEntry
  rejected : ℕ
  duplicates : ℕ
  samples : List Text
  deriving DecidableEq, Repr

/-- The variables of `ParseIpListText` that live from line to line. -/
structure ParseState where
  result : ParseResult
  seen : List Text
  firstContentLine : Bool
  tabularFile : Bool
  portColumn : Option ℕ
  deriving DecidableEq, Repr

def ParseState.start : ParseState where
  result := { entries := [], rejected := 0, duplicates := 0, samples := [] }
  seen := []
  firstContentLine := true
  tabularFile := false
  portColumn := none

def ParseState.reject (state : ParseState) (token : Text) : ParseState :=
  let result := state.result
  let samples := if result.samples.length < kIpListParseMaxSamples then
    result.samples ++ [token.take kIpListParseSampleChars] else result.samples
  { state with result := { result with rejected := result.rejected + 1, samples } }

/-- `QString::number` of a port. -/
def portText (port : Int) : Text :=
  if port < 0 then '-' :: decimal port.natAbs else decimal port.natAbs

def entryKey (cidr : Text) (port : Int) : Text := cidr ++ [' '] ++ portText port

/-- One round of the loop of `add`. -/
def ParseState.addCidr (port : Int) (state : ParseState) (cidr : Text) : ParseState :=
  let key := entryKey cidr port
  let result := state.result
  if key ∈ state.seen then
    { state with result := { result with duplicates := result.duplicates + 1 } }
  else
    { state with
      seen := key :: state.seen
      result := { result with entries := result.entries ++ [{ cidr, port, latencyMs := 0 }] } }

def ParseState.add (defaultPort : Int) (state : ParseState) (cidrs : List Text) (port : Int) :
    ParseState :=
  cidrs.foldl (addCidr (if port ≤ 0 then defaultPort else port)) state

/-- The line without comments; `none` when nothing is left. -/
def lineContent (line : Text) : Option Text :=
  let line := line.takeWhile (· ≠ '#')
  let line := match cutDouble '/' line with
    | some (left, _) => left
    | none => line
  let line := trimSpace line
  if line = [] ∨ line.head? = some ';' then none
  else if '-' ∈ line ∨ '–' ∈ line then some (ipListParseJoinRanges line) else some line

def lineSeparated (line : Text) : Bool := line.any ipListParseIsSeparator

def lineFields (line : Text) : List Text :=
  (ipListParseSplit line (lineSeparated line)).map ipListParseUnquote

/-- The token of a word of field `f`. -/
def wordToken (f : ℕ) (word : Text) : Option IpListParseToken :=
  let text := ipListParseUnquote word
  if text = [] then none
  else some <| match ipListParseAddressToken text with
    | some (cidrs, port) => { text, field := f, kind := .address, cidrs, port }
    | none => match ipListParsePort text with
      | some port => { text, field := f, kind := .port, cidrs := [], port }
      | none => { text, field := f, kind := .other, cidrs := [], port := -1 }

def lineTokens (fields : List Text) : List IpListParseToken :=
  fields.zipIdx.flatMap fun (field, f) => (ipListParseSplit field false).filterMap (wordToken f)

/-- The port an address token is stored with, and whether it is the next token's. -/
def tokenPort (state : ParseState) (fields : List Text) (token : IpListParseToken)
    (next : Option IpListParseToken) : Int × Bool :=
  if token.port < 0 ∧ state.tabularFile then
    match state.portColumn with
    | some column =>
      if column < fields.length ∧ column ≠ token.field then
        match ipListParsePort (fields.getD column []) with
        | some columnPort => (columnPort, false)
        | none => (token.port, false)
      else (token.port, false)
    | none => (token.port, false)
  else if token.port < 0 then
    match next with
    | some next => if next.kind = .port then (next.port, true) else (token.port, false)
    | none => (token.port, false)
  else (token.port, false)

/-- The loop over the tokens of a line with an address; `consumed` says that the token
before took the next one as its port. -/
def addTokens (defaultPort : Int) (tabular : Bool) (fields : List Text) :
    Bool → ParseState → List IpListParseToken → ParseState
  | _, state, [] => state
  | true, state, _ :: rest => addTokens defaultPort tabular fields false state rest
  | false, state, token :: rest =>
    match token.kind with
    | .address =>
      let (port, consumed) := tokenPort state fields token rest.head?
      addTokens defaultPort tabular fields consumed (state.add defaultPort token.cidrs port) rest
    | .port =>
      addTokens defaultPort tabular fields false
        (if !tabular then state.reject token.text else state) rest
    | .other =>
      addTokens defaultPort tabular fields false
        (if !tabular || ipListParseLooksLikeAddress token.text then state.reject token.text
          else state) rest

/-- A line without an address: a header, or a line of rejects. -/
def plainLine (state : ParseState) (line : Text) (fields : List Text) (tabular : Bool)
    (tokens : List IpListParseToken) : ParseState :=
  let addressShaped := tokens.any fun token => ipListParseLooksLikeAddress token.text
  let namesColumn := tokens.any fun token => ipListParseIsColumnName token.text
  if state.firstContentLine && !addressShaped && namesColumn then
    { state with
      firstContentLine := false
      tabularFile := true
      portColumn := match fields.findIdx? namesPort with
        | some f => some f
        | none => state.portColumn }
  else
    let state := { state with firstContentLine := false }
    if !tabular then tokens.foldl (fun state token => state.reject token.text) state
    else if addressShaped then
      tokens.foldl (fun state token =>
        if ipListParseLooksLikeAddress token.text then state.reject token.text else state) state
    else state.reject line

/-- One round of the loop over the lines. -/
def parseLine (defaultPort : Int) (state : ParseState) (line : Text) : ParseState :=
  match lineContent line with
  | none => state
  | some line =>
    let separated := lineSeparated line
    let fields := lineFields line
    let tokens := lineTokens fields
    if tokens = [] then state
    else
      let tabular := separated || state.tabularFile
      if tokens.all (·.kind ≠ .address) then plainLine state line fields tabular tokens
      else addTokens defaultPort tabular fields false { state with firstContentLine := false } tokens

/-- The lines of a decoded text, without the byte order mark.  The source does not visit
the empty piece after a final line break, which changes nothing. -/
def textLines (content : Text) : List Text :=
  (if content.head? = some '\ufeff' then content.tail else content).splitOn '\n'

def parseIpListText (content : Text) (defaultPort : Int) : ParseResult :=
  let defaultPort := if defaultPort < 0 ∨ defaultPort > 65535 then 0 else defaultPort
  ((textLines content).foldl (parseLine defaultPort) ParseState.start).result

/-! ## Writing entries (IpListParse.cpp:564-586) -/

def isHostCidr (cidr : Text) : Bool :=
  if cidr = [] then false
  else match cut '/' cidr with
    | none => true
    | some (left, right) => right = if ':' ∈ left then "128".toList else "32".toList

def formatTarget (address : Text) (port : Int) : Text :=
  if port ≤ 0 then address
  else if ':' ∈ address then ['['] ++ address ++ [']', ':'] ++ portText port
  else address ++ [':'] ++ portText port

def formatEntry (entry : IpListEntry) : Text :=
  if isHostCidr entry.cidr then
    formatTarget (match cut '/' entry.cidr with
      | some (left, _) => left
      | none => entry.cidr) entry.port
  else if entry.port ≤ 0 then entry.cidr
  else entry.cidr ++ [' '] ++ portText entry.port

end Throned.Scanner
