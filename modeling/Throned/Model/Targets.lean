import Throned.Library.BinarySearch
import Throned.Library.CycleWalk
import Throned.Library.NetipParse

/-!
# The scan targets

The core's enumeration of scan targets (core/internal/scan/targets.go): a `Spec` lists
prefixes with ports, `NewTargets` lays their hosts out in consecutive ranges of
positions, and `Targets.At` maps a position to an address and a port, through a keyed
permutation when the order is shuffled or a range is sampled.

A Go panic and a loop that does not end are both `none`.
-/

set_option autoImplicit false

namespace Throned.Scan

open Throned.Library

structure Entry where
  cidr : Text
  /-- 0 = none; the port mode decides how it combines with the default ports. -/
  port : Int
  deriving DecidableEq, Repr

structure Spec where
  entries : List Entry
  defaultPorts : List Int
  portMode : String
  maxHostsPerEntry : Int
  shuffle : Bool
  seed : Word64
  deriving Repr

def portModeIgnore : String := "ignore"
def portModeMerge : String := "merge"
def portModeList : String := "list"

structure Target where
  addr : Addr
  /-- 0 = the phase applies its own fallback. -/
  port : ℕ
  deriving DecidableEq, Repr

def maxTargetTotal : Word64 := (1 : Word64) <<< 62
def defaultSampleSize : Word64 := 1024
/-- Wider entries are always sampled, whatever the spec says. -/
def maxEnumeratedBits : ℕ := 32
def mixerRounds : ℕ := 4

/-! ## The keyed permutation (targets.go:244-304) -/

def bitMask (width : ℕ) : Word64 :=
  if width ≥ 64 then BitVec.allOnes 64 else ((1 : Word64) <<< width) - 1

/-- The advanced state and the value drawn from it. -/
def splitmix64 (state : Word64) : Word64 × Word64 :=
  let state := state + 0x9e3779b97f4a7c15
  let z := state
  let z := (z ^^^ (z >>> 30)) * 0xbf58476d1ce4e5b9
  let z := (z ^^^ (z >>> 27)) * 0x94d049bb133111eb
  (state, z ^^^ (z >>> 31))

/-- `mixer`; the constants of a round, `add[i]` and `mul[i]`, stand side by side. -/
structure Mixer where
  mask : Word64
  shift : ℕ
  rounds : List (Word64 × Word64)
  deriving DecidableEq, Repr

/-- The constants `newMixer` draws, `n` rounds of them. -/
def mixerConstants (mask : Word64) : ℕ → Word64 → List (Word64 × Word64)
  | 0, _ => []
  | n + 1, state =>
    let (state, add) := splitmix64 state
    let (state, mul) := splitmix64 state
    (add &&& mask, (mul ||| 1) &&& mask) :: mixerConstants mask n state

def newMixer (width : ℕ) (key : Word64) : Mixer :=
  let mask := bitMask width
  { mask, shift := max 1 (width / 2), rounds := mixerConstants mask mixerRounds key }

/-- One round of `mixer.mix`. -/
def mixRound (mask : Word64) (shift : ℕ) (x : Word64) (round : Word64 × Word64) : Word64 :=
  let x := (x + round.1) &&& mask
  let x := x ^^^ (x >>> shift)
  (x * round.2) &&& mask

def Mixer.mix (m : Mixer) (x : Word64) : Word64 := m.rounds.foldl (mixRound m.mask m.shift) x

/-! ## Ports (targets.go:197-242) -/

/-- Never empty: port 0 stands for "no port". -/
def entryPorts (mode : String) (entryPort : ℕ) (defaultPorts : List ℕ) : List ℕ :=
  let ports :=
    if mode = portModeIgnore then defaultPorts
    else if mode = portModeList then (if entryPort ≠ 0 then [entryPort] else [])
    else if mode = portModeMerge then
      if entryPort = 0 then defaultPorts
      else entryPort :: defaultPorts.filter (· ≠ entryPort)
    else if entryPort ≠ 0 then [entryPort]
    else defaultPorts
  if ports.length = 0 then [0] else ports

/-- One round of the loop of `normalizePorts` over the ports kept and the ports seen. -/
def normalizeStep (acc : List ℕ × List Int) (port : Int) : List ℕ × List Int :=
  if port < 1 ∨ port > 0xffff then acc
  else if port ∈ acc.2 then acc
  else (acc.1 ++ [port.toNat], port :: acc.2)

/-- The ports in range, each at its first place only. -/
def normalizePorts (ports : List Int) : List ℕ := (ports.foldl normalizeStep ([], [])).1

/-- The product of two words, capped at `maxTargetTotal`. -/
def saturatingMul (a b : Word64) : Word64 :=
  let product := a.toNat * b.toNat
  let high := BitVec.ofNat 64 (product / 2 ^ 64)
  let low := BitVec.ofNat 64 product
  if high ≠ 0 ∨ low > maxTargetTotal then maxTargetTotal else low

/-! ## Prefixes (targets.go:180-195, 262-270) -/

/-- An IPv4-mapped prefix of 96 bits or more becomes an IPv4 prefix. -/
def unmapPrefix (p : Prefix) : Prefix :=
  match p with
  | ⟨.v4 value, bits, h⟩ => ⟨.v4 value, bits, h⟩
  | ⟨.v6 high low, bits, h⟩ =>
    if hbits : Addr.is4In6 (.v6 high low) = true ∧ bits ≥ 96 then
      ⟨.v4 (low.setWidth 32), bits - 96, by
        simp only [Addr.bitLen] at h ⊢
        omega⟩
    else ⟨.v6 high low, bits, h⟩

def parseTargetPrefix (text : Text) : Option Prefix :=
  let text := trimSpace text
  let parsed : Option Prefix :=
    match Netip.parsePrefix text with
    | some p => some p
    | none => (Netip.parseAddr text).map fun (addr, _) => ⟨addr, addr.bitLen, addr.bitLen_le⟩
  parsed.map fun p => (unmapPrefix p).masked

/-- The two halves of `Addr.As16`. -/
def as16 : Addr → Word64 × Word64
  | .v4 value => (0, 0xffff00000000 ||| value.setWidth 64)
  | .v6 high low => (high, low)

def prefixHash (p : Prefix) : Word64 :=
  let b := as16 p.addr
  let h := (splitmix64 b.1).2
  let h := (splitmix64 (h ^^^ b.2)).2
  (splitmix64 (h ^^^ BitVec.ofNat 64 p.bits ^^^ BitVec.ofNat 64 p.addr.bitLen <<< 8)).2

/-! ## Ranges (targets.go:49-178) -/

structure TargetRange where
  base : Addr
  hostBits : ℕ
  sampled : Bool
  ports : List ℕ
  start : Word64
  sampler : Mixer
  highKey : Word64
  deriving DecidableEq, Repr

structure Targets where
  ranges : List TargetRange
  total : Word64
  shuffle : Bool
  order : Mixer
  sampledEntries : ℕ
  invalidEntries : ℕ
  deriving DecidableEq, Repr

/-- The mixer Go leaves in a struct that never sets it. -/
def zeroMixer : Mixer := { mask := 0, shift := 0, rounds := List.replicate mixerRounds (0, 0) }

/-- How many hosts of a prefix are scanned, and whether they are a sample. -/
def entryHosts (limit : Word64) (hostBits : ℕ) : Word64 × Bool :=
  let entryLimit := if limit = 0 ∧ hostBits > maxEnumeratedBits then defaultSampleSize else limit
  let hosts : Word64 := if hostBits < 64 then (1 : Word64) <<< hostBits else 0
  if entryLimit > 0 ∧ (hostBits ≥ 64 ∨ entryLimit < hosts) then (entryLimit, true)
  else (hosts, false)

/-- How many targets an entry adds: its hosts times its ports, as far as they fit. -/
def entryCount (total hosts : Word64) (ports : List ℕ) : Word64 :=
  let count := saturatingMul hosts (BitVec.ofNat 64 ports.length)
  let remaining := maxTargetTotal - total
  if count > remaining then remaining else count

/-- The prefix and the port of an entry that `NewTargets` does not count as invalid. -/
def Entry.parse (entry : Entry) : Option (Prefix × ℕ) :=
  match parseTargetPrefix entry.cidr with
  | none => none
  | some p => if entry.port < 0 ∨ entry.port > 0xffff then none else some (p, entry.port.toNat)

/-- The range of a prefix that starts at `start`. -/
def newRange (seed : Word64) (p : Prefix) (ports : List ℕ) (sampled : Bool)
    (start : Word64) : TargetRange :=
  let key := seed ^^^ prefixHash p
  { base := p.addr, hostBits := p.hostBits, sampled, ports, start
    sampler := if sampled then newMixer (min p.hostBits 64) key else zeroMixer
    highKey := if sampled then (splitmix64 key).2 else 0 }

/-- One round of the loop over the entries. -/
def addEntry (spec : Spec) (limit : Word64) (defaultPorts : List ℕ) (t : Targets)
    (entry : Entry) : Targets :=
  match entry.parse with
  | none => { t with invalidEntries := t.invalidEntries + 1 }
  | some (p, port) =>
    let ports := entryPorts spec.portMode port defaultPorts
    let (hosts, sampled) := entryHosts limit p.hostBits
    let count := entryCount t.total hosts ports
    if count = 0 then t
    else
      { t with
        sampledEntries := if sampled then t.sampledEntries + 1 else t.sampledEntries
        ranges := t.ranges ++ [newRange spec.seed p ports sampled t.total]
        total := t.total + count }

/-- `bits.Len64`. -/
def len64 (x : Word64) : ℕ := if x = 0 then 0 else x.toNat.log2 + 1

def Spec.limit (spec : Spec) : Word64 :=
  if spec.maxHostsPerEntry > 0 then BitVec.ofInt 64 spec.maxHostsPerEntry else 0

/-- The ranges of a spec, before the order is drawn. -/
def layRanges (spec : Spec) : Targets :=
  spec.entries.foldl (addEntry spec spec.limit (normalizePorts spec.defaultPorts))
    { ranges := [], total := 0, shuffle := spec.shuffle, order := zeroMixer
      sampledEntries := 0, invalidEntries := 0 }

def newTargets (spec : Spec) : Targets :=
  let t := layRanges spec
  { t with order := if t.total > 1 then newMixer (len64 (t.total - 1)) spec.seed else t.order }

/-! ## Positions (targets.go:126-178) -/

/-- A bound on the steps of cycle walking: every word is met at most once. -/
def walkBound : ℕ := 2 ^ 64

def Targets.permute (t : Targets) (position : Word64) : Option Word64 :=
  if t.total ≤ 1 then some 0
  else cycleWalk t.order.mix (fun y => decide (y < t.total)) walkBound position

/-- `bits.Add64`: the sum and the carry out. -/
def add64 (x y carry : Word64) : Word64 × Word64 :=
  let sum := x.toNat + y.toNat + carry.toNat
  (BitVec.ofNat 64 sum, BitVec.ofNat 64 (sum / 2 ^ 64))

def TargetRange.address (r : TargetRange) (hostIndex : Word64) : Addr :=
  let low := if r.sampled then r.sampler.mix hostIndex else hostIndex
  let high :=
    if r.sampled ∧ r.hostBits > 64 then
      (splitmix64 (hostIndex ^^^ r.highKey)).2 &&& bitMask (r.hostBits - 64)
    else 0
  match r.base with
  | .v4 value => .v4 (value + low.setWidth 32)
  | .v6 baseHigh baseLow =>
    let (sumLow, carry) := add64 baseLow low 0
    let (sumHigh, _) := add64 baseHigh high carry
    .v6 sumHigh sumLow

/-- The target at a place within a range. -/
def TargetRange.target (r : TargetRange) (loc : Word64) : Option Target :=
  let portCount := BitVec.ofNat 64 r.ports.length
  if portCount = 0 then none
  else
    let hostIndex := loc / portCount
    let portIndex := loc % portCount
    (r.ports[portIndex.toNat]?).map fun port => { addr := r.address hostIndex, port }

/-- The predicate `At` searches with: range `i` starts above the position. -/
def Targets.startsAfter (t : Targets) (global : Word64) (i : ℕ) : Bool :=
  match t.ranges[i]? with
  | some r => decide (r.start > global)
  | none => false

/-- The target at a position of the unshuffled order: the last range that starts at or
before it. -/
def Targets.lookup (t : Targets) (global : Word64) : Option Target :=
  let found := search t.ranges.length (t.startsAfter global)
  if found = 0 then none
  else
    match t.ranges[found - 1]? with
    | some r => r.target (global - r.start)
    | none => none

/-- `Targets.At`. -/
def Targets.at' (t : Targets) (position : Word64) : Option Target :=
  if t.shuffle then (t.permute position).bind t.lookup else t.lookup position

end Throned.Scan
