import Throned.Library.FirstOfEach
import Throned.Library.NetipParse
import Throned.Library.Nftables
import Throned.Library.Utf8Runes

/-!
# The rules of the kill switch

The guard reads one line of configuration and builds a table of nftables rules from it: two chains
that drop what no rule lets pass.  Which ranges a set of prefixes is made of is computed by a
library, and is a parameter here.
-/

set_option autoImplicit false

namespace Throned.Guard

open Library Library.Nft

/-- Marks Throne's sockets. -/
def GID : ℕ := 0x7448524F

def CodeConfig : String := "config"

structure Error where
  Code : String
  Err : String
  deriving DecidableEq, Repr

/-! ## Configuration -/

/-- The single JSON line the GUI writes to the guard's stdin. -/
structure Config where
  AllowLAN : Bool
  TunName : Text
  TunCIDRs : List Text
  ExtraPaths : List Text
  BridgeName : Text
  APIPort : UInt16
  KeepStates : Bool

/-- One character of `^[A-Za-z0-9._-]*$`. -/
def interfaceNameChar (c : Char) : Bool :=
  c.isAlphanum || c == '.' || c == '_' || c == '-'

/-- An interface name of at most so many bytes. -/
structure ValidName (maxLength : ℕ) (name : Text) : Prop where
  pattern : ∀ c ∈ name, interfaceNameChar c = true
  length_le : (encode name).length ≤ maxLength

instance (maxLength : ℕ) (name : Text) : Decidable (ValidName maxLength name) :=
  decidable_of_iff (name.all interfaceNameChar = true ∧ (encode name).length ≤ maxLength)
    ⟨fun h => ⟨List.all_eq_true.mp h.1, h.2⟩,
      fun h => ⟨List.all_eq_true.mpr h.pattern, h.length_le⟩⟩

/-- A configuration that was checked. -/
structure ParsedConfig where
  AllowLAN : Bool
  TunName : Text
  TunPrefixes : List Prefix
  ExtraPaths : List Text
  BridgeName : Text
  APIPort : UInt16
  KeepStates : Bool
  tunName_valid : ValidName 15 TunName
  bridgeName_valid : ValidName 12 BridgeName

/-- What the operating system has to say about a path. -/
structure PathSystem where
  Clean : Text → Text
  IsAbs : Text → Bool
  windows : Bool
  ToLower : Text → Text
  /-- A text in quotes, with `%q`. -/
  quote : Text → String

/-- The loop over `TunCIDRs`. -/
def parsePrefixes (system : PathSystem) : List Text → Except Error (List Prefix)
  | [] => .ok []
  | cidr :: cidrs =>
    if trimSpace cidr = [] then parsePrefixes system cidrs
    else match Netip.parsePrefix (trimSpace cidr) with
      | none => .error ⟨CodeConfig, "invalid tun address " ++ system.quote cidr⟩
      | some parsed => (parsePrefixes system cidrs).map (parsed :: ·)

/-- The loop over `ExtraPaths`: the keys seen so far, the paths kept so far. -/
def parsePath (system : PathSystem) (state : List Text × List Text) (path : Text) :
    List Text × List Text :=
  let path := system.Clean (trimSpace path)
  if path = ".".toList ∨ system.IsAbs path = false then state
  else
    let key := if system.windows then system.ToLower path else path
    if key ∈ state.1 then state else (key :: state.1, state.2 ++ [path])

def parsePaths (system : PathSystem) (paths : List Text) : List Text :=
  (paths.foldl (parsePath system) ([], [])).2

def parseConfig (system : PathSystem) (raw : Config) : Except Error ParsedConfig :=
  if htun : ValidName 15 raw.TunName then
    if hbridge : ValidName 12 raw.BridgeName then
      (parsePrefixes system raw.TunCIDRs).map fun TunPrefixes =>
        { AllowLAN := raw.AllowLAN, TunName := raw.TunName, TunPrefixes,
          ExtraPaths := parsePaths system raw.ExtraPaths, BridgeName := raw.BridgeName,
          APIPort := raw.APIPort, KeepStates := raw.KeepStates, tunName_valid := htun,
          bridgeName_valid := hbridge }
    else .error ⟨CodeConfig, "invalid bridge name " ++ system.quote raw.BridgeName⟩
  else .error ⟨CodeConfig, "invalid tun name " ++ system.quote raw.TunName⟩

/-- `netip.MustParsePrefix` of each text. -/
def mustParsePrefixes (texts : List String) : List Prefix :=
  texts.filterMap fun text => Netip.parsePrefix text.toList

def lanPrefixes4 : List Prefix := mustParsePrefixes
  ["10.0.0.0/8", "172.16.0.0/12", "192.168.0.0/16", "169.254.0.0/16", "224.0.0.0/4",
    "255.255.255.255/32"]

def lanPrefixes6 : List Prefix := mustParsePrefixes ["fe80::/10", "fc00::/7", "ff00::/8"]

/-- Blocked towards LAN even when LAN is allowed. -/
def lanDNSPorts : List ℕ := [53, 853]

/-! ## Matches -/

def NFPROTO_IPV4 : UInt8 := 2
def NFPROTO_IPV6 : UInt8 := 10
def IPPROTO_IGMP : UInt8 := 2
def IPPROTO_TCP : UInt8 := 6
def IPPROTO_UDP : UInt8 := 17
def IPPROTO_ICMPV6 : UInt8 := 58

def IFNAMSIZ : ℕ := 16

def ctLabelBit : ℕ := 127

/-- `IP_CT_DIR_REPLY`. -/
def ctDirectionReply : UInt8 := 1

def loadPayload (base : PayloadBase) (offset len : ℕ) : Expr := .payload base offset len 1

def cmpEq (data : Bytes) : Expr := .cmp .eq 1 data

def matchMeta (key : MetaKey) (data : Bytes) : List Expr := [.metaLoad key 1, cmpEq data]

/-- `copy` into `size` zeros. -/
def padName (size : ℕ) (name : Bytes) : Bytes :=
  name.take size ++ List.replicate (size - name.length) 0

def matchIfname (key : MetaKey) (name : Bytes) : List Expr := matchMeta key (padName IFNAMSIZ name)

def matchPort (offset port : ℕ) : List Expr :=
  [loadPayload .transport offset 2, cmpEq (beBytes 2 port)]

def matchSet (base : PayloadBase) (offset len : ℕ) (set : ElementSet) : List Expr :=
  [loadPayload base offset len, .lookup 1 set]

def matchReply : List Expr := [.ct .DIRECTION 1, cmpEq [ctDirectionReply]]

def ctLabel : Bytes :=
  (List.replicate 16 0).set (ctLabelBit / 8) (UInt8.ofNat (1 <<< (ctLabelBit % 8)))

def matchLabel : List Expr :=
  [.ct .LABELS 1, .bitwise 1 1 16 ctLabel (List.replicate 16 0), .cmp .neq 1 (List.replicate 16 0)]

def setLabel : List Expr := [.immediate 1 ctLabel, .ctSet 1]

/-! ## Sets of prefixes -/

/-- `netipx`: the ranges that a set of prefixes is made of, by their first and last addresses. -/
abbrev IPSet := List Prefix → Except Error (List (Addr × Addr))

/-- `netip.Addr.Next`; none behind the last address of a family. -/
def next : Addr → Option Addr
  | .v4 value => if value = BitVec.allOnes 32 then none else some (.v4 (value + 1))
  | .v6 high low =>
    if low = BitVec.allOnes 64 then
      if high = BitVec.allOnes 64 then none else some (.v6 (high + 1) 0)
    else some (.v6 high (low + 1))

def prefixElements (ipSet : IPSet) (prefixes : List Prefix) : Except Error (List Element) := do
  let ranges ← ipSet prefixes
  return ranges.flatMap fun rng =>
    { key := rng.1.asSlice } ::
      match next rng.2 with
      | none => []
      | some stop => [{ key := stop.asSlice, intervalEnd := true }]

/-! ## The ruleset -/

inductive Chain where
  | postrouting
  | forward
  deriving DecidableEq, Repr

structure Rule where
  chain : Chain
  exprs : List Expr

/-- The rules in the order in which they are queued; every chain drops by default. -/
structure Ruleset where
  sets : List ElementSet := []
  chains : List Chain := []
  rules : List Rule := []

structure LanFamily where
  nfproto : UInt8
  saddr : ℕ
  daddr : ℕ
  addrLen : ℕ
  set : ElementSet

/-- The parts of the table that the LAN rules use. -/
structure LanSets where
  families : List LanFamily
  dnsPorts : ElementSet

namespace Ruleset

def addSet (r : Ruleset) (set : ElementSet) : Ruleset := { r with sets := r.sets ++ [set] }

def addChain (r : Ruleset) (chain : Chain) : Ruleset := { r with chains := r.chains ++ [chain] }

def add (r : Ruleset) (chain : Chain) (kind : Verdict) (parts : List (List Expr)) : Ruleset :=
  { r with rules := r.rules ++ [⟨chain, parts.flatten ++ [.verdict kind]⟩] }

def accept (r : Ruleset) (chain : Chain) (parts : List (List Expr)) : Ruleset :=
  r.add chain .accept parts

def drop (r : Ruleset) (chain : Chain) (parts : List (List Expr)) : Ruleset :=
  r.add chain .drop parts

def interfaces (r : Ruleset) (chain : Chain) (cfg : ParsedConfig) : Ruleset :=
  let r := if cfg.TunName ≠ [] then
      (r.accept chain [matchIfname .IIFNAME (encode cfg.TunName)]).accept chain
        [matchIfname .OIFNAME (encode cfg.TunName)]
    else r
  -- no padding: the comparison covers only the start of the name
  if cfg.BridgeName ≠ [] then
    (r.accept chain [matchMeta .IIFNAME (encode cfg.BridgeName)]).accept chain
      [matchMeta .OIFNAME (encode cfg.BridgeName)]
  else r

/-- The two drops of a family. -/
def lanDrops (chain : Chain) (dnsPorts : ElementSet) (r : Ruleset) (family : LanFamily) : Ruleset :=
  [IPPROTO_TCP, IPPROTO_UDP].foldl (fun r proto => r.drop chain
    [matchMeta .NFPROTO [family.nfproto], matchMeta .L4PROTO [proto],
      matchSet .transport 2 2 dnsPorts,
      matchSet .network family.daddr family.addrLen family.set]) r

/-- The permit of a family. -/
def lanAccept (chain : Chain) (forwarded : Bool) (r : Ruleset) (family : LanFamily) : Ruleset :=
  r.accept chain ([matchMeta .NFPROTO [family.nfproto]] ++
    (if forwarded then [matchSet .network family.saddr family.addrLen family.set] else []) ++
    [matchSet .network family.daddr family.addrLen family.set])

def lan (r : Ruleset) (chain : Chain) (families : List LanFamily) (dnsPorts : ElementSet)
    (forwarded : Bool) : Ruleset :=
  families.foldl (lanAccept chain forwarded) (families.foldl (lanDrops chain dnsPorts) r)

/-- The rules of one chain, in order. -/
def chainRules (r : Ruleset) (chain : Chain) : List (List Expr) :=
  (r.rules.filter fun rule => rule.chain = chain).map Rule.exprs

end Ruleset

/-- The byte order of the machine. -/
inductive Endian where
  | little
  | big
  deriving DecidableEq, Repr

/-- `binaryutil.NativeEndian.PutUint32`. -/
def Endian.putUint32 (order : Endian) (n : ℕ) : Bytes :=
  match order with
  | .little => (beBytes 4 n).reverse
  | .big => beBytes 4 n

/-- The sets that `newRuleset` builds when LAN is allowed. -/
def lanSets (ipSet : IPSet) (cfg : ParsedConfig) : Except Error LanSets :=
  if cfg.AllowLAN then do
    let elems4 ← prefixElements ipSet lanPrefixes4
    let elems6 ← prefixElements ipSet lanPrefixes6
    return {
      families := [
        ⟨NFPROTO_IPV4, 12, 16, 4, { interval := true, keyLength := 4, elements := elems4 }⟩,
        ⟨NFPROTO_IPV6, 8, 24, 16, { interval := true, keyLength := 16, elements := elems6 }⟩]
      dnsPorts :=
        { keyLength := 2, elements := lanDNSPorts.map fun port => { key := beBytes 2 port } } }
  else .ok ⟨[], { keyLength := 0, elements := [] }⟩

/-- The chains of `newRuleset`, over its sets. -/
def chainsOver (order : Endian) (cfg : ParsedConfig) (sets : LanSets) : Ruleset :=
  let r : Ruleset := if cfg.AllowLAN then
      (sets.families.foldl (fun (r : Ruleset) family => r.addSet family.set) {}).addSet
        sets.dnsPorts
    else {}
  let v4 := matchMeta .NFPROTO [NFPROTO_IPV4]
  let v6 := matchMeta .NFPROTO [NFPROTO_IPV6]
  let udp := matchMeta .L4PROTO [IPPROTO_UDP]
  let icmpv6 := matchMeta .L4PROTO [IPPROTO_ICMPV6]
  let post := Chain.postrouting
  let r := r.addChain post
  let r := r.accept post [matchIfname .OIFNAME (encode "lo".toList)]
  -- forwarded packets reach postrouting too
  let r := r.interfaces post cfg
  let r := r.accept post [matchLabel]
  let r := r.accept post [matchMeta .SKGID (order.putUint32 GID), setLabel]
  let r := r.accept post [v4, udp, matchPort 0 68, matchPort 2 67]
  let r := r.accept post [v6, udp, matchPort 0 546, matchPort 2 547]
  let r := r.accept post [v6, icmpv6, [loadPayload .transport 0 1, .range 1 [130] [137]]]
  let r := r.accept post [v6, icmpv6, [loadPayload .transport 0 1, cmpEq [143]]]
  let r := r.accept post [v4, matchMeta .L4PROTO [IPPROTO_IGMP]]
  let r := if cfg.APIPort ≠ 0 then
      r.accept post [matchMeta .L4PROTO [IPPROTO_TCP], matchPort 0 cfg.APIPort.toNat, matchReply]
    else r
  -- the tun permits stand before these: the tun subnet lies inside the LAN
  let r := r.lan post sets.families sets.dnsPorts false
  let r := r.addChain .forward
  let r := r.interfaces .forward cfg
  r.lan .forward sets.families sets.dnsPorts true

def newRuleset (ipSet : IPSet) (order : Endian) (cfg : ParsedConfig) : Except Error Ruleset :=
  (lanSets ipSet cfg).map (chainsOver order cfg)

end Throned.Guard
