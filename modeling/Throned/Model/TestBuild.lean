import Mathlib.Data.List.Sort
import Throned.Library.Utf16
import Throned.Model.DnsAddress
import Throned.Model.DnsSection
import Throned.Model.TestTargets

/-!
# The chains of a test configuration

`buildTestConfigImpl` builds the chains of a batch into one config of the two cores
(src/configs/generate.cpp:190-226, 1530-1967, 2672-2738, 3260-3464).  A failed chain of a
validated batch is rolled back by `ChainBuildMark`.  What a test build notes and never reads again
(the tags of VPN endpoints, the names of ECH queries without a resolver), and the lines it logs,
are left out.
-/

set_option autoImplicit false

namespace Throned.Configs.TestBuild

open Throned.Library Throned.Engine
open Throned.Library.JsonObject
open Throned.Configs.SingBox (ECH TLS toAceHost)

/-! ## Profiles -/

structure BuildResult where
  object : JsonObject := []
  error : Text := []

/-- A socks bridge between the cores. -/
structure coreBridgeConfig where
  needed : Bool := false
  port : ℤ := -1
  auth : Text := []
  host : Text := "127.0.0.1".toList

def CustomFullConfig : Text := "fullconfig".toList

def CustomXrayOutbound : Text := "xrayoutbound".toList

def CustomXrayFullConfig : Text := "xrayfullconfig".toList

/-- `Custom`, its config as the object that the text is read as. -/
structure Custom where
  type : Text
  config : JsonObject
  bridgePort : ℤ := 0
  bridgeAuth : Text := []
  bridgeHost : Text := "127.0.0.1".toList

/-- What the build asks of an outbound of another class. -/
structure OtherOutbound where
  IsXray : Bool := false
  IsExtraCore : Bool := false
  IsEndpoint : Bool := false
  Build : BuildResult
  BuildXray : BuildResult := {}
  server : Text := []
  /-- `HasTLS` and `GetTLS`. -/
  tls : Option TLS := none
  /-- It is a Hysteria outbound, with an active realm. -/
  RealmActive : Bool := false
  /-- It is a socks outbound, of version 4 and not 4a. -/
  plainSocks4 : Bool := false

inductive Outbound where
  | chain (list : List ℤ)
  | custom (custom : Custom)
  | other (outbound : OtherOutbound)

structure Profile where
  id : ℤ := -1
  gid : ℤ := 0
  type : Text
  outbound : Outbound

namespace Custom

variable (custom : Custom)

def subtypeIn (types : List String) : Bool :=
  match custom.config.lookup "type" with
  | some (.str t) => types.any fun type => type.toList = t
  | _ => false

def IsEndpoint : Bool :=
  custom.type = "outbound".toList ∧ custom.subtypeIn ["wireguard", "tailscale", "masque"] = true

def Build : BuildResult :=
  if custom.type = CustomXrayFullConfig then
    { object :=
        [("type", .str "socks".toList),
          ("server", .str custom.bridgeHost),
          ("server_port", .num custom.bridgePort),
          ("username", .str custom.bridgeAuth),
          ("password", .str custom.bridgeAuth)] }
  else if custom.type = CustomXrayOutbound then
    { object := [("type", .str "socks".toList), ("server", .str "127.0.0.1".toList)] }
  else { object := custom.config }

def BuildXray : BuildResult :=
  if custom.type = CustomXrayOutbound then { object := custom.config } else {}

end Custom

namespace Profile

variable (ent : Profile)

/-- `Chain()`. -/
def Chain : Option (List ℤ) :=
  match ent.outbound with
  | .chain list => some list
  | .custom _ | .other _ => none

/-- `Custom()`. -/
def Custom : Option Custom :=
  match ent.outbound with
  | .custom custom => some custom
  | .chain _ | .other _ => none

def IsXray : Bool :=
  match ent.outbound with
  | .chain _ => false
  | .custom custom => custom.type = CustomXrayOutbound
  | .other outbound => outbound.IsXray

def IsXrayFullConfig : Bool :=
  match ent.outbound with
  | .custom custom => custom.type = CustomXrayFullConfig
  | .chain _ | .other _ => false

def IsExtraCore : Bool :=
  match ent.outbound with
  | .other outbound => outbound.IsExtraCore
  | .chain _ | .custom _ => false

def IsEndpoint : Bool :=
  match ent.outbound with
  | .chain _ => false
  | .custom custom => custom.IsEndpoint
  | .other outbound => outbound.IsEndpoint

/-- The base class of a chain builds nothing. -/
def Build : BuildResult :=
  match ent.outbound with
  | .chain _ => {}
  | .custom custom => custom.Build
  | .other outbound => outbound.Build

def BuildXray : BuildResult :=
  match ent.outbound with
  | .chain _ => {}
  | .custom custom => custom.BuildXray
  | .other outbound => outbound.BuildXray

def server : Text :=
  match ent.outbound with
  | .other outbound => outbound.server
  | .chain _ | .custom _ => []

def tls : Option TLS :=
  match ent.outbound with
  | .other outbound => outbound.tls
  | .chain _ | .custom _ => none

def RealmActive : Bool :=
  match ent.outbound with
  | .other outbound => outbound.RealmActive
  | .chain _ | .custom _ => false

def resolvesHostnamesViaDnsRules : Bool :=
  ent.IsEndpoint ||
    match ent.outbound with
    | .other outbound => outbound.plainSocks4
    | .chain _ | .custom _ => false

def isCustomFullConfig : Bool :=
  ent.type = "custom".toList ∧ (ent.Custom.any fun custom => custom.type = CustomFullConfig) = true

end Profile

structure Group where
  name : Text
  front_proxy_id : ℤ := -1
  landing_proxy_id : ℤ := -1

def warpProfileID : ℤ := -2408

/-- What a build reads of the program around it. -/
structure Program where
  qt : DnsText
  /-- `QHostAddress(text).protocol()` is known. -/
  isAddress : Text → Bool
  getProfile : ℤ → Option Profile
  warp : OtherOutbound
  /-- Warp is WireGuard or MASQUE, which sing-box runs. -/
  warp_sing : warp.IsXray = false
  warpType : Text
  /-- `GetAllGroupIds` and `GetGroup`. -/
  groups : List (ℤ × Group)
  /-- What `IsValid` asks besides the data of a custom profile: the hops of a chain, a build of
  the profile, and the core. -/
  accepts : Profile → Bool
  dns : RouteDns
  /-- The servers of the DNS section that no profile has a part in. -/
  dnsServers : List JsonObject
  legacyDnsObj : Text → JsonObject
  isResolvedUsed : Bool := false
  darwin : Bool := false
  directDomainResolver : JsonObject
  /-- The log, certificate and NTP sections. -/
  sections : JsonObject
  SetXrayDialerProxy : JsonObject → Text → JsonObject
  UseXraySystemCA : JsonObject → JsonObject
  xray_use_system_ca : Bool := false
  xray_log_level : Text
  spmode_vpn : Bool := false
  xrayOutboundDomainStrategy : Text

/-- What the system and the random generator give while one chain is built. -/
structure Chance where
  /-- `MkManyPorts(1, bridgeHost)[0]`. -/
  fullConfigPort : ℤ
  /-- `MkManyPorts(2)`. -/
  ports : List ℤ
  fullConfigAuth : Text
  singToXrayAuth : Text
  xrayToSingAuth : Text

namespace Program

variable (env : Program)

def getWarpProfile : Profile :=
  { id := warpProfileID, type := env.warpType, outbound := .other env.warp }

def GetGroup (gid : ℤ) : Option Group := env.groups.lookup gid

/-- Empty custom data is refused before anything else is asked. -/
def IsValid (ent : Profile) : Bool :=
  if ent.type = "custom".toList ∧ ent.Custom.isNone = true then false
  else if ent.type = "custom".toList ∧ ent.IsXrayFullConfig = true ∧
      (ent.Custom.any fun custom => custom.config.isEmpty) = true then false
  else env.accepts ent

end Program

/-! ## The context of a build -/

/-- The profiles of a chain by their ids, and the tag that their traffic is counted at. -/
structure TrafficChainGroup where
  profiles : List ℤ
  watchTag : Text

/-- A server of the DNS section, with the tag and the resolver that are put into it. -/
structure DnsServer where
  object : JsonObject
  tag : Text
  domain_resolver : Text

structure DnsSection where
  servers : List JsonObject
  echServers : List DnsServer
  rules : List DnsRule

structure CoreConfig where
  dns : DnsSection
  sections : JsonObject
  outbounds : List JsonObject := []
  endpoints : List JsonObject := []
  route : JsonObject := []
  inbounds : List JsonObject := []

structure BuildContext where
  forTest : Bool := true
  error : Text := []
  outbounds : List JsonObject := []
  endpoints : List JsonObject := []
  xrayOutbounds : List JsonObject := []
  xrayIngressTags : List Text := []
  singIngressTags : List Text := []
  singToXrayBridges : List coreBridgeConfig := []
  xrayToSingBridges : List coreBridgeConfig := []
  chainGroups : List TrafficChainGroup := []
  xrayConfig : JsonObject := []
  isXrayNeeded : Bool := false
  coreConfig : CoreConfig

/-! ## The hops of a chain -/

structure chainScan where
  hopCount : ℕ := 0
  extraCoreCount : ℕ := 0
  extraCoreIdx : ℤ := -1
  xrayFullConfigCount : ℕ := 0
  xrayFullConfigIdx : ℤ := -1
  xrayHopCount : ℕ := 0
  hasCustomFullConfig : Bool := false
  coreTransitions : ℕ := 0

def chainScanError (scan : chainScan) : Text :=
  if scan.hasCustomFullConfig = true then
    ("Custom full config profiles cannot be used in a chain; " ++
      "only custom outbound profiles are chainable").toList
  else if scan.extraCoreCount > 1 then
    "Only one extra-core profile is allowed in a chain".toList
  else if scan.xrayFullConfigCount > 1 then
    "Only one custom Xray full config profile is allowed in a chain".toList
  else if scan.extraCoreCount > 0 ∧ scan.xrayFullConfigCount > 0 then
    "Extra-core and custom Xray full config profiles cannot be combined in a chain".toList
  else if scan.xrayFullConfigCount > 0 ∧ scan.xrayHopCount > 0 then
    ("Custom Xray full config cannot be combined with other Xray hops in a chain " ++
      "(only one Xray instance is supported at a time)").toList
  -- An extra core must be the last hop so its local socks server is dialed directly.
  else if scan.extraCoreCount = 1 ∧ scan.hopCount > 1 ∧ scan.extraCoreIdx ≠ scan.hopCount - 1 then
    "Extra-core profiles can only be the final hop in a chain (top of the chain editor)".toList
  else if scan.xrayFullConfigCount = 1 ∧ scan.hopCount > 1 ∧
      scan.xrayFullConfigIdx ≠ scan.hopCount - 1 then
    ("Custom Xray full config can only be the final hop in a chain " ++
      "(top of the chain editor)").toList
  else if scan.coreTransitions > 2 then
    ("Too many core transitions, the valid sequence is: " ++
      "(optional sing-box chain)->(optional xray chain)->(optional sing-box chain)").toList
  else []

/-- The hops that were found so far, and the changes of the core between them. -/
structure HopList where
  scan : chainScan := {}
  inXray : Bool := false
  singToXrayTransitioned : Bool := false
  xrayToSingTransitioned : Bool := false
  ents : List Profile := []
  error : Text := []

namespace HopList

/-- The next hop runs on the core that is given. -/
def enter (hops : HopList) (isXray : Bool) : HopList :=
  { hops with
    inXray := isXray
    singToXrayTransitioned := hops.singToXrayTransitioned || (!hops.inXray && isXray)
    xrayToSingTransitioned := hops.xrayToSingTransitioned || (hops.inXray && !isXray)
    scan := { hops.scan with
      coreTransitions := hops.scan.coreTransitions + if hops.inXray = isXray then 0 else 1 } }

def addHop (hops : HopList) (ent : Profile) : HopList :=
  { hops with
    scan := { hops.scan with
      extraCoreCount := hops.scan.extraCoreCount + if ent.IsExtraCore = true then 1 else 0
      extraCoreIdx :=
        if ent.IsExtraCore = true then hops.ents.length else hops.scan.extraCoreIdx
      xrayFullConfigCount :=
        hops.scan.xrayFullConfigCount + if ent.IsXrayFullConfig = true then 1 else 0
      xrayFullConfigIdx :=
        if ent.IsXrayFullConfig = true then hops.ents.length else hops.scan.xrayFullConfigIdx
      xrayHopCount := hops.scan.xrayHopCount + if ent.IsXray = true then 1 else 0
      hasCustomFullConfig := hops.scan.hasCustomFullConfig || ent.isCustomFullConfig }
    ents := hops.ents ++ [ent] }

/-- The end of the list. -/
def finish (hops : HopList) : HopList :=
  let scan := { hops.scan with hopCount := hops.ents.length }
  { hops with scan, error := chainScanError scan }

end HopList

namespace Program

variable (env : Program)

/-- Names the setting that still points at a deleted profile.  The entity of a test build is an
empty one, of group 0. -/
def missingHopError (id : ℤ) : Text :=
  let named (gid : ℤ) : Option Text :=
    match env.GetGroup gid with
    | none => none
    | some group =>
      if group.front_proxy_id = id then
        some ("Group \"".toList ++ group.name ++
          "\" has a front proxy that has been deleted.".toList)
      else if group.landing_proxy_id = id then
        some ("Group \"".toList ++ group.name ++
          "\" has a landing proxy that has been deleted.".toList)
      else none
  ((0 :: env.groups.map Prod.fst).findSome? named).getD
    "A proxy in the chain can no longer be found.".toList

/-- The loop over the ids. -/
def listHops : HopList → List ℤ → HopList
  | hops, [] => hops.finish
  | hops, id :: ids =>
    if id = warpProfileID then
      let hops := hops.enter false
      listHops { hops with ents := hops.ents ++ [env.getWarpProfile] } ids
    else
      match env.getProfile id with
      | none => { hops with error := env.missingHopError id }
      | some ent =>
        let hops := hops.enter ent.IsXray
        if ent.type = "chain".toList then
          { hops with error := "Chain in Chain is not allowed".toList }
        else if ent.type = "autoselector".toList then
          { hops with
            error :=
              "An auto selector cannot be used as a hop; it is not a fixed server".toList }
        else listHops (hops.addHop ent) ids

def entIDListtoEntList (entIDs : List ℤ) : HopList := env.listHops {} entIDs

def unwrapChain (entID : ℤ) : List ℤ :=
  match env.getProfile entID with
  | none => []
  | some ent =>
    if ent.type = "chain".toList then
      match ent.Chain with
      | none => []
      | some list => list.reverse
    else [entID]

end Program

/-! ## The chains of the cores -/

structure hopChainOptions where
  tagPrefix : Text
  includeProxy : Bool := false
  link : Bool := true
  startSuffix : ℕ := 0
  markIngress : Bool := false
  warpWrap : Bool := false

namespace hopChainOptions

variable (opts : hopChainOptions)

def plainTag (idx : ℕ) : Text := Tests.hopTag opts.tagPrefix ((opts.startSuffix + idx : ℕ) : ℤ)

/-- The tag of a hop of Xray. -/
def xrayTag (idx : ℕ) : Text :=
  if opts.includeProxy = true ∧ idx = 0 then tagProxy else opts.plainTag idx

/-- The tag of a hop of sing-box: with warp in front the second is one that rules name. -/
def singTag (idx : ℕ) : Text :=
  if opts.warpWrap = true ∧ idx = 1 then warpBypass else opts.xrayTag idx

end hopChainOptions

namespace BuildContext

def addHop (ctx : BuildContext) (isEndpoint : Bool) (object : JsonObject) : BuildContext :=
  if isEndpoint = true then { ctx with endpoints := ctx.endpoints ++ [object] }
  else { ctx with outbounds := ctx.outbounds ++ [object] }

end BuildContext

namespace Program

variable (env : Program)

/-- What a chain puts into the object of a hop. -/
def linkHop (opts : hopChainOptions) (idx : ℕ) (ent : Profile) (next : Option Profile)
    (object : JsonObject) : JsonObject :=
  let object := insert object "tag" (.str (opts.singTag idx))
  -- Realm reads its STUN resolver off this key only.
  let object := insertIf (ent.RealmActive = true) object "domain_resolver"
    (.obj [("server", .str dnsDirect)])
  let object := insertIf (next.isSome = true ∧ opts.link = true) object "detour"
    (.str (opts.plainTag (idx + 1)))
  let object := insertIf (opts.warpWrap = true ∧ idx = 0) object "detour" (.str warpBypass)
  -- A detour gets the server's host name unresolved, and an endpoint looks it up.
  insertIf (next.isSome = true ∧ opts.link = true ∧ ent.IsEndpoint = false ∧
      contains object "domain_resolver" = false ∧
      next.any Profile.resolvesHostnamesViaDnsRules = true)
    object "domain_resolver" (.obj env.directDomainResolver)

def buildSingboxChain (opts : hopChainOptions) :
    ℕ → List Profile → BuildContext → BuildContext
  | _, [], ctx => ctx
  | idx, ent :: ents, ctx =>
    let ctx :=
      if opts.markIngress = true ∧ idx = 0 then
        { ctx with singIngressTags := ctx.singIngressTags ++ [opts.singTag idx] }
      else ctx
    if ent.Build.error ≠ [] then { ctx with error := ctx.error ++ ent.Build.error }
    else
      buildSingboxChain opts (idx + 1) ents
        (ctx.addHop ent.IsEndpoint (env.linkHop opts idx ent ents.head? ent.Build.object))

/-- The bridge out of Xray. -/
def xrayBridgeOutbound (tag : Text) (bridge : coreBridgeConfig) : JsonObject :=
  [("tag", .str tag),
    ("protocol", .str "socks".toList),
    ("settings", .obj
      [("address", .str bridge.host),
        ("port", .num bridge.port),
        ("user", .str bridge.auth),
        ("pass", .str bridge.auth)])]

/-- What a chain puts into the object of a hop of Xray.  Xray removed the outbounds' own proxy
settings; `dialerProxy` replaces them. -/
def linkXrayHop (opts : hopChainOptions) (idx : ℕ) (hasNext : Bool)
    (bridgeConfig : coreBridgeConfig) (object : JsonObject) : JsonObject :=
  let object := insert object "tag" (.str (opts.xrayTag idx))
  let object :=
    if (hasNext || bridgeConfig.needed) = true ∧ (opts.link || bridgeConfig.needed) = true then
      env.SetXrayDialerProxy object (opts.plainTag (idx + 1))
    else object
  if env.xray_use_system_ca = true then env.UseXraySystemCA object else object

def buildXrayChain (opts : hopChainOptions) (bridgeConfig : coreBridgeConfig) :
    ℕ → List Profile → BuildContext → BuildContext
  | idx, [], ctx =>
    if bridgeConfig.needed = true then
      { ctx with
        xrayOutbounds :=
          ctx.xrayOutbounds ++ [xrayBridgeOutbound (opts.plainTag idx) bridgeConfig] }
    else ctx
  | idx, ent :: ents, ctx =>
    let ctx :=
      if idx = 0 then { ctx with xrayIngressTags := ctx.xrayIngressTags ++ [opts.xrayTag idx] }
      else ctx
    if ent.BuildXray.error ≠ [] then { ctx with error := ctx.error ++ ent.BuildXray.error }
    else
      buildXrayChain opts bridgeConfig (idx + 1) ents
        { ctx with
          xrayOutbounds := ctx.xrayOutbounds ++
            [env.linkXrayHop opts idx (!ents.isEmpty) bridgeConfig ent.BuildXray.object] }

end Program

/-! ## One chain of both cores -/

structure ChainBuildRequest where
  hopIDs : List ℤ
  tagPrefix : Text
  includeProxy : Bool := false
  link : Bool := true
  startSuffix : ℕ := 0
  /-- The ports that were probed before; -1 lets the chain probe its own. -/
  singToXrayPort : ℤ := -1
  xrayToSingPort : ℤ := -1
  xrayFullConfigPort : ℤ := -1
  soleXrayInbound : Bool := false
  warpWrap : Bool := false

def ChainBuildRequest.ingressTag (req : ChainBuildRequest) : Text :=
  if req.includeProxy = true then tagProxy
  else Tests.hopTag req.tagPrefix (req.startSuffix : ℤ)

/-- The hops before the first one of Xray, those of Xray, and the rest. -/
structure SplitHops where
  initialSing : List Profile := []
  xray : List Profile := []
  tailingSing : List Profile := []

def SplitHops.add (parts : SplitHops) (ent : Profile) : SplitHops :=
  if ent.IsXray = true then { parts with xray := parts.xray ++ [ent] }
  else if parts.xray.isEmpty = true then { parts with initialSing := parts.initialSing ++ [ent] }
  else { parts with tailingSing := parts.tailingSing ++ [ent] }

def splitHops (ents : List Profile) : SplitHops := ents.foldl SplitHops.add {}

def xrayFullConfigIn : Text := "throne-bridge".toList

def xraySocksInbound (tag : Text) (bridge : coreBridgeConfig) : JsonObject :=
  [("tag", .str tag),
    ("listen", .str bridge.host),
    ("port", .num bridge.port),
    ("protocol", .str "socks".toList),
    ("settings", .obj
      [("auth", .str "password".toList),
        ("udp", .bool true),
        ("accounts", .arr [.obj [("user", .str bridge.auth), ("pass", .str bridge.auth)]])])]

def socksBridgeInbound (tag : Text) (bridge : coreBridgeConfig) : JsonObject :=
  [("type", .str "socks".toList),
    ("tag", .str tag),
    ("listen", .str bridge.host),
    ("listen_port", .num bridge.port),
    ("users", .arr [.obj [("username", .str bridge.auth), ("password", .str bridge.auth)]])]

/-- `toArray`. -/
def arrayOf (object : JsonObject) (key : String) : List Json :=
  match object.lookup key with
  | some (.arr items) => items
  | _ => []

/-- The profile of the bridge into Xray. -/
def bridgeEnt (bridge : coreBridgeConfig) : Profile :=
  { type := "socks".toList
    outbound := .other
      { Build :=
          { object :=
              [("type", .str "socks".toList),
                ("server", .str bridge.host),
                ("server_port", .num bridge.port),
                ("username", .str bridge.auth),
                ("password", .str bridge.auth)] }
        BuildXray := {}
        server := bridge.host } }

/-- A probed 0 means that the probe failed, and the chain probes again; the first probe of a chain
draws two ports. -/
def bridgePort (given : ℤ) (ports : List ℤ) : ℤ × List ℤ :=
  if given > 0 then (given, ports) else (ports.headD 0, ports.tail)

namespace Program

variable (env : Program)

/-- The user's config with the bridge's inbound. -/
def bridgedXrayConfig (req : ChainBuildRequest) (forTest : Bool) (custom : Custom) : JsonObject :=
  let bridgeInbound := xraySocksInbound xrayFullConfigIn
    { needed := true, port := custom.bridgePort, auth := custom.bridgeAuth,
      host := custom.bridgeHost }
  let bridgeInbound := insert bridgeInbound "sniffing" (.obj
    [("enabled", .bool true),
      ("destOverride", .arr [.str "http".toList, .str "tls".toList, .str "quic".toList]),
      ("routeOnly", .bool false)])
  -- Sibling configs from one subscription repeat these ports and would fail to bind.
  let inbounds := if (forTest || req.soleXrayInbound) = true then [] else
    arrayOf custom.config "inbounds"
  let config := insert custom.config "inbounds" (.arr (.obj bridgeInbound :: inbounds))
  if env.xray_use_system_ca = true then
    insert config "outbounds" (.arr ((arrayOf config "outbounds").map fun value =>
      match value with
      | .obj outbound => .obj (env.UseXraySystemCA outbound)
      | value => value))
  else config

/-- A custom Xray full config is the last hop, and takes the one slot of the build. -/
def openXrayFullConfig (req : ChainBuildRequest) (chance : Chance) (ents : List Profile)
    (ctx : BuildContext) : Except BuildContext (BuildContext × List Profile) :=
  match ents.getLast? with
  | some { id, gid, type, outbound := .custom custom } =>
    if custom.type = CustomXrayFullConfig then
      if custom.config.isEmpty = true then
        .error { ctx with error := "Custom Xray full config is not valid JSON".toList }
      else
        let port :=
          if req.xrayFullConfigPort ≤ 0 then chance.fullConfigPort else req.xrayFullConfigPort
        if port ≤ 0 then
          .error { ctx with
            error :=
              "Could not reserve a local port for the custom Xray full config bridge".toList }
        else
          let custom := { custom with bridgePort := port, bridgeAuth := chance.fullConfigAuth }
          .ok ({ ctx with
              xrayConfig := env.bridgedXrayConfig req ctx.forTest custom
              isXrayNeeded := true },
            ents.dropLast ++ [{ id, gid, type, outbound := .custom custom }])
    else .ok (ctx, ents)
  | _ => .ok (ctx, ents)

end Program

/-- The bridge into Xray, its profile behind the leading hops, and the ports that are left. -/
def openSingToXray (req : ChainBuildRequest) (chance : Chance) (transitioned : Bool)
    (initialSing : List Profile) (ctx : BuildContext) :
    Except BuildContext (BuildContext × List Profile × List ℤ) :=
  if transitioned = true then
    let (port, ports) := bridgePort req.singToXrayPort chance.ports
    if port ≤ 0 then
      .error { ctx with
        error := "Could not reserve a local port for the sing-box -> Xray bridge".toList }
    else
      let bridge : coreBridgeConfig := { needed := true, port, auth := chance.singToXrayAuth }
      .ok ({ ctx with singToXrayBridges := ctx.singToXrayBridges ++ [bridge] },
        initialSing ++ [bridgeEnt bridge], ports)
  else .ok (ctx, initialSing, chance.ports)

def openXrayToSing (req : ChainBuildRequest) (chance : Chance) (transitioned : Bool)
    (ports : List ℤ) (ctx : BuildContext) :
    Except BuildContext (BuildContext × coreBridgeConfig) :=
  if transitioned = true then
    let (port, _) := bridgePort req.xrayToSingPort ports
    if port ≤ 0 then
      .error { ctx with
        error := "Could not reserve a local port for the Xray -> sing-box bridge".toList }
    else
      let bridge : coreBridgeConfig := { needed := true, port, auth := chance.xrayToSingAuth }
      .ok ({ ctx with xrayToSingBridges := ctx.xrayToSingBridges ++ [bridge] }, bridge)
  else .ok (ctx, {})

namespace Program

variable (env : Program)

/-- The three parts of a chain, and the group that its traffic is counted for. -/
def buildChains (req : ChainBuildRequest) (ents initialSing : List Profile) (parts : SplitHops)
    (bridge : coreBridgeConfig) (ctx : BuildContext) : BuildContext :=
  let leadingOpts : hopChainOptions :=
    { tagPrefix := req.tagPrefix
      includeProxy := req.includeProxy
      link := req.link
      startSuffix := req.startSuffix
      warpWrap := req.warpWrap }
  let tailingOpts : hopChainOptions :=
    { tagPrefix := req.tagPrefix
      link := req.link
      startSuffix := req.startSuffix + initialSing.length
      markIngress := true }
  let ctx := env.buildSingboxChain leadingOpts 0 initialSing ctx
  let ctx := if parts.xray.isEmpty = true then ctx else
    env.buildXrayChain leadingOpts bridge 0 parts.xray ctx
  let ctx := env.buildSingboxChain tailingOpts 0 parts.tailingSing ctx
  if ents.isEmpty = true then ctx
  else
    { ctx with
      chainGroups := ctx.chainGroups ++
        [{ profiles := ents.map Profile.id
           watchTag :=
            if parts.tailingSing.isEmpty = true then req.ingressTag else tailingOpts.plainTag 0 }] }

def buildOutboundChain (req : ChainBuildRequest) (chance : Chance) (ctx : BuildContext) :
    BuildContext :=
  let hops := env.entIDListtoEntList req.hopIDs
  if hops.error ≠ [] then { ctx with error := hops.error }
  else
    match env.openXrayFullConfig req chance hops.ents ctx with
    | .error ctx => ctx
    | .ok (ctx, ents) =>
      let parts := splitHops ents
      match openSingToXray req chance hops.singToXrayTransitioned parts.initialSing ctx with
      | .error ctx => ctx
      | .ok (ctx, initialSing, ports) =>
        match openXrayToSing req chance hops.xrayToSingTransitioned ports ctx with
        | .error ctx => ctx
        | .ok (ctx, bridge) => env.buildChains req ents initialSing parts bridge ctx

end Program

/-! ## The DNS section of a test -/

def dnsLocal : Text := "dns-local".toList

namespace Program

variable (env : Program)

/-- The answer for a test build. -/
def buildDnsObj (address : Text) : JsonObject :=
  match ParseDnsAddress env.qt address with
  | .error _ => env.legacyDnsObj address
  | .ok parsed =>
    if parsed.type = "local".toList then
      if (env.isResolvedUsed || env.darwin) = true then [("type", .str "underlying".toList)]
      else [("type", .str "local".toList)]
    else if parsed.type = "dhcp".toList then
      [("type", .str "dhcp".toList), ("interface", .str parsed.iface)]
    else
      [("type", .str parsed.type), ("server", .str parsed.server)] ++
        member (parsed.port > 0) "server_port" (.num parsed.port) ++
        member (parsed.path ≠ []) "path" (.str parsed.path)

/-- A resolver that `ParseDnsAddress` refuses, or a dhcp one, is as one that is not set. -/
def usableEchResolver (resolver : Text) : Bool :=
  match ParseDnsAddress env.qt resolver with
  | .error _ => false
  | .ok parsed => parsed.type ≠ "dhcp".toList

/-- The map is in the order of its keys. -/
def insertResolver (echResolvers : List (Text × Text)) (name resolver : Text) :
    List (Text × Text) :=
  if (echResolvers.lookup name).isSome = true then echResolvers
  else echResolvers.orderedInsert (fun a b => ¬ utf16 b.1 < utf16 a.1) (name, resolver)

/-- Without a static config the core fetches the ECH list over DNS first. -/
def collectEchQueryName (echResolvers : List (Text × Text)) (hop : Profile) :
    List (Text × Text) :=
  match hop.tls with
  | none => echResolvers
  | some tls =>
    if tls.enabled = false ∨ tls.ech.enabled = false then echResolvers
    else if tls.ech.config ≠ [] ∨ tls.ech.config_path ≠ [] then echResolvers
    else
      let name := if tls.ech.serverName ≠ [] then tls.ech.serverName
        else if tls.server_name ≠ [] then tls.server_name else hop.server
      let name := toAceHost env.qt.toQtFunctions (trimSpace name)
      if name = [] ∨ env.isAddress name = true then echResolvers
      else if env.usableEchResolver tls.ech.resolver = true then
        insertResolver echResolvers name tls.ech.resolver
      else echResolvers

/-- The hops of every profile of the batch. -/
def echResolversOf (profiles : List Profile) : List (Text × Text) :=
  ((profiles.flatMap fun item => env.unwrapChain item.id).filterMap env.getProfile).foldl
    env.collectEchQueryName []

def testDnsContext (echResolvers : List (Text × Text)) : DnsContext :=
  { forTest := true
    customObject := false
    dns := env.dns
    rules := []
    outboundMap := []
    chains := []
    isTailscale := false
    tailscale := false
    predefined := []
    dns_use_hosts := false
    extraCorePath := []
    echQueryNames := []
    echResolvers }

def testDnsSection (echResolvers : List (Text × Text)) : DnsSection :=
  { servers := env.dnsServers
    echServers := echResolvers.mapIdx fun i resolver =>
      { object := env.buildDnsObj resolver.2
        tag := hopTag dnsEchPrefix i
        domain_resolver := dnsLocal }
    rules := dnsRules (env.testDnsContext echResolvers) .empty }

end Program

/-! ## The batch -/

inductive testCandidate where
  /-- An ordinary profile or chain, built into the shared test box. -/
  | Build
  | XrayFullConfig
  | Skip
  deriving DecidableEq

structure TestBuildOptions where
  chainPrefix : Text := Tests.testChainPrefix
  validate : Bool := true
  groupHops : Bool := true

structure BuildTestConfigResult where
  error : Text := []
  fullConfigs : List (ℤ × JsonObject) := []
  xrayFullConfigs : List JsonObject := []
  /-- A later tag hides an earlier one. -/
  tag2entID : List (Text × ℤ) := []
  outboundTags : List Text := []
  coreConfig : Option CoreConfig := none
  xrayConfig : JsonObject := []
  isXrayNeeded : Bool := false
  xrayDnsStrategy : Text := []

/-- What a chain leaves behind. -/
structure ChainBuildMark where
  outbounds : ℕ
  endpoints : ℕ
  xrayOutbounds : ℕ
  xrayIngressTags : ℕ
  singIngressTags : ℕ
  singToXrayBridges : ℕ
  xrayToSingBridges : ℕ
  chainGroups : ℕ
  xrayConfig : JsonObject
  isXrayNeeded : Bool

namespace ChainBuildMark

def mark (ctx : BuildContext) : ChainBuildMark :=
  { outbounds := ctx.outbounds.length
    endpoints := ctx.endpoints.length
    xrayOutbounds := ctx.xrayOutbounds.length
    xrayIngressTags := ctx.xrayIngressTags.length
    singIngressTags := ctx.singIngressTags.length
    singToXrayBridges := ctx.singToXrayBridges.length
    xrayToSingBridges := ctx.xrayToSingBridges.length
    chainGroups := ctx.chainGroups.length
    xrayConfig := ctx.xrayConfig
    isXrayNeeded := ctx.isXrayNeeded }

def rollback (mark : ChainBuildMark) (ctx : BuildContext) : BuildContext :=
  { ctx with
    error := []
    outbounds := ctx.outbounds.take mark.outbounds
    endpoints := ctx.endpoints.take mark.endpoints
    xrayOutbounds := ctx.xrayOutbounds.take mark.xrayOutbounds
    xrayIngressTags := ctx.xrayIngressTags.take mark.xrayIngressTags
    singIngressTags := ctx.singIngressTags.take mark.singIngressTags
    singToXrayBridges := ctx.singToXrayBridges.take mark.singToXrayBridges
    xrayToSingBridges := ctx.xrayToSingBridges.take mark.xrayToSingBridges
    chainGroups := ctx.chainGroups.take mark.chainGroups
    xrayConfig := mark.xrayConfig
    isXrayNeeded := mark.isXrayNeeded }

end ChainBuildMark

/-- A profile of the batch, with what its build draws. -/
structure Tested where
  profile : Profile
  chance : Chance

structure TestLoop where
  ctx : BuildContext
  suffix : ℕ := 1
  xrayPortIdx : ℕ := 0
  res : BuildTestConfigResult := {}

/-- How a profile of the batch fares.  The latency of one that failed is set to -1. -/
inductive Outcome where
  | skipped
  | failed
  | tested
  /-- The whole build ends with an error. -/
  | aborted (error : Text)
  deriving DecidableEq

namespace TestLoop

variable (st : TestLoop)

def addTag (ctx : BuildContext) (tag : Text) (id : ℤ) : TestLoop :=
  { st with
    ctx
    res := { st.res with
      outboundTags := st.res.outboundTags ++ [tag]
      tag2entID := (tag, id) :: st.res.tag2entID } }

def addFullConfig (id : ℤ) (config : JsonObject) : TestLoop :=
  { st with
    res := { st.res with
      fullConfigs := (id, config) :: st.res.fullConfigs.filter fun entry => entry.1 ≠ id } }

end TestLoop

namespace Program

variable (env : Program)

def classifyTestCandidate (profile : Profile) : testCandidate :=
  if profile.IsExtraCore = true then .Skip
  else if profile.IsXrayFullConfig = true then .XrayFullConfig
  else if profile.type = "chain".toList then
    match profile.Chain with
    | none => .Build
    | some list =>
      -- The terminal hop of such a chain cannot be tested.
      if (list.any fun hopID =>
          (env.getProfile hopID).any fun hop => hop.IsExtraCore || hop.IsXrayFullConfig) = true
      then .Skip
      else .Build
  else if profile.type = "tailscale".toList then .Skip
  else if profile.type = "autoselector".toList then .Skip
  else .Build

/-- A custom Xray full config, with the slot cleared behind it. -/
def testXrayFullConfig (options : TestBuildOptions) (st : TestLoop) (item : Tested) :
    Outcome × TestLoop :=
  if options.validate = true ∧ env.IsValid item.profile = false then (.failed, st)
  else
    let req : ChainBuildRequest :=
      { hopIDs := [item.profile.id]
        tagPrefix := Tests.hopTag Tests.testXrayFullPrefix item.profile.id }
    let ctx := env.buildOutboundChain req item.chance st.ctx
    if ctx.error ≠ [] then
      if options.validate = true then
        (.failed, { st with ctx := (ChainBuildMark.mark st.ctx).rollback ctx })
      else (.aborted ctx.error, { st with ctx })
    else if (!ctx.isXrayNeeded || ctx.xrayConfig.isEmpty) = true then
      (.failed, { st with ctx })
    else
      let st := st.addTag { ctx with xrayConfig := [], isXrayNeeded := false } req.ingressTag
        item.profile.id
      (.tested, { st with
        res := { st.res with xrayFullConfigs := st.res.xrayFullConfigs ++ [ctx.xrayConfig] } })

/-- The hops of a profile, between the proxies of its group. -/
def testHops (options : TestBuildOptions) (profile : Profile) : Option (List ℤ) :=
  let IDs := env.unwrapChain profile.id
  if options.groupHops = true then
    match env.GetGroup profile.gid with
    | none => none
    | some group =>
      let IDs := if group.landing_proxy_id ≥ 0 then group.landing_proxy_id :: IDs else IDs
      some (if group.front_proxy_id ≥ 0 then IDs ++ [group.front_proxy_id] else IDs)
  else some IDs

/-- The ports of a profile, out of those that were probed for the batch: one for a profile of
Xray, two for a chain. -/
def testPorts (xrayPorts : List ℤ) (profile : Profile) (xrayPortIdx : ℕ) : ℤ × ℤ × ℕ :=
  let (singToXrayPort, xrayPortIdx) :=
    if profile.IsXray = true then (xrayPorts.getD xrayPortIdx 0, xrayPortIdx + 1)
    else (-1, xrayPortIdx)
  if profile.type = "chain".toList then
    (xrayPorts.getD xrayPortIdx 0, xrayPorts.getD (xrayPortIdx + 1) 0, xrayPortIdx + 2)
  else (singToXrayPort, -1, xrayPortIdx)

/-- A chain of the shared box, numbered `number suffix`. -/
def testChain (options : TestBuildOptions) (number : ℕ → ℕ) (xrayPorts : List ℤ) (st : TestLoop)
    (item : Tested) (IDs : List ℤ) : Outcome × TestLoop :=
  let (singToXrayPort, xrayToSingPort, xrayPortIdx) :=
    testPorts xrayPorts item.profile st.xrayPortIdx
  let req : ChainBuildRequest :=
    { hopIDs := IDs
      tagPrefix := Tests.hopTag options.chainPrefix (number st.suffix : ℤ)
      singToXrayPort
      xrayToSingPort }
  let ctx := env.buildOutboundChain req item.chance st.ctx
  if ctx.error ≠ [] then
    if options.validate = true then
      (.failed, { st with
        ctx := (ChainBuildMark.mark st.ctx).rollback ctx
        suffix := st.suffix + 1
        xrayPortIdx })
    else (.aborted ctx.error, { st with ctx, xrayPortIdx })
  else
    (.tested, { st.addTag ctx req.ingressTag item.profile.id with
      suffix := st.suffix + 1
      xrayPortIdx })

/-- One turn of the loop over the batch.  The code's own numbers are `id`. -/
def testItem (options : TestBuildOptions) (number : ℕ → ℕ) (xrayPorts : List ℤ) (st : TestLoop)
    (item : Tested) : Outcome × TestLoop :=
  match env.classifyTestCandidate item.profile with
  | .Skip => (.skipped, st)
  | .XrayFullConfig => env.testXrayFullConfig options st item
  | .Build =>
    if options.validate = true ∧ env.IsValid item.profile = false then (.failed, st)
    else if item.profile.type = "custom".toList ∧ item.profile.Custom.isNone = true then
      (.aborted "Corrupted data in build test config".toList, st)
    else if item.profile.isCustomFullConfig = true then
      (.tested, st.addFullConfig item.profile.id
        (insert ((item.profile.Custom.map Custom.config).getD []) "inbounds" (.arr [])))
    else
      match env.testHops options item.profile with
      | none => (.aborted "Null group on profile, data is corrupted".toList, st)
      | some IDs => env.testChain options number xrayPorts st item IDs

def testItems (options : TestBuildOptions) (number : ℕ → ℕ) (xrayPorts : List ℤ) :
    TestLoop → List Tested → TestLoop
  | st, [] => st
  | st, item :: items =>
    match env.testItem options number xrayPorts st item with
    | (.aborted error, st) => { st with res := { st.res with error } }
    | (.skipped, st) | (.failed, st) | (.tested, st) =>
      testItems options number xrayPorts st items

/-- The one Xray instance of the shared box: an inbound and a rule for every ingress tag. -/
def buildXrayConfig (ctx : BuildContext) : BuildContext :=
  if ctx.xrayOutbounds.isEmpty = true then ctx
  else if ctx.xrayIngressTags.length ≠ ctx.singToXrayBridges.length then
    { ctx with
      isXrayNeeded := true
      error := "xray ingress tags size does not match bridge count!".toList }
  else
    let ingress := ctx.xrayIngressTags.zip ctx.singToXrayBridges
    let inboundTag (outboundTag : Text) : Text := outboundTag ++ "-inbound".toList
    let config := insert ctx.xrayConfig "log" (.obj
      [("loglevel", .str env.xray_log_level),
        ("access", .str (if env.xray_log_level = "info".toList then [] else "none".toList))])
    let config := insert config "inbounds" (.arr (ingress.map fun entry =>
      .obj (xraySocksInbound (inboundTag entry.1) entry.2)))
    let config := insert config "outbounds" (.arr (ctx.xrayOutbounds.map Json.obj))
    let config := insert config "routing" (.obj
      [("domainStrategy", .str "AsIs".toList),
        ("rules", .arr (ctx.xrayIngressTags.map fun outboundTag => .obj
          [("type", .str "field".toList),
            ("inboundTag", .arr [.str (inboundTag outboundTag)]),
            ("outboundTag", .str outboundTag)]))])
    { ctx with isXrayNeeded := true, xrayConfig := config }

def finishTest (st : TestLoop) : TestLoop :=
  let ctx := env.buildXrayConfig st.ctx
  if ctx.error ≠ [] then { st with ctx, res := { st.res with error := ctx.error } }
  else
    let outbounds := ctx.outbounds ++
      [[("type", .str tagDirect), ("tag", .str tagDirect)]]
    let route := insertIf (env.spmode_vpn = true)
      [("default_domain_resolver", .obj env.directDomainResolver)] "auto_detect_interface"
      (.bool true)
    let coreConfig := { ctx.coreConfig with
      outbounds
      endpoints := ctx.endpoints
      route
      inbounds := ctx.xrayToSingBridges.map fun bridge =>
        socksBridgeInbound ("bridge-".toList ++ Tests.Int2String bridge.port) bridge }
    { st with
      ctx := { ctx with outbounds, coreConfig }
      res := { st.res with
        coreConfig := some coreConfig
        xrayConfig := ctx.xrayConfig
        isXrayNeeded := ctx.isXrayNeeded
        xrayDnsStrategy :=
          if (ctx.isXrayNeeded || !st.res.xrayFullConfigs.isEmpty) = true then
            env.xrayOutboundDomainStrategy
          else [] } }

def startTest (items : List Tested) : TestLoop :=
  { ctx :=
      { coreConfig :=
          { dns := env.testDnsSection (env.echResolversOf (items.map Tested.profile))
            sections := env.sections } } }

/-- The ports that are probed for a batch: all chains are taken to change the core twice. -/
def xrayPortCount (items : List Tested) : ℕ :=
  items.countP (fun item => item.profile.IsXray) +
    2 * items.countP fun item => decide (item.profile.type = "chain".toList)

def buildTestConfigImpl (options : TestBuildOptions) (number : ℕ → ℕ) (xrayPorts : List ℤ)
    (items : List Tested) : TestLoop :=
  let st := env.testItems options number xrayPorts (env.startTest items) items
  if st.res.error ≠ [] then st else env.finishTest st

/-- A validated batch, with the ports that were probed for it. -/
def BuildTestConfig (xrayPorts : List ℤ) (items : List Tested) : TestLoop :=
  env.buildTestConfigImpl {} id xrayPorts items

end Program

end Throned.Configs.TestBuild
