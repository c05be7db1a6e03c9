import Throned.Library.FirstMatch
import Throned.Library.Text

/-!
# The DNS rules of a generated config

What a routing profile asks of DNS (src/database/entities/RouteProfile.cpp:1034-1082 and
src/configs/generate.cpp:114-135, 924-949), the tunnels that the hops of a start announce
(src/configs/generate.cpp:1715-1742), and the rules that `buildDNSSection` puts together from
them (src/configs/generate.cpp:444-487, 1158-1416).

The servers and the switches beside the rules are left out, those of the tunnels excepted.
Parsed predefined answers are an input.
-/

set_option autoImplicit false

namespace Throned.Configs

open Throned.Library

/-! ## Tags -/

def tagProxy : Text := "proxy".toList

def tagDirect : Text := "direct".toList

def warpBypass : Text := "warp-bypass".toList

def dnsRemote : Text := ['d', 'n', 's', '-', 'r', 'e', 'm', 'o', 't', 'e']

def dnsDirect : Text := ['d', 'n', 's', '-', 'd', 'i', 'r', 'e', 'c', 't']

def dnsFake : Text := ['d', 'n', 's', '-', 'f', 'a', 'k', 'e']

def dnsTailscale : Text := ['d', 'n', 's', '-', 't', 'a', 'i', 'l', 's', 'c', 'a', 'l', 'e']

def dnsHosts : Text := ['d', 'n', 's', '-', 'h', 'o', 's', 't', 's']

def dnsVpnPrefix : Text := ['d', 'n', 's', '-', 'v', 'p', 'n']

def dnsEchPrefix : Text := ['d', 'n', 's', '-', 'e', 'c', 'h']

def hopTag (tagPrefix : Text) (index : ℕ) : Text := tagPrefix ++ '-' :: decimal index

def chainDnsTag (outboundTag : Text) : Text := dnsRemote ++ '-' :: outboundTag

def vpnDnsTag (endpointTag : Text) : Text := dnsVpnPrefix ++ '-' :: endpointTag

/-! ## What the routing profile asks for -/

structure RouteRule where
  disabled : Bool
  ip_version : Text
  network : Text
  protocol : Text
  inbound : List Text
  domain : List Text
  domain_suffix : List Text
  domain_keyword : List Text
  domain_regex : List Text
  source_ip_cidr : List Text
  source_ip_is_private : Bool
  ip_cidr : List Text
  ip_is_private : Bool
  source_port : List Text
  source_port_range : List Text
  port : List Text
  port_range : List Text
  process_name : List Text
  process_path : List Text
  process_path_regex : List Text
  wifi_ssid : List Text
  wifi_bssid : List Text
  rule_set : List Text
  invert : Bool
  outboundID : ℤ
  action : Text
  deriving DecidableEq, Repr

def proxyID : ℤ := -1

def directID : ℤ := -2

def actionRoute : Text := ['r', 'o', 'u', 't', 'e']

structure DomainSelectors where
  ruleSets : List Text
  domains : List Text
  suffixes : List Text
  keywords : List Text
  regexes : List Text
  deriving DecidableEq, Repr

def DomainSelectors.empty : DomainSelectors := ⟨[], [], [], [], []⟩

def DomainSelectors.hasInlineConditions (selectors : DomainSelectors) : Bool :=
  selectors.domains ≠ [] || selectors.suffixes ≠ [] || selectors.keywords ≠ [] ||
    selectors.regexes ≠ []

structure ProcessSelectors where
  names : List Text
  paths : List Text
  pathRegexes : List Text
  deriving DecidableEq, Repr

def ProcessSelectors.empty : ProcessSelectors := ⟨[], [], []⟩

def ProcessSelectors.isEmpty (selectors : ProcessSelectors) : Bool :=
  selectors.names = [] && selectors.paths = [] && selectors.pathRegexes = []

def selRuleset : Text := "ruleset:".toList

def selDomain : Text := "domain:".toList

def selSuffix : Text := "suffix:".toList

def selKeyword : Text := "keyword:".toList

def selRegex : Text := "regex:".toList

/-- The value behind a selector's prefix. -/
def selectorValue (item selector : Text) : Option Text :=
  if selector.isPrefixOf item then
    let value := trimSpace (item.drop selector.length)
    if value = [] then none else some value
  else none

/-- The sink of `parseSelectorList` without `ip:`. -/
def parseSelectorList (items : List Text) : DomainSelectors :=
  let values (selector : Text) := items.filterMap fun item => selectorValue (trimSpace item) selector
  { ruleSets := values selRuleset
    domains := values selDomain
    suffixes := values selSuffix
    keywords := values selKeyword
    regexes := values selRegex }

def get_sites (rules : List RouteRule) (outbound : ℤ) : List Text :=
  (rules.filter fun item =>
      !item.disabled && item.outboundID = outbound && item.action = actionRoute).flatMap
    fun item =>
      (item.rule_set.filter ("geosite-".toList.isPrefixOf ·)).map (selRuleset ++ ·) ++
        item.domain.map (selDomain ++ ·) ++ item.domain_suffix.map (selSuffix ++ ·) ++
        item.domain_keyword.map (selKeyword ++ ·) ++ item.domain_regex.map (selRegex ++ ·)

/-- A rule whose only conditions are processes. -/
def onlyProcess (item : RouteRule) : Bool :=
  item.ip_version = [] && item.network = [] && item.protocol = [] && item.inbound = [] &&
    item.domain = [] && item.domain_suffix = [] && item.domain_keyword = [] &&
    item.domain_regex = [] && item.source_ip_cidr = [] && item.ip_cidr = [] &&
    item.source_port = [] && item.source_port_range = [] && item.port = [] &&
    item.port_range = [] && item.wifi_ssid = [] && item.wifi_bssid = [] && item.rule_set = [] &&
    !item.source_ip_is_private && !item.ip_is_private && !item.invert

def get_process_selectors (rules : List RouteRule) (outbound : ℤ) : ProcessSelectors :=
  let taken := rules.filter fun item =>
    !item.disabled && item.action = actionRoute && item.outboundID = outbound && onlyProcess item
  { names := (taken.flatMap RouteRule.process_name).eraseDups
    paths := (taken.flatMap RouteRule.process_path).eraseDups
    pathRegexes := (taken.flatMap RouteRule.process_path_regex).eraseDups }

structure ChainDNS where
  outboundTag : Text
  sites : DomainSelectors
  process : ProcessSelectors
  deriving DecidableEq, Repr

structure DNSDeps where
  needDirectDnsRules : Bool
  direct : DomainSelectors
  needProxyDnsRules : Bool
  proxy : DomainSelectors
  directProcess : ProcessSelectors
  proxyProcess : ProcessSelectors
  chains : List ChainDNS
  deriving DecidableEq, Repr

def DNSDeps.none : DNSDeps := ⟨false, .empty, false, .empty, .empty, .empty, []⟩

def chainDns (rules : List RouteRule) (out : ℤ × Text) : Option ChainDNS :=
  if out.1 < 0 then none
  else
    let chain : ChainDNS :=
      ⟨out.2, parseSelectorList (get_sites rules out.1), get_process_selectors rules out.1⟩
    if chain.process.isEmpty && chain.sites.ruleSets = [] && !chain.sites.hasInlineConditions then
      none
    else some chain

/-- The part of `calculatePrerequisites` that is about DNS. -/
def dnsDeps (enable_dns_routing : Bool) (rules : List RouteRule)
    (outboundMap : List (ℤ × Text)) : DNSDeps :=
  if enable_dns_routing then
    { needDirectDnsRules := get_sites rules directID ≠ []
      direct := parseSelectorList (get_sites rules directID)
      needProxyDnsRules := get_sites rules proxyID ≠ []
      proxy := parseSelectorList (get_sites rules proxyID)
      directProcess := get_process_selectors rules directID
      proxyProcess := get_process_selectors rules proxyID
      chains := outboundMap.filterMap (chainDns rules) }
  else .none

/-! ## The tunnels of a start -/

inductive TunnelType where
  | openvpn
  | openconnect
  deriving DecidableEq, Repr

def kTunnelDnsNone : Text := ['n', 'o', 'n', 'e']

def kTunnelDnsStrict : Text := ['s', 't', 'r', 'i', 'c', 't']

/-- The tunnel of a hop. -/
structure Tunnel where
  type : TunnelType
  tunnel_dns : Text
  deriving DecidableEq, Repr

structure hopChainOptions where
  tagPrefix : Text
  includeProxy : Bool
  startSuffix : ℕ
  warpWrap : Bool
  addressableTags : List Text
  deriving DecidableEq, Repr

/-- What the hops tell `buildDNSSection`; the map is ordered by its keys. -/
structure VpnTags where
  vpnEndpointTags : List (Text × TunnelType)
  vpnStrictTag : Text
  deriving DecidableEq, Repr

def VpnTags.empty : VpnTags := ⟨[], []⟩

/-- `QMap::insert`. -/
def mapInsert (key : Text) (value : TunnelType) : List (Text × TunnelType) → List (Text × TunnelType)
  | [] => [(key, value)]
  | (k, v) :: rest =>
    if key = k then (key, value) :: rest
    else if key < k then (key, value) :: (k, v) :: rest
    else (k, v) :: mapInsert key value rest

def chainTag (opts : hopChainOptions) (idx : ℕ) : Text :=
  if opts.warpWrap && idx = 1 then warpBypass
  else if opts.includeProxy && idx = 0 then tagProxy
  else hopTag opts.tagPrefix (opts.startSuffix + idx)

/-- One hop of `buildSingboxChain`. -/
def addHop (opts : hopChainOptions) (tags : VpnTags) (idx : ℕ) (hop : Option Tunnel) : VpnTags :=
  let tag := chainTag opts idx
  let addressableHop := idx = 0 || (opts.warpWrap && idx = 1) || tag ∈ opts.addressableTags
  match hop with
  | none => tags
  | some tunnel =>
    if !addressableHop then tags
    else
      { vpnEndpointTags :=
          if tunnel.tunnel_dns ≠ kTunnelDnsNone then
            mapInsert tag tunnel.type tags.vpnEndpointTags
          else tags.vpnEndpointTags
        vpnStrictTag :=
          if tunnel.tunnel_dns = kTunnelDnsStrict ∧ (tag = tagProxy ∨ tag = warpBypass) then tag
          else tags.vpnStrictTag }

def addHops (opts : hopChainOptions) : VpnTags → ℕ → List (Option Tunnel) → VpnTags
  | tags, _, [] => tags
  | tags, idx, hop :: hops => addHops opts (addHop opts tags idx hop) (idx + 1) hops

/-- The chains of a start, one `buildSingboxChain` each. -/
def tunnelTags (chains : List (hopChainOptions × List (Option Tunnel))) : VpnTags :=
  chains.foldl (fun tags chain => addHops chain.1 tags 0 chain.2) .empty

/-! ## The rules -/

inductive Value where
  | text (t : Text)
  | texts (ts : List Text)
  deriving DecidableEq, Repr

abbrev Conditions := List (String × Value)

inductive DnsAction where
  | route (server : Text) (disable_cache : Bool)
  | predefined (rcode : Option Text) (answers : List Text)
  deriving DecidableEq, Repr

abbrev DnsRule := Rule Conditions DnsAction

def DnsAction.server : DnsAction → Option Text
  | route server _ => some server
  | predefined _ _ => none

def routeTo (conditions : Conditions) (server : Text) : DnsRule := ⟨conditions, .route server false⟩

/-- The guard answers empty instead of falling through, which would hand the query to another
server. -/
def appendDnsRoute (conditions : Conditions) (server : Text) (disableIPv6 : Bool) : List DnsRule :=
  (if disableIPv6 then
      [⟨conditions ++ [("query_type", .texts ["AAAA".toList])], .predefined none []⟩]
    else []) ++ [routeTo conditions server]

def appendDnsRoutingRules (selectors : DomainSelectors) (server : Text) (disableIPv6 : Bool) :
    List DnsRule :=
  (if selectors.ruleSets ≠ [] then
      appendDnsRoute [("rule_set", .texts selectors.ruleSets)] server disableIPv6
    else []) ++
  (if selectors.hasInlineConditions then
      appendDnsRoute
        [("domain", .texts selectors.domains), ("domain_suffix", .texts selectors.suffixes),
          ("domain_keyword", .texts selectors.keywords), ("domain_regex", .texts selectors.regexes)]
        server disableIPv6
    else [])

def appendProcessDnsRules (selectors : ProcessSelectors) (server : Text) (disableIPv6 : Bool) :
    List DnsRule :=
  [("process_name", selectors.names), ("process_path", selectors.paths),
      ("process_path_regex", selectors.pathRegexes)].flatMap
    fun field =>
      if field.2 = [] then []
      else appendDnsRoute [(field.1, .texts field.2)] server disableIPv6

structure RouteDns where
  remote_dns_disable_ipv6 : Bool
  direct_dns_disable_ipv6 : Bool
  dns_final_out : Text
  enable_dns_routing : Bool
  fake_dns : Bool
  deriving DecidableEq, Repr

structure PredefinedDNSEntry where
  domain : Text
  v4 : List Text
  v6 : List Text
  deriving DecidableEq, Repr

/-- What `buildDNSSection` reads for its rules. -/
structure DnsContext where
  forTest : Bool
  /-- The custom object is in force: `use_dns_object`, and the route has no DNS of its own. -/
  customObject : Bool
  dns : RouteDns
  /-- The routing profile, and the tags of the outbounds that its rules name. -/
  rules : List RouteRule
  outboundMap : List (ℤ × Text)
  chains : List (hopChainOptions × List (Option Tunnel))
  /-- The profile is a Tailscale one, and its Tailscale part is there. -/
  isTailscale : Bool
  tailscale : Bool
  predefined : List PredefinedDNSEntry
  dns_use_hosts : Bool
  extraCorePath : Text
  echQueryNames : List Text
  echResolvers : List (Text × Text)
  deriving DecidableEq, Repr

def tailscaleRules (ctx : DnsContext) : List DnsRule :=
  if !ctx.forTest && ctx.isTailscale then
    routeTo
        [("domain", .texts ["controlplane.tailscale.com".toList, "login.tailscale.com".toList,
            "log.tailscale.io".toList]),
          ("domain_suffix",
            .texts ["tailscale.com".toList, "tailscale.net".toList, "tailscale.io".toList])]
        dnsDirect ::
      (if ctx.tailscale then
        [routeTo [("domain_suffix", .texts ["ts.net".toList, "tailscale.net".toList])] dnsTailscale]
      else [])
  else []

/-- The lambda `emitFamily`. -/
def emitFamily (domain : Text) (addrs : List Text) (type : Text) : DnsRule :=
  ⟨[("domain", .text domain), ("query_type", .text type)],
    if addrs = [] then .predefined (some "NXDOMAIN".toList) []
    else
      .predefined (some "NOERROR".toList)
        (addrs.map fun addr => "*. IN ".toList ++ type ++ ' ' :: addr)⟩

def predefinedRules (ctx : DnsContext) : List DnsRule :=
  if ctx.forTest then []
  else
    ctx.predefined.flatMap fun entry =>
      [emitFamily entry.domain entry.v4 "A".toList, emitFamily entry.domain entry.v6 "AAAA".toList]

def hostsRules (ctx : DnsContext) : List DnsRule :=
  if !ctx.forTest && ctx.dns_use_hosts then
    [⟨[("preferred_by", .texts [dnsHosts]), ("query_type", .texts ["A".toList, "AAAA".toList])],
      .route dnsHosts true⟩]
  else []

def echQueryRules (ctx : DnsContext) : List DnsRule :=
  if !ctx.forTest && ctx.echQueryNames ≠ [] then
    [routeTo [("domain", .texts ctx.echQueryNames), ("query_type", .texts ["HTTPS".toList])]
      dnsDirect]
  else []

def tunnelRules (ctx : DnsContext) (tags : VpnTags) : List DnsRule :=
  if ctx.forTest then []
  else
    tags.vpnEndpointTags.map fun endpoint =>
      routeTo [("preferred_by", .texts [vpnDnsTag endpoint.1])] (vpnDnsTag endpoint.1)

/-- Strict tunnel DNS takes every query that would otherwise go to dns-remote. -/
def remoteDnsTag (ctx : DnsContext) (tags : VpnTags) : Text :=
  if ctx.forTest then dnsRemote
  else
    tags.vpnEndpointTags.foldl
      (fun remote endpoint =>
        if endpoint.1 = tags.vpnStrictTag then vpnDnsTag endpoint.1 else remote)
      dnsRemote

/-- The servers of the tunnels: tag, type, endpoint, and whether it takes all names. -/
def tunnelServers (ctx : DnsContext) (tags : VpnTags) : List (Text × TunnelType × Text × Bool) :=
  if ctx.forTest then []
  else
    tags.vpnEndpointTags.map fun endpoint =>
      (vpnDnsTag endpoint.1, endpoint.2, endpoint.1, endpoint.1 = tags.vpnStrictTag)

/-- Each is prepended to the head rules. -/
def echRules (ctx : DnsContext) : List DnsRule :=
  (ctx.echResolvers.mapIdx fun i resolver =>
    routeTo [("domain", .texts [resolver.1]), ("query_type", .texts ["HTTPS".toList])]
      (hopTag dnsEchPrefix i)).reverse

def useDirectFinalDNS (ctx : DnsContext) : Bool := ctx.forTest || ctx.dns.dns_final_out = tagDirect

def extraCoreRules (ctx : DnsContext) : List DnsRule :=
  if !ctx.forTest && ctx.extraCorePath ≠ [] then
    appendDnsRoute [("process_path", .texts [ctx.extraCorePath])] dnsDirect
      ctx.dns.direct_dns_disable_ipv6
  else []

def fakeRules (ctx : DnsContext) : List DnsRule :=
  if ctx.dns.fake_dns then
    [routeTo [("query_type", .texts ["A".toList, "AAAA".toList])] dnsFake]
  else []

def chainRules (ctx : DnsContext) (deps : DNSDeps) : List DnsRule :=
  if ctx.forTest then []
  else
    deps.chains.flatMap fun chain =>
      appendDnsRoutingRules chain.sites (chainDnsTag chain.outboundTag)
          ctx.dns.remote_dns_disable_ipv6 ++
        appendProcessDnsRules chain.process (chainDnsTag chain.outboundTag)
          ctx.dns.remote_dns_disable_ipv6

def directRules (ctx : DnsContext) (deps : DNSDeps) : List DnsRule :=
  (if deps.needDirectDnsRules then
      appendDnsRoutingRules deps.direct dnsDirect ctx.dns.direct_dns_disable_ipv6
    else []) ++
  (if deps.directProcess.isEmpty then []
    else
      appendProcessDnsRules deps.directProcess dnsDirect ctx.dns.direct_dns_disable_ipv6)

def proxySiteRules (ctx : DnsContext) (deps : DNSDeps) (remote : Text) : List DnsRule :=
  if !ctx.forTest && deps.needProxyDnsRules && useDirectFinalDNS ctx then
    appendDnsRoutingRules deps.proxy remote ctx.dns.remote_dns_disable_ipv6
  else []

/-- These name dns-remote itself. -/
def proxyProcessRules (ctx : DnsContext) (deps : DNSDeps) : List DnsRule :=
  if !ctx.forTest && useDirectFinalDNS ctx && !deps.proxyProcess.isEmpty then
    appendProcessDnsRules deps.proxyProcess dnsRemote ctx.dns.remote_dns_disable_ipv6
  else []

def finalRules (ctx : DnsContext) (remote : Text) : List DnsRule :=
  appendDnsRoute [] (if useDirectFinalDNS ctx then dnsDirect else remote)
    (if useDirectFinalDNS ctx then ctx.dns.direct_dns_disable_ipv6
      else ctx.dns.remote_dns_disable_ipv6)

/-- The rules of the section, for the tunnels that were announced. -/
def dnsRules (ctx : DnsContext) (tags : VpnTags) : List DnsRule :=
  let deps := dnsDeps ctx.dns.enable_dns_routing ctx.rules ctx.outboundMap
  let remote := remoteDnsTag ctx tags
  let headRules := echRules ctx ++ predefinedRules ctx ++ hostsRules ctx ++ echQueryRules ctx ++
    tunnelRules ctx tags
  headRules ++ tailscaleRules ctx ++ extraCoreRules ctx ++ fakeRules ctx ++ chainRules ctx deps ++
    directRules ctx deps ++ proxySiteRules ctx deps remote ++ proxyProcessRules ctx deps ++
    finalRules ctx remote

/-- `none` where the custom object stands in the place of the section. -/
def buildDNSSection (ctx : DnsContext) (tags : VpnTags) : Option (List DnsRule) :=
  if ctx.customObject then none else some (dnsRules ctx tags)

end Throned.Configs
