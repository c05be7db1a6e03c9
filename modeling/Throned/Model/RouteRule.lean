import Throned.Library.Json
import Throned.Model.DnsSection

/-!
# Route rules

A rule of a routing profile and how it is rendered for the core, for the view and for sharing
(src/database/entities/RouteRule.cpp:17-43, 92-205, 660-678 and
src/database/entities/RouteProfile.cpp:185-191, 913-951, 1005-1057).

`get_rule_json` is not const: each function that renders gives the rule it leaves behind beside
its answer.  The profiles' names and the names of rule sets behind URLs are those of the other
stores.  What only the editor shows (its tabs) and the log lines are left out.
-/

set_option autoImplicit false

namespace Throned.Routes

open Throned.Library
open Throned.Configs (proxyID directID actionRoute)

/-! ## Rules -/

inductive RuleType where
  | custom
  | simpleAddressProxy
  | simpleAddressBypass
  | simpleAddressBlock
  | simpleProcessNameProxy
  | simpleProcessNameBypass
  | simpleProcessNameBlock
  | simpleProcessPathProxy
  | simpleProcessPathBypass
  | simpleProcessPathBlock
  | simpleAddressWarpBypass
  | simpleProcessNameWarpBypass
  | simpleProcessPathWarpBypass
  | simpleAddressViaProfile
  | simpleProcessNameViaProfile
  | simpleProcessPathViaProfile
  | endpointPreferredBy
  deriving DecidableEq, Repr

def blockID : ℤ := -3

/-- Reserved for the DNS hijack. -/
def dnsOutID : ℤ := -4

def warpBypassID : ℤ := -5

def actionRouteOptions : Text := actionRoute ++ ['-', 'o', 'p', 't', 'i', 'o', 'n', 's']

def actionBypass : Text := ['b', 'y', 'p', 'a', 's', 's']

def actionReject : Text := ['r', 'e', 'j', 'e', 'c', 't']

def actionHijackDns : Text := ['h', 'i', 'j', 'a', 'c', 'k', '-', 'd', 'n', 's']

def actionSniff : Text := ['s', 'n', 'i', 'f', 'f']

def actionResolve : Text := ['r', 'e', 's', 'o', 'l', 'v', 'e']

structure RouteRule where
  name : Text := []
  type : RuleType := .custom
  disabled : Bool := false
  ip_version : Text := []
  network : Text := []
  protocol : Text := []
  inbound : List Text := []
  domain : List Text := []
  domain_suffix : List Text := []
  domain_keyword : List Text := []
  domain_regex : List Text := []
  source_ip_cidr : List Text := []
  source_ip_is_private : Bool := false
  ip_cidr : List Text := []
  ip_is_private : Bool := false
  source_port : List Text := []
  source_port_range : List Text := []
  port : List Text := []
  port_range : List Text := []
  process_name : List Text := []
  process_path : List Text := []
  process_path_regex : List Text := []
  package_name : List Text := []
  wifi_ssid : List Text := []
  wifi_bssid : List Text := []
  rule_set : List Text := []
  invert : Bool := false
  outboundID : ℤ := directID
  action : Text := actionRoute
  rejectMethod : Text := []
  no_drop : Bool := false
  override_address : Text := []
  override_port : Text := []
  tls_fragment : Bool := false
  tls_fragment_fallback_delay : Text := []
  tls_record_fragment : Bool := false
  tls_spoof : Text := []
  tls_spoof_method : Text := []
  sniffers : List Text := []
  sniffOverrideDest : Bool := false
  strategy : Text := []
  deriving DecidableEq, Repr

/-- What rendering reads of the other stores. -/
structure Stores where
  /-- `GetProfile` with the display name of the profile's outbound. -/
  displayName : ℤ → Option Text
  get_rule_set_name : Text → Text

/-! ## Texts -/

/-- `QString::toInt`: 0 where the text is no number of 32 bits. -/
def toInt (text : Text) : ℤ :=
  let text := trimSpace text
  let value : Option ℤ :=
    match text with
    | '-' :: digits => (parseDecimal digits).map fun n => -(n : ℤ)
    | '+' :: digits => (parseDecimal digits).map fun n => (n : ℤ)
    | digits => (parseDecimal digits).map fun n => (n : ℤ)
  match value with
  | some n => if -2 ^ 31 ≤ n ∧ n < 2 ^ 31 then n else 0
  | none => 0

/-- `toLower`, as far as the methods of the core go. -/
def toLower (text : Text) : Text := text.map Char.toLower

def rejectMethods : List Text :=
  [['d', 'e', 'f', 'a', 'u', 'l', 't'], ['d', 'r', 'o', 'p'], ['r', 'e', 'p', 'l', 'y']]

/-- The items that are not blank, trimmed. -/
def items (str : List Text) : List Text := (str.map trimSpace).filter (· ≠ [])

def get_as_array (str : List Text) : Json := .arr ((items str).map .str)

def get_as_numbers (str : List Text) : Json := .arr ((items str).map fun item => .num (toInt item))

def isValidStrArray (arr : List Text) : Bool := arr.any fun item => trimSpace item ≠ []

/-! ## Rendering -/

def effective_action (rule : RouteRule) : Text :=
  if rule.action = actionRoute then
    if rule.outboundID = blockID then actionReject
    else if rule.outboundID = dnsOutID then actionHijackDns
    else rule.action
  else rule.action

open JsonObject

def textMember (key : String) (value : Text) : JsonObject :=
  member (trimSpace value ≠ []) key (.str (trimSpace value))

def listMember (key : String) (value : List Text) : JsonObject :=
  member (isValidStrArray value) key (get_as_array value)

def numbersMember (key : String) (value : List Text) : JsonObject :=
  member (isValidStrArray value) key (get_as_numbers value)

def flagMember (key : String) (value : Bool) : JsonObject := member value key (.bool true)

/-- The conditions of a rule. -/
def conditions (stores : Stores) (forView : Bool) (rule : RouteRule) : JsonObject :=
  member (trimSpace rule.ip_version ≠ []) "ip_version" (.num (toInt rule.ip_version)) ++
  textMember "network" rule.network ++
  textMember "protocol" rule.protocol ++
  listMember "inbound" rule.inbound ++
  listMember "domain" rule.domain ++
  listMember "domain_suffix" rule.domain_suffix ++
  listMember "domain_keyword" rule.domain_keyword ++
  listMember "domain_regex" rule.domain_regex ++
  listMember "source_ip_cidr" rule.source_ip_cidr ++
  flagMember "source_ip_is_private" rule.source_ip_is_private ++
  listMember "ip_cidr" rule.ip_cidr ++
  flagMember "ip_is_private" rule.ip_is_private ++
  numbersMember "source_port" rule.source_port ++
  listMember "source_port_range" rule.source_port_range ++
  numbersMember "port" rule.port ++
  listMember "port_range" rule.port_range ++
  listMember "process_name" rule.process_name ++
  listMember "process_path" rule.process_path ++
  listMember "process_path_regex" rule.process_path_regex ++
  listMember "package_name" rule.package_name ++
  listMember "wifi_ssid" rule.wifi_ssid ++
  listMember "wifi_bssid" rule.wifi_bssid ++
  member (isValidStrArray rule.rule_set) "rule_set"
    (if forView then get_as_array rule.rule_set
      else .arr ((items rule.rule_set).map fun item => .str (stores.get_rule_set_name item))) ++
  flagMember "invert" rule.invert

/-- The members of a reject: the core fails on an unknown method and on `no_drop` beside `drop`. -/
def rejectMembers (rule : RouteRule) : JsonObject :=
  let method := toLower (trimSpace rule.rejectMethod)
  member (method ∈ rejectMethods) "method" (.str method) ++
    member (rule.no_drop ∧ method ≠ ['d', 'r', 'o', 'p']) "no_drop" (.bool true)

/-- The options of a route; `route-options` alone refuses both fragment kinds at once. -/
def routeMembers (rule : RouteRule) : JsonObject :=
  textMember "override_address" rule.override_address ++
  member (0 < toInt rule.override_port) "override_port" (.num (toInt rule.override_port)) ++
  flagMember "tls_fragment" rule.tls_fragment ++
  member (rule.tls_fragment ∧ trimSpace rule.tls_fragment_fallback_delay ≠ [])
    "tls_fragment_fallback_delay" (.str (trimSpace rule.tls_fragment_fallback_delay)) ++
  member (rule.tls_record_fragment ∧ ¬ (rule.tls_fragment ∧ rule.action = actionRouteOptions))
    "tls_record_fragment" (.bool true) ++
  textMember "tls_spoof" rule.tls_spoof ++
  member (trimSpace rule.tls_spoof ≠ [] ∧ trimSpace rule.tls_spoof_method ≠ [])
    "tls_spoof_method" (.str (trimSpace rule.tls_spoof_method))

/-- The outbound as the view shows it; `none` where its profile is missing. -/
def viewOutbound (stores : Stores) (outboundID : ℤ) : Option Text :=
  if outboundID = proxyID then some "proxy".toList
  else if outboundID = directID then some "direct".toList
  else if outboundID = warpBypassID then some "warp-bypass".toList
  else stores.displayName outboundID

def outboundMember (stores : Stores) (forView : Bool) (outboundTag : Text) (outboundID : ℤ) :
    Option JsonObject :=
  if forView then (viewOutbound stores outboundID).map fun tag => [("outbound", .str tag)]
  else if outboundTag ≠ [] then some [("outbound", .str outboundTag)]
  else some [("outbound", .num outboundID)]

/-- The rule behind the write to `action`, and what is rendered of it. -/
def renderRest (stores : Stores) (forView : Bool) (outboundTag : Text) (rule : RouteRule) :
    JsonObject :=
  let obj := conditions stores forView rule ++ [("action", .str rule.action)]
  let rejects := if rule.action = actionReject then rejectMembers rule else []
  let last :=
    (if rule.action = actionSniff then
        member rule.sniffOverrideDest "override_destination" (.bool true) else []) ++
      (if rule.action = actionResolve then textMember "strategy" rule.strategy else [])
  if rule.action = actionRoute ∨ rule.action = actionBypass then
    match outboundMember stores forView outboundTag rule.outboundID with
    | none => []
    | some outbound => obj ++ rejects ++ routeMembers rule ++ outbound ++ last
  else if rule.action = actionRouteOptions then obj ++ rejects ++ routeMembers rule ++ last
  else obj ++ rejects ++ last

/-- The placeholder of an endpoint: its gate comes from the tag. -/
def endpointJson (stores : Stores) (forView : Bool) (outboundTag : Text) (rule : RouteRule) :
    JsonObject :=
  let tag := if forView then (stores.displayName rule.outboundID).getD [] else outboundTag
  if tag = [] then []
  else
    [("preferred_by", .arr [.str tag]), ("action", .str actionRoute), ("outbound", .str tag)]

/-- The rendered rule, and the rule that is left: `action` is overwritten. -/
def get_rule_json (stores : Stores) (forView : Bool) (outboundTag : Text) (rule : RouteRule) :
    JsonObject × RouteRule :=
  if rule.type = .endpointPreferredBy then (endpointJson stores forView outboundTag rule, rule)
  else
    let rule := { rule with action := effective_action rule }
    (renderRest stores forView outboundTag rule, rule)

def ruleTypeToToken : RuleType → Text
  | .simpleAddressProxy => "simple_address_proxy".toList
  | .simpleAddressBypass => "simple_address_bypass".toList
  | .simpleAddressBlock => "simple_address_block".toList
  | .simpleProcessNameProxy => "simple_process_name_proxy".toList
  | .simpleProcessNameBypass => "simple_process_name_bypass".toList
  | .simpleProcessNameBlock => "simple_process_name_block".toList
  | .simpleProcessPathProxy => "simple_process_path_proxy".toList
  | .simpleProcessPathBypass => "simple_process_path_bypass".toList
  | .simpleProcessPathBlock => "simple_process_path_block".toList
  | .simpleAddressWarpBypass => "simple_address_warp_bypass".toList
  | .simpleProcessNameWarpBypass => "simple_process_name_warp_bypass".toList
  | .simpleProcessPathWarpBypass => "simple_process_path_warp_bypass".toList
  | .simpleAddressViaProfile => "simple_address_via_profile".toList
  | .simpleProcessNameViaProfile => "simple_process_name_via_profile".toList
  | .simpleProcessPathViaProfile => "simple_process_path_via_profile".toList
  | .endpointPreferredBy => "endpoint_preferred_by".toList
  | .custom => "custom".toList

/-- `to_share_json` with the rule that is left. -/
def to_share_json (stores : Stores) (rule : RouteRule) : JsonObject × RouteRule :=
  if rule.type = .endpointPreferredBy then
    ([("name", .str rule.name), ("type", .str (ruleTypeToToken rule.type)),
      ("outbound", .num rule.outboundID)], rule)
  else
    let (obj, rule) := get_rule_json stores true [] rule
    if obj = [] then (obj, rule)
    else
      (obj ++ [("name", .str rule.name), ("type", .str (ruleTypeToToken rule.type))] ++
        flagMember "disabled" rule.disabled, rule)

def isSimpleAddress : RuleType → Bool
  | .simpleAddressProxy | .simpleAddressBypass | .simpleAddressBlock | .simpleAddressWarpBypass
  | .simpleAddressViaProfile => true
  | _ => false

/-- `isEmpty` with the rule that is left. -/
def isEmpty (stores : Stores) (rule : RouteRule) : Bool × RouteRule :=
  if rule.type ≠ .custom then
    if rule.type = .endpointPreferredBy then (false, rule)
    else if isSimpleAddress rule.type then
      (rule.domain = [] && rule.domain_suffix = [] && rule.domain_keyword = [] &&
        rule.domain_regex = [] && rule.rule_set = [] && rule.ip_cidr = [], rule)
    else (rule.process_name = [] && rule.process_path = [], rule)
  else
    let (ruleJson, rule) := get_rule_json stores false [] rule
    let empty :=
      if rule.action ∈ [actionRoute, actionRouteOptions, actionHijackDns] then
        decide (ruleJson.length ≤ 1)
      else if rule.action ∈ [actionSniff, actionResolve, actionReject, actionBypass] then
        decide (ruleJson.length < 1)
      else false
    (empty, rule)

/-! ## A profile's rules -/

def localProxyRuleName : Text := "throned-local-proxy-traffic".toList

def IsLocalProxyTrafficRule (rule : RouteRule) : Bool :=
  rule.name = localProxyRuleName && rule.action = actionRoute && rule.outboundID = proxyID &&
    (rule.inbound = ["mixed-in".toList, "socks-in".toList] ||
      rule.inbound = ["socks-in".toList, "mixed-in".toList])

/-- What decides about a render of a profile. -/
structure RenderEnv where
  forView : Bool
  applyProfileRules : Bool
  adblock_enable : Bool
  outboundMap : List (ℤ × Text)

def createAdblockRule : JsonObject :=
  [("action", .str actionReject), ("rule_set", .arr [.str "throne-adblocksingbox".toList])]

def isRouteJson (object : JsonObject) : Bool :=
  object.any fun m => m.1 = "action" && (match m.2 with | .str t => t = actionRoute | _ => false)

/-- The loop of `get_route_rules` after the rules `res`; `none` where it gives up. -/
def renderRules (stores : Stores) (env : RenderEnv) :
    Bool → List JsonObject → List RouteRule → Option (Bool × List JsonObject) × List RouteRule
  | added, res, [] => (some (added, res), [])
  | added, res, item :: later =>
    -- `isEmpty` renders no rule of a simple type
    if item.disabled ∨ (item.type ≠ .custom ∧ (isEmpty stores item).1) then
      let (answer, later) := renderRules stores env added res later
      (answer, item :: later)
    else if !env.forView ∧ !env.applyProfileRules ∧ !IsLocalProxyTrafficRule item then
      let (answer, later) := renderRules stores env added res later
      (answer, item :: later)
    else
      let outboundTag := (env.outboundMap.lookup item.outboundID).getD []
      if !env.forView ∧ item.type = .endpointPreferredBy ∧ outboundTag = [] then
        let (answer, later) := renderRules stores env added res later
        (answer, item :: later)
      else
        let (rule_json, item) := get_rule_json stores env.forView outboundTag item
        if rule_json = [] then (none, item :: later)
        else
          let adblock := !added ∧ env.adblock_enable ∧ isRouteJson rule_json
          let res := if adblock then res ++ [createAdblockRule] else res
          let (answer, later) := renderRules stores env (added ∨ adblock) (res ++ [rule_json]) later
          (answer, item :: later)

def get_route_rules (stores : Stores) (env : RenderEnv) (rules : List RouteRule) :
    List JsonObject × List RouteRule :=
  match renderRules stores env false [] rules with
  | (none, rules) => ([], rules)
  | (some (added, res), rules) =>
    (if !added ∧ env.adblock_enable then res ++ [createAdblockRule] else res, rules)

def get_used_outbounds (rules : List RouteRule) : List ℤ :=
  (rules.filter fun item =>
      !item.disabled ∧ item.type ≠ .endpointPreferredBy ∧
        (effective_action item = actionRoute ∨ effective_action item = actionBypass)).map
    RouteRule.outboundID

/-- The rule as the DNS section reads it. -/
def RouteRule.forDns (rule : RouteRule) : Configs.RouteRule where
  disabled := rule.disabled
  ip_version := rule.ip_version
  network := rule.network
  protocol := rule.protocol
  inbound := rule.inbound
  domain := rule.domain
  domain_suffix := rule.domain_suffix
  domain_keyword := rule.domain_keyword
  domain_regex := rule.domain_regex
  source_ip_cidr := rule.source_ip_cidr
  source_ip_is_private := rule.source_ip_is_private
  ip_cidr := rule.ip_cidr
  ip_is_private := rule.ip_is_private
  source_port := rule.source_port
  source_port_range := rule.source_port_range
  port := rule.port
  port_range := rule.port_range
  process_name := rule.process_name
  process_path := rule.process_path
  process_path_regex := rule.process_path_regex
  wifi_ssid := rule.wifi_ssid
  wifi_bssid := rule.wifi_bssid
  rule_set := rule.rule_set
  invert := rule.invert
  outboundID := rule.outboundID
  action := rule.action

def get_sites (rules : List RouteRule) (outbound : ℤ) : List Text :=
  Configs.get_sites (rules.map RouteRule.forDns) outbound

end Throned.Routes
