import Mathlib.Data.List.Infix
import Throned.Library.FirstOfEach
import Throned.Model.RouteRule

/-!
# Simple rules

The lines of the basic lists of a routing profile, held in one rule for each action and kind of
line: how they are read, written, added, looked up and removed, and which line of another list
covers a new one (src/database/entities/RouteProfile.cpp:133-183, 1132-1530,
src/database/entities/RouteRule.cpp:234-261, 346-406, 812-878 and
src/database/entities/RuleLine.cpp:60-66).

A profile is the list of its rules.  What a value must look like, and lower case, are those of
the other modules.
-/

set_option autoImplicit false

namespace Throned.Routes

open Throned.Library
open Throned.Configs (proxyID directID actionRoute)

/-! ## Attributes -/

inductive InputType where
  | trufalse
  | select
  | text
  deriving DecidableEq, Repr

inductive Attribute where
  | ip_version
  | network
  | protocol
  | inbound
  | domain
  | domain_suffix
  | domain_keyword
  | domain_regex
  | source_ip_cidr
  | source_ip_is_private
  | ip_cidr
  | ip_is_private
  | source_port
  | source_port_range
  | port
  | port_range
  | process_name
  | process_path
  | process_path_regex
  | package_name
  | wifi_ssid
  | wifi_bssid
  | rule_set
  | invert
  | action
  | outbound
  | override_address
  | override_port
  | tls_fragment
  | tls_fragment_fallback_delay
  | tls_record_fragment
  | tls_spoof
  | tls_spoof_method
  | method
  | no_drop
  | override_destination
  | strategy
  deriving DecidableEq, Repr

/-- macOS does not tell the wireless network. -/
def get_attributes (darwin : Bool) : List Attribute :=
  [.ip_version, .network, .protocol, .inbound, .domain, .domain_suffix, .domain_keyword,
    .domain_regex, .source_ip_cidr, .source_ip_is_private, .ip_cidr, .ip_is_private, .source_port,
    .source_port_range, .port, .port_range, .process_name, .process_path, .process_path_regex,
    .package_name] ++ (if darwin then [] else [.wifi_ssid, .wifi_bssid]) ++
  [.rule_set, .invert, .action, .outbound, .override_address, .override_port, .tls_fragment,
    .tls_fragment_fallback_delay, .tls_record_fragment, .tls_spoof, .tls_spoof_method, .method,
    .no_drop, .override_destination, .strategy]

def get_input_type : Attribute → InputType
  | .invert | .source_ip_is_private | .ip_is_private | .no_drop | .tls_fragment
  | .tls_record_fragment | .override_destination => .trufalse
  | .ip_version | .network | .protocol | .action | .method | .strategy | .tls_spoof_method
  | .outbound => .select
  | _ => .text

def is_match_attribute : Attribute → Bool
  | .ip_version | .network | .protocol | .inbound | .domain | .domain_suffix | .domain_keyword
  | .domain_regex | .source_ip_cidr | .source_ip_is_private | .ip_cidr | .ip_is_private
  | .source_port | .source_port_range | .port | .port_range | .process_name | .process_path
  | .process_path_regex | .package_name | .wifi_ssid | .wifi_bssid | .rule_set | .invert => true
  | _ => false

def get_current_value_string (rule : RouteRule) : Attribute → List Text
  | .ip_version => [rule.ip_version]
  | .network => [rule.network]
  | .protocol => [rule.protocol]
  | .action => [rule.action]
  | .method => [rule.rejectMethod]
  | .strategy => [rule.strategy]
  | .override_address => [rule.override_address]
  | .override_port => [rule.override_port]
  | .tls_fragment_fallback_delay => [rule.tls_fragment_fallback_delay]
  | .tls_spoof => [rule.tls_spoof]
  | .tls_spoof_method => [rule.tls_spoof_method]
  | .outbound =>
    [if rule.outboundID < 0 then '-' :: decimal rule.outboundID.natAbs
      else decimal rule.outboundID.natAbs]
  | .inbound => rule.inbound
  | .domain => rule.domain
  | .domain_suffix => rule.domain_suffix
  | .domain_keyword => rule.domain_keyword
  | .domain_regex => rule.domain_regex
  | .source_ip_cidr => rule.source_ip_cidr
  | .ip_cidr => rule.ip_cidr
  | .source_port => rule.source_port
  | .source_port_range => rule.source_port_range
  | .port => rule.port
  | .port_range => rule.port_range
  | .process_name => rule.process_name
  | .process_path => rule.process_path
  | .process_path_regex => rule.process_path_regex
  | .package_name => rule.package_name
  | .wifi_ssid => rule.wifi_ssid
  | .wifi_bssid => rule.wifi_bssid
  | .rule_set => rule.rule_set
  | .source_ip_is_private | .ip_is_private | .invert | .tls_fragment | .tls_record_fragment
  | .no_drop | .override_destination => []

def is_attribute_at_default (rule : RouteRule) (attr : Attribute) : Bool :=
  if attr = .action then true
  else
    match get_input_type attr with
    | .trufalse =>
      match attr with
      | .source_ip_is_private => !rule.source_ip_is_private
      | .ip_is_private => !rule.ip_is_private
      | .invert => !rule.invert
      | .no_drop => !rule.no_drop
      | .override_destination => !rule.sniffOverrideDest
      | .tls_fragment => !rule.tls_fragment
      | .tls_record_fragment => !rule.tls_record_fragment
      | _ => true
    | .select =>
      if attr = .outbound then decide (rule.outboundID = directID)
      else
        match get_current_value_string rule attr with
        | [] => true
        | s :: _ => decide (s = [])
    | .text =>
      match attr with
      | .override_address => decide (rule.override_address = [])
      | .override_port =>
        decide (trimSpace rule.override_port = []) || decide (trimSpace rule.override_port = ['0'])
      | .tls_spoof => decide (rule.tls_spoof = [])
      | _ => !isValidStrArray (get_current_value_string rule attr)

def has_match_conditions (darwin : Bool) (rule : RouteRule) : Bool :=
  rule.source_ip_is_private || rule.ip_is_private ||
    (get_attributes darwin).any fun attr =>
      is_match_attribute attr && decide (get_input_type attr ≠ .trufalse) &&
        isValidStrArray (get_current_value_string rule attr)

/-! ## Lines -/

/-- The lists of a rule that lines go to. -/
inductive LineKind where
  | domain
  | domain_suffix
  | domain_keyword
  | domain_regex
  | rule_set
  | ip_cidr
  | process_name
  | process_path
  deriving DecidableEq, Repr

namespace LineKind

/-- In the order in which they are listed. -/
def all : List LineKind :=
  [domain, domain_suffix, domain_keyword, domain_regex, rule_set, ip_cidr, process_name,
    process_path]

def prefixText : LineKind → Text
  | domain => "domain".toList
  | domain_suffix => "suffix".toList
  | domain_keyword => "keyword".toList
  | domain_regex => "regex".toList
  | rule_set => "ruleset".toList
  | ip_cidr => "ip".toList
  | process_name => "processName".toList
  | process_path => "processPath".toList

def ofPrefix (text : Text) : Option LineKind := all.find? fun kind => kind.prefixText = text

/-- Kept in lower case, since the core compares a lowered host with the value as it is written. -/
def isLowered : LineKind → Bool
  | domain | domain_suffix | domain_keyword => true
  | _ => false

end LineKind

def RouteRule.values (rule : RouteRule) : LineKind → List Text
  | .domain => rule.domain
  | .domain_suffix => rule.domain_suffix
  | .domain_keyword => rule.domain_keyword
  | .domain_regex => rule.domain_regex
  | .rule_set => rule.rule_set
  | .ip_cidr => rule.ip_cidr
  | .process_name => rule.process_name
  | .process_path => rule.process_path

def RouteRule.setValues (rule : RouteRule) (kind : LineKind) (values : List Text) : RouteRule :=
  match kind with
  | .domain => { rule with domain := values }
  | .domain_suffix => { rule with domain_suffix := values }
  | .domain_keyword => { rule with domain_keyword := values }
  | .domain_regex => { rule with domain_regex := values }
  | .rule_set => { rule with rule_set := values }
  | .ip_cidr => { rule with ip_cidr := values }
  | .process_name => { rule with process_name := values }
  | .process_path => { rule with process_path := values }

/-- `QString::toLower`. -/
structure LowerCase where
  toLower : Text → Text
  toLower_toLower : ∀ t, toLower (toLower t) = toLower t
  /-- White space has no case. -/
  trimSpace_toLower : ∀ t, trimSpace (toLower t) = toLower (trimSpace t)
  toLower_eq_nil : ∀ t, toLower t = [] ↔ t = []
  newline_of_toLower : ∀ t, '\n' ∈ toLower t → '\n' ∈ t

/-- What is wrong with a value, and how bad that is. -/
structure RuleIssue where
  isError : Bool := true
  message : Text := []
  deriving DecidableEq, Repr

/-- What the lines are checked with. -/
structure LineChecks extends LowerCase where
  /-- `RouteRule::check_value` of the list's attribute. -/
  check_value : LineKind → Text → RuleIssue

/-- Checks that refuse nothing, for texts in lower case. -/
def LineChecks.lenient : LineChecks where
  toLower := id
  toLower_toLower _ := rfl
  trimSpace_toLower _ := rfl
  toLower_eq_nil _ := Iff.rfl
  newline_of_toLower _ := id
  check_value _ _ := {}

section Lines

variable (checks : LineChecks)

def unknownPrefix : Text :=
  "Start the line with domain:, suffix:, keyword:, regex:, ruleset:, ip:, processName: or processPath:.".toList

def notAddress : Text :=
  "Start the line with domain:, suffix:, keyword:, regex:, ruleset: or ip:.".toList

def notProcess : Text := "Start the line with processName: or processPath:.".toList

def missingValue (name : Text) : Text :=
  "Add a value after \"".toList ++ name ++ ":\".".toList

/-- The halves of a line, or nothing where it has no usable separator. -/
def SplitRuleLine (line : Text) : Text × Text :=
  match cut ':' (trimSpace line) with
  | none => ([], [])
  | some (left, right) => if left = [] then ([], []) else (trimSpace left, trimSpace right)

/-- The value as a list of the kind keeps it. -/
def LineKind.stored (kind : LineKind) (value : Text) : Text :=
  if kind.isLowered then checks.toLower value else value

def CheckSimpleRule (rawLine : Text) : RuleIssue :=
  let line := trimSpace rawLine
  if line = [] then {}
  else
    let (left, right) := (cut ':' line).getD ([], line)
    let name := trimSpace left
    match LineKind.ofPrefix name with
    | none => { message := unknownPrefix }
    | some kind =>
      let value := trimSpace right
      if value = [] then { message := missingValue name }
      else checks.check_value kind (kind.stored checks value)

/-- A value joins a list once. -/
def appendOnce (values : List Text) (value : Text) : List Text :=
  if value ∈ values then values else values ++ [value]

def RouteRule.addValue (rule : RouteRule) (kind : LineKind) (value : Text) : RouteRule :=
  rule.setValues kind (appendOnce (rule.values kind) value)

def isProcess : LineKind → Bool
  | .process_name | .process_path => true
  | _ => false

/-- The rule with the line, or why it is refused. -/
def add_simple_address_rule (content : Text) (rule : RouteRule) : Except Text RouteRule :=
  let (subType, address) := SplitRuleLine content
  if subType = [] ∨ address = [] then .error notAddress
  else
    match LineKind.ofPrefix subType with
    | none => .error notAddress
    | some kind =>
      if isProcess kind then .error notAddress
      else .ok (rule.addValue kind (kind.stored checks address))

def add_simple_process_rule (content : Text) (rule : RouteRule) : Except Text RouteRule :=
  let (name, address) := SplitRuleLine content
  if name = [] ∨ address = [] then .error notProcess
  else
    match LineKind.ofPrefix name with
    | none => .error notProcess
    | some kind =>
      if isProcess kind then .ok (rule.addValue kind address) else .error notProcess

def add_simple_rule (content : Text) (rule : RouteRule) (type : RuleType) :
    Except Text RouteRule :=
  let issue := CheckSimpleRule checks content
  if issue.isError ∧ issue.message ≠ [] then .error issue.message
  else if isSimpleAddress type then add_simple_address_rule checks content rule
  else add_simple_process_rule content rule

/-! ## Kinds of rules -/

inductive SimpleAction where
  | bypass
  | block
  | proxy
  | warpBypass
  | viaProfile
  deriving DecidableEq, Repr

def addressType : SimpleAction → RuleType
  | .proxy => .simpleAddressProxy
  | .bypass => .simpleAddressBypass
  | .warpBypass => .simpleAddressWarpBypass
  | .viaProfile => .simpleAddressViaProfile
  | .block => .simpleAddressBlock

def processNameType : SimpleAction → RuleType
  | .proxy => .simpleProcessNameProxy
  | .bypass => .simpleProcessNameBypass
  | .warpBypass => .simpleProcessNameWarpBypass
  | .viaProfile => .simpleProcessNameViaProfile
  | .block => .simpleProcessNameBlock

def processPathType : SimpleAction → RuleType
  | .proxy => .simpleProcessPathProxy
  | .bypass => .simpleProcessPathBypass
  | .warpBypass => .simpleProcessPathWarpBypass
  | .viaProfile => .simpleProcessPathViaProfile
  | .block => .simpleProcessPathBlock

def simple_rule_types (action : SimpleAction) : List RuleType :=
  [addressType action, processNameType action, processPathType action]

def addressPrefixes : List Text :=
  ["domain".toList, "suffix".toList, "keyword".toList, "regex".toList, "ruleset".toList,
    "ip".toList]

/-- The type of the rule that a line like this goes to. -/
def get_rule_type (content : Text) (action : SimpleAction) : RuleType :=
  if addressPrefixes.any fun p => p.isPrefixOf content then addressType action
  else if "processName".toList.isPrefixOf content then processNameType action
  else if "processPath".toList.isPrefixOf content then processPathType action
  else .custom

def ruleTypeToString : RuleType → Text
  | .custom => "custom".toList
  | .simpleAddressProxy => "Simple Address Proxy".toList
  | .simpleAddressBypass => "Simple Address Bypass".toList
  | .simpleAddressBlock => "Simple Address Block".toList
  | .simpleProcessNameProxy => "Simple Process Name Proxy".toList
  | .simpleProcessNameBypass => "Simple Process Name Bypass".toList
  | .simpleProcessNameBlock => "Simple Process Name Block".toList
  | .simpleProcessPathProxy => "Simple Process Path Proxy".toList
  | .simpleProcessPathBypass => "Simple Process Path Bypass".toList
  | .simpleProcessPathBlock => "Simple Process Path Block".toList
  | .simpleAddressWarpBypass => "Simple Address Warp-bypass".toList
  | .simpleProcessNameWarpBypass => "Simple Process Name Warp-bypass".toList
  | .simpleProcessPathWarpBypass => "Simple Process Path Warp-bypass".toList
  | .simpleAddressViaProfile => "Simple Address Via Profile".toList
  | .simpleProcessNameViaProfile => "Simple Process Name Via Profile".toList
  | .simpleProcessPathViaProfile => "Simple Process Path Via Profile".toList
  | .endpointPreferredBy => "Endpoint".toList

/-- The action and the outbound of a new rule; a block names no outbound. -/
def templateRoute : RuleType → Text × ℤ
  | .simpleAddressProxy | .simpleProcessNameProxy | .simpleProcessPathProxy => (actionRoute, proxyID)
  | .simpleAddressBlock | .simpleProcessNameBlock | .simpleProcessPathBlock =>
    (actionReject, directID)
  | .simpleAddressWarpBypass | .simpleProcessNameWarpBypass | .simpleProcessPathWarpBypass =>
    (actionRoute, warpBypassID)
  | .simpleAddressViaProfile | .simpleProcessNameViaProfile | .simpleProcessPathViaProfile =>
    (actionRoute, proxyID)
  | _ => (actionRoute, directID)

/-- The rule of the type among `get_simple_rules`, aimed at the outbound if one is given. -/
def simpleRule (type : RuleType) (outbound : Option ℤ) : RouteRule where
  type := type
  action := (templateRoute type).1
  name := ruleTypeToString type
  outboundID := outbound.getD (templateRoute type).2

/-! ## The lines of an action -/

/-- A rule of the type, and of the outbound if one is given. -/
def isBucket (type : RuleType) (outbound : Option ℤ) (rule : RouteRule) : Bool :=
  rule.type = type && outbound.all fun id => rule.outboundID = id

/-- `reset_simple_rule` with the outbound put back: a new rule, disabled as the old one was. -/
def resetRule (type : RuleType) (outbound : Option ℤ) (rule : RouteRule) : RouteRule :=
  { simpleRule type outbound with disabled := rule.disabled }

def ResetSimpleRule (type : RuleType) (outbound : Option ℤ) (rules : List RouteRule) :
    List RouteRule :=
  if rules.any (isBucket type outbound) then
    changeFirst (isBucket type outbound) (resetRule type outbound) rules
  else rules ++ [simpleRule type outbound]

/-- The lines of a rule as they are listed. -/
def ruleLines (rule : RouteRule) : List Text :=
  LineKind.all.flatMap fun kind =>
    (rule.values kind).map fun value => kind.prefixText ++ ':' :: value

/-- The lines of the rules of an action. -/
def listedLines (action : SimpleAction) (outbound : Option ℤ) (rules : List RouteRule) :
    List Text :=
  (rules.filter fun rule => (simple_rule_types action).any fun type =>
    isBucket type outbound rule).flatMap ruleLines

def GetSimpleRules (action : SimpleAction) (outbound : Option ℤ) (rules : List RouteRule) : Text :=
  (listedLines action outbound rules).flatMap fun line => line ++ ['\n']

/-- `get_simple_rule_by_type` and `add_simple_rule`: why the line is refused, and the rules. -/
def addLine (outbound : Option ℤ) (raw : Text) (type : RuleType) (rules : List RouteRule) :
    Option Text × List RouteRule :=
  match rules.find? (isBucket type outbound) with
  | none => (some ("internal error, failed to get rule for: ".toList ++ ruleTypeToString type), rules)
  | some rule =>
    match add_simple_rule checks raw rule type with
    | .error reason => (some reason, rules)
    | .ok rule => (none, changeFirst (isBucket type outbound) (fun _ => rule) rules)

/-- A line that was refused: its number, its text and why. -/
structure RejectedLine where
  number : ℕ
  raw : Text
  reason : Text
  deriving DecidableEq, Repr

def updateLine (action : SimpleAction) (outbound : Option ℤ) (i : ℕ) (item : Text)
    (state : List RejectedLine × List RouteRule) : List RejectedLine × List RouteRule :=
  let raw := trimSpace item
  if raw = [] then state
  else
    let type := get_rule_type raw action
    if type = .custom then
      (state.1 ++ [⟨i + 1, raw, (CheckSimpleRule checks raw).message⟩], state.2)
    else
      match addLine checks outbound raw type state.2 with
      | (none, rules) => (state.1, rules)
      | (some reason, rules) => (state.1 ++ [⟨i + 1, raw, reason⟩], rules)

/-- The rules that are not empty, each as `isEmpty` leaves it. -/
def FilterEmptyRules (stores : Stores) (rules : List RouteRule) : List RouteRule :=
  rules.filterMap fun rule =>
    let (empty, rule) := isEmpty stores rule
    if empty then none else some rule

/-- The lines that are refused, and the rules. -/
def UpdateSimpleRules (stores : Stores) (content : Text) (action : SimpleAction)
    (outbound : Option ℤ) (rules : List RouteRule) : List RejectedLine × List RouteRule :=
  let rules := (simple_rule_types action).foldl (fun rules type =>
    ResetSimpleRule type outbound rules) rules
  let (refused, rules) := (content.splitOn '\n').zipIdx.foldl (fun state item =>
    updateLine checks action outbound item.2 item.1 state) ([], rules)
  (refused, FilterEmptyRules stores rules)

def RemoveSimpleViaProfile (profileID : ℤ) (rules : List RouteRule) : List RouteRule :=
  rules.filter fun rule =>
    ¬ (rule.type ∈ simple_rule_types .viaProfile ∧ rule.outboundID = profileID)

/-! ## One line of a target -/

/-- A list that lines can go to: that of an action, or that of a server. -/
structure SimpleTarget where
  action : SimpleAction := .proxy
  serverID : ℤ := -99999
  deriving DecidableEq, Repr

def SimpleTarget.isServer (target : SimpleTarget) : Bool := decide (0 ≤ target.serverID)

def appendToBucket (rawRule : Text) (action : SimpleAction) (outbound : Option ℤ)
    (rules : List RouteRule) : Bool × List RouteRule :=
  let raw := trimSpace rawRule
  if raw = [] then (false, rules)
  else
    let type := get_rule_type raw action
    if type = .custom then (false, rules)
    else
      match rules.find? (isBucket type outbound) with
      | some rule =>
        match add_simple_rule checks raw rule type with
        | .error _ => (false, rules)
        | .ok rule => (true, changeFirst (isBucket type outbound) (fun _ => rule) rules)
      | none =>
        match add_simple_rule checks raw (simpleRule type outbound) type with
        | .error _ => (false, rules)
        | .ok rule => (true, rules ++ [rule])

/-- A server's lines go to its via-profile rules. -/
def AppendSimpleRule (rawRule : Text) (target : SimpleTarget) (rules : List RouteRule) :
    Bool × List RouteRule :=
  if target.isServer then appendToBucket checks rawRule .viaProfile (some target.serverID) rules
  else appendToBucket checks rawRule target.action none rules

/-- The attributes that a hand-made rule for lines like this may set. -/
def ownAttributes (type : RuleType) : List Attribute :=
  if type = .simpleAddressProxy then
    [.domain, .domain_suffix, .domain_keyword, .domain_regex, .rule_set, .ip_cidr]
  else if type = .simpleProcessNameProxy then [.process_name]
  else [.process_path]

/-- A rule that routes lines like this to a server, and has no condition of another kind. -/
def is_server_rule_for (darwin : Bool) (rule : RouteRule) (content : Text) : Bool :=
  if rule.type ≠ .custom ∨ rule.disabled ∨ rule.action ≠ actionRoute ∨ rule.outboundID < 0 ∨
      has_match_conditions darwin rule = false then false
  else
    let type := get_rule_type content .proxy
    if type = .custom then false
    else
      (get_attributes darwin).all fun attr =>
        decide (attr = .outbound) || decide (attr ∈ ownAttributes type) ||
          is_attribute_at_default rule attr

/-- Whether the rule is one of `rules_for`. -/
def isRuleFor (darwin : Bool) (content : Text) (target : SimpleTarget) (rule : RouteRule) : Bool :=
  let type := get_rule_type content (if target.isServer then .viaProfile else target.action)
  if type = .custom then false
  else if target.isServer then
    decide (rule.outboundID = target.serverID) &&
      (decide (rule.type = type) || is_server_rule_for darwin rule content)
  else decide (rule.type = type)

/-- The list and the value that a line names. -/
def simple_rule_values (content : Text) : Option (LineKind × Text) :=
  match cut ':' content with
  | none => none
  | some (left, right) =>
    let value := trimSpace right
    if value = [] then none
    else (LineKind.ofPrefix (trimSpace left)).map fun kind => (kind, kind.stored checks value)

def holdsLine (content : Text) (rule : RouteRule) : Bool :=
  match simple_rule_values checks content with
  | none => false
  | some (kind, value) => decide (value ∈ rule.values kind)

def HasSimpleRule (darwin : Bool) (rawRule : Text) (target : SimpleTarget)
    (rules : List RouteRule) : Bool :=
  let raw := trimSpace rawRule
  rules.any fun rule => isRuleFor darwin raw target rule && holdsLine checks raw rule

/-- What is left of a rule of the target that holds the line; `none` where it is dropped. -/
def removeLine (stores : Stores) (darwin : Bool) (content : Text) (target : SimpleTarget)
    (rule : RouteRule) : Option RouteRule :=
  match simple_rule_values checks content with
  | none => some rule
  | some (kind, value) =>
    let rule := rule.setValues kind ((rule.values kind).filter (· ≠ value))
    if target.isServer then if has_match_conditions darwin rule then some rule else none
    else
      let (empty, rule) := isEmpty stores rule
      if empty then none else some rule

def RemoveSimpleRule (stores : Stores) (darwin : Bool) (rawRule : Text) (target : SimpleTarget)
    (rules : List RouteRule) : Bool × List RouteRule :=
  let raw := trimSpace rawRule
  (rules.any fun rule => isRuleFor darwin raw target rule && holdsLine checks raw rule,
    rules.filterMap fun rule =>
      if isRuleFor darwin raw target rule && holdsLine checks raw rule then
        removeLine checks stores darwin raw target rule
      else some rule)

/-! ## Lines that cover others -/

/-- The target whose addresses a rule holds. -/
def addressTarget (darwin : Bool) (content : Text) (rule : RouteRule) : Option SimpleTarget :=
  match rule.type with
  | .simpleAddressProxy => some { action := .proxy }
  | .simpleAddressBypass => some { action := .bypass }
  | .simpleAddressBlock => some { action := .block }
  | .simpleAddressWarpBypass => some { action := .warpBypass }
  | .simpleAddressViaProfile => some { action := .proxy, serverID := rule.outboundID }
  | _ =>
    if is_server_rule_for darwin rule content then
      some { action := .proxy, serverID := rule.outboundID }
    else none

/-- A line of the rule that covers the value. -/
def coveringLine (kind : LineKind) (value : Text) (rule : RouteRule) : Option Text :=
  match rule.domain_keyword.find? fun keyword =>
      let k := checks.toLower keyword
      k ≠ [] ∧ k <:+: value ∧ ¬ (kind = .domain_keyword ∧ k = value) with
  | some keyword => some ("keyword:".toList ++ keyword)
  | none =>
    if kind ≠ .domain_suffix then none
    else
      (rule.domain_suffix.find? fun suffix =>
        let s := checks.toLower suffix
        s ≠ [] ∧ ('.' :: s) <:+ value).map fun suffix => "suffix:".toList ++ suffix

/-- The rules before the target's first one. -/
def rulesBefore (darwin : Bool) (content : Text) (target : SimpleTarget) (rules : List RouteRule) :
    List RouteRule :=
  rules.takeWhile fun rule => !isRuleFor darwin content target rule

/-- The covering line, with the target that holds it. -/
def CoveringSimpleRule (darwin : Bool) (rawRule : Text) (target : SimpleTarget)
    (rules : List RouteRule) : Option (Text × SimpleTarget) :=
  let raw := trimSpace rawRule
  match cut ':' raw with
  | none => none
  | some (left, right) =>
    let value := checks.toLower (trimSpace right)
    match LineKind.ofPrefix (trimSpace left) with
    | some kind =>
      if value = [] ∨ (kind ≠ .domain_suffix ∧ kind ≠ .domain_keyword) then none
      else
        (rulesBefore darwin raw target rules).findSome? fun rule =>
          match addressTarget darwin raw rule with
          | none => none
          | some other =>
            if other = target ∨ rule.disabled then none
            else (coveringLine checks kind value rule).map fun line => (line, other)
    | none => none

end Lines

end Throned.Routes
