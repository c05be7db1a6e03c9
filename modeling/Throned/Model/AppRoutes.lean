import Throned.Model.RouteRule
import Throned.Library.Grouping

/-!
# App routes

The Simple mode's entries, one for an app, and the rules that hold them
(src/database/entities/AppRoutes.cpp:18-42, 62-70, 157-237).  A rule list holds references to
rules: a rule keeps its object, a new one gets another.
-/

set_option autoImplicit false

namespace Throned.Routes

open Throned.Library
open Throned.Configs (proxyID directID actionRoute)

structure Route where
  id : Text
  processes : List Text := []
  processPaths : List Text := []
  ruleSets : List Text := []
  domains : List Text := []
  cidrs : List Text := []
  outbound : ℤ := 0
  deriving DecidableEq, Repr

def Route.isEmpty (route : Route) : Bool :=
  route.processes = [] && route.processPaths = [] && route.ruleSets = [] && route.domains = [] &&
    route.cidrs = []

/-- The route has something for the rule of its addresses. -/
def Route.hasAddresses (route : Route) : Bool :=
  route.ruleSets ≠ [] || route.domains ≠ [] || route.cidrs ≠ []

structure RuleObject where
  object : ℕ
  rule : RouteRule
  deriving DecidableEq, Repr

/-- A reference, which may be null. -/
abbrev RulePtr := Option RuleObject

def RulePrefix : Text := ['t', 'h', 'r', 'o', 'n', 'e', 'd', '-', 'a', 'p', 'p', ':']

def ProcessSuffix : Text := [':', 'p', 'r', 'o', 'c', 'e', 's', 's']

def ProcessPathSuffix : Text := ProcessSuffix ++ ['-', 'p', 'a', 't', 'h']

/-- The text without a suffix that it ends in. -/
def chopSuffix (text ending : Text) : Text :=
  if ending.isSuffixOf text then text.take (text.length - ending.length) else text

def routeId (rule : RouteRule) : Text :=
  chopSuffix (chopSuffix (rule.name.drop RulePrefix.length) ProcessSuffix) ProcessPathSuffix

/-- The keys that an owned rule may have. -/
def allowedKeys (name : Text) : List String :=
  ["action", "outbound"] ++
    if ProcessSuffix.isSuffixOf name then ["process_name"]
    else if ProcessPathSuffix.isSuffixOf name then ["process_path"]
    else ["domain_suffix", "rule_set", "ip_cidr"]

def IsOwned (stores : Stores) (rule : RouteRule) : Bool :=
  if rule.type ≠ .custom ∨ rule.action ≠ actionRoute ∨ !RulePrefix.isPrefixOf rule.name then false
  else
    let copy := { rule with type := .custom, outboundID := directID }
    let json := (get_rule_json stores true [] copy).1
    json.keys.all (· ∈ allowedKeys rule.name)

/-- A step of the loop of `editableIds`: the targets so far and the ids with several. -/
def targetsStep (stores : Stores) (found : List (Text × ℤ) × List Text) (rule : RulePtr) :
    List (Text × ℤ) × List Text :=
  match rule with
  | none => found
  | some rule =>
    if !IsOwned stores rule.rule then found
    else
      let id := routeId rule.rule
      let ambiguous :=
        if (found.1.lookup id).any (· ≠ rule.rule.outboundID) then id :: found.2 else found.2
      ((id, rule.rule.outboundID) :: found.1.filter (·.1 ≠ id), ambiguous)

def editableIds (stores : Stores) (rules : List RulePtr) : List Text :=
  let found := rules.foldl (targetsStep stores) ([], [])
  (found.1.map Prod.fst).filter (· ∉ found.2)

/-- The rules that a write replaces. -/
def isEditable (stores : Stores) (ids : List Text) (rule : RulePtr) : Bool :=
  rule.any fun r => IsOwned stores r.rule && routeId r.rule ∈ ids

/-- What a rule adds to its entry. -/
def addRule (rule : RouteRule) (route : Route) : Route :=
  if ProcessSuffix.isSuffixOf rule.name then
    { route with processes := route.processes ++ rule.process_name }
  else if ProcessPathSuffix.isSuffixOf rule.name then
    { route with processPaths := route.processPaths ++ rule.process_path }
  else
    { route with
      ruleSets := route.ruleSets ++ rule.rule_set
      domains := route.domains ++ rule.domain_suffix
      cidrs := route.cidrs ++ rule.ip_cidr }

theorem addRule_id (rule : RouteRule) (route : Route) : (addRule rule route).id = route.id := by
  unfold addRule
  split
  · rfl
  · split <;> rfl

/-- The entry of an id is made where it is missing, and takes what its rules add. -/
def routeGrouper : Grouper Route RouteRule Text where
  entryKey := Route.id
  key := routeId
  start := fun rule => { id := routeId rule, outbound := rule.outboundID }
  add := addRule
  key_start := fun _ => rfl
  key_add := addRule_id

/-- The rules that the screen shows, in their order. -/
def editableRules (stores : Stores) (rules : List RulePtr) : List RouteRule :=
  (rules.filter (isEditable stores (editableIds stores rules))).filterMap
    (Option.map RuleObject.rule)

def Read (stores : Stores) (rules : List RulePtr) : List Route :=
  routeGrouper.group (editableRules stores rules)

def makeRule (name : Text) (outbound : ℤ) : RouteRule :=
  { name, type := .custom, action := actionRoute, outboundID := outbound }

/-- An app needs two rules to match either its processes or its addresses. -/
def ownedRules (route : Route) : List RouteRule :=
  (if route.hasAddresses then
      [{ makeRule (RulePrefix ++ route.id) route.outbound with
          rule_set := route.ruleSets, domain_suffix := route.domains, ip_cidr := route.cidrs }]
    else []) ++
  (if route.processes ≠ [] then
      [{ makeRule (RulePrefix ++ route.id ++ ProcessSuffix) route.outbound with
          process_name := route.processes }]
    else []) ++
  (if route.processPaths ≠ [] then
      [{ makeRule (RulePrefix ++ route.id ++ ProcessPathSuffix) route.outbound with
          process_path := route.processPaths }]
    else [])

/-- The rules in new objects. -/
def newObjects (fresh : ℕ) (rules : List RouteRule) : List RulePtr :=
  rules.mapIdx fun i rule => some ⟨fresh + i, rule⟩

/-- The rules take the place of the first one that the screen owned, or the top. -/
def Write (stores : Stores) (fresh : ℕ) (rules : List RulePtr) (routes : List Route) :
    List RulePtr :=
  let removed := isEditable stores (editableIds stores rules)
  let insertAt := if rules.any removed then (rules.takeWhile (!removed ·)).length else 0
  let kept := rules.filter (!removed ·)
  kept.take insertAt ++ newObjects fresh (routes.flatMap ownedRules) ++ kept.drop insertAt

end Throned.Routes
