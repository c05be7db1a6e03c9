import Throned.Library.Json
import Throned.Library.OrderedLists

/-!
# The plan of an auto selector

Which members of the tracked groups an auto selector may use, in what order they are tried, and
the pool that a ranking stores (src/configs/AutoSelectorPlan.cpp and
include/configs/outbounds/autoselector.h).

The repositories are read as they stand during a call.  The clock is read anew where the source
does, so one call takes a reading for each place.  Regular expressions, JSON texts and upper case
are those of Qt.
-/

set_option autoImplicit false

namespace Throned.Configs

open Throned.Library

/-! ## Profiles and groups -/

/-- What the virtual functions of an outbound tell apart. -/
inductive OutboundClass where
  | custom (type : String) (config : Text)
  | xrayVless
  | extracore
  | other
  deriving DecidableEq, Repr

structure Outbound where
  kind : OutboundClass
  name : Text
  displayAddress : Text
  deriving DecidableEq, Repr

namespace Outbound

def DisplayName (o : Outbound) : Text := if o.name.isEmpty then o.displayAddress else o.name

def IsXray (o : Outbound) : Bool :=
  match o.kind with
  | .custom type _ => type == "xrayoutbound"
  | .xrayVless => true
  | _ => false

def IsXrayFullConfig (o : Outbound) : Bool :=
  match o.kind with
  | .custom type _ => type == "xrayfullconfig"
  | _ => false

def IsExtraCore (o : Outbound) : Bool := o.kind == .extracore

end Outbound

structure Profile where
  type : String
  outbound : Option Outbound
  latency : ℤ
  latency_at : ℤ
  test_country : Text
  deriving DecidableEq, Repr

structure Group where
  landing_proxy_id : ℤ := -1
  front_proxy_id : ℤ := -1
  profiles : List ℤ := []
  deriving DecidableEq, Repr

/-- The repositories a plan reads. -/
structure Repositories where
  GetProfile : ℤ → Option Profile
  GetGroup : ℤ → Option Group

/-- What Qt computes of texts. -/
structure QtTexts where
  /-- A pattern without case, if it is valid: where it has a match. -/
  regularExpression : Text → Option (Text → Bool)
  QString2QJsonObject : Text → JsonObject
  toUpper : Text → Text

/-! ## The selector -/

structure AutoSelector where
  gids : List ℤ := []
  nameFilter : Text := []
  countryFilter : Text := []
  excludeUnavailable : Bool := true
  poolCap : ℤ := 1000
  buildLimit : ℤ := 300
  resultValidityMins : ℤ := 1440
  intervalSec : ℤ := 300
  benchIntervalSec : ℤ := 600
  watchIntervalSec : ℤ := 15
  activeSize : ℤ := 8
  sampling : ℤ := 10
  toleranceMs : ℤ := 300
  maxRTTms : ℤ := 0
  expected : ℤ := 3
  dialRetries : ℤ := 2
  balanceMode : String := "rotate"
  balanceIntervalSec : ℤ := 30
  pool : List ℤ := []
  poolRankedAt : ℤ := 0
  deriving DecidableEq, Repr

def kMaxPoolCap : ℤ := 3000

def kMaxBuildLimit : ℤ := 500

/-- The tracked groups, each once. -/
def tracked (gids : List ℤ) : List ℤ :=
  gids.foldl (fun tracked gid => if gid ≥ 0 ∧ gid ∉ tracked then tracked ++ [gid] else tracked) []

/-- Clamps what a hand-edited profile could put out of range. -/
def AutoSelector.Normalize (s : AutoSelector) : AutoSelector :=
  let poolCap := min (max s.poolCap 1) kMaxPoolCap
  let buildLimit := min (min (max s.buildLimit 1) kMaxBuildLimit) poolCap
  let intervalSec := max s.intervalSec 10
  let expected := max s.expected 1
  { s with
    gids := tracked s.gids
    poolCap := poolCap
    buildLimit := buildLimit
    resultValidityMins := max s.resultValidityMins 0
    intervalSec := intervalSec
    benchIntervalSec := max s.benchIntervalSec intervalSec
    watchIntervalSec := min (max s.watchIntervalSec 5) intervalSec
    activeSize := min (max (max s.activeSize 1) expected) buildLimit
    sampling := min (max s.sampling 2) 60
    toleranceMs := max s.toleranceMs 0
    maxRTTms := max s.maxRTTms 0
    expected := min expected buildLimit
    dialRetries := min (max s.dialRetries 0) 5
    balanceIntervalSec := max s.balanceIntervalSec 5
    balanceMode := if s.balanceMode ≠ "connection" then "rotate" else s.balanceMode }

/-! ## Eligibility -/

inductive AutoSelectorSkip where
  | None
  | Missing
  | MetaType
  | CoreTransitions
  | ExtraCore
  | FullConfig
  | Malformed
  | Tailscale
  | ManagementEndpoint
  | NameFilter
  | CountryFilter
  | Unavailable
  | XrayFullChained
  deriving DecidableEq, Repr

structure MemberFilters where
  /-- There is none without a valid pattern. -/
  name : Option (Text → Bool) := none
  countries : List Text := []
  excludedCountries : List Text := []

def buildFilters (qt : QtTexts) (selector : AutoSelector) : MemberFilters :=
  let name :=
    if (trimSpace selector.nameFilter).isEmpty then none
    else qt.regularExpression selector.nameFilter
  ((selector.countryFilter.splitOn ',').filter fun item => !item.isEmpty).foldl
    (fun filters item =>
      let code := trimSpace item
      let exclude := code.head? == some '!'
      let code := if exclude then trimSpace (code.drop 1) else code
      if code.isEmpty then filters
      else if exclude then
        { filters with excludedCountries := filters.excludedCountries ++ [qt.toUpper code] }
      else { filters with countries := filters.countries ++ [qt.toUpper code] })
    { name }

def hasFreshResult (member : Option Profile) (selector : AutoSelector) (now : ℤ) : Bool :=
  match member with
  | none => false
  | some member =>
    member.latency ≠ 0 ∧ 0 < selector.resultValidityMins ∧ 0 < member.latency_at ∧
      now - member.latency_at ≤ selector.resultValidityMins * 60

/-- The checks of a custom profile. -/
def customSkip (qt : QtTexts) (kind : OutboundClass) : AutoSelectorSkip :=
  match kind with
  | .custom type config =>
    if type ≠ "outbound" ∧ type ≠ "xrayoutbound" ∧ type ≠ "xrayfullconfig" then .FullConfig
    else if (qt.QString2QJsonObject config).isEmpty then .Malformed
    else .None
  | _ => .Missing

/-- Neither filter of countries lets an unknown country through. -/
def countryOut (qt : QtTexts) (filters : MemberFilters) (test_country : Text) : Bool :=
  if !filters.countries.isEmpty || !filters.excludedCountries.isEmpty then
    let country := qt.toUpper (trimSpace test_country)
    country.isEmpty || filters.excludedCountries.contains country ||
      (!filters.countries.isEmpty && !filters.countries.contains country)
  else false

def eligibilityOf (qt : QtTexts) (member : Option Profile) (selector : AutoSelector)
    (filters : MemberFilters) (now : ℤ) : AutoSelectorSkip :=
  match member with
  | none => .Missing
  | some profile =>
    match profile.outbound with
    | none => .Missing
    | some outbound =>
      if profile.type = "chain" ∨ profile.type = "autoselector" then .MetaType
      else if profile.type = "tailscale" then .Tailscale
      else if profile.type = "openvpn" ∨ profile.type = "openconnect" then .ManagementEndpoint
      else if outbound.IsExtraCore then .ExtraCore
      else if profile.type = "custom" ∧ customSkip qt outbound.kind ≠ .None then
        customSkip qt outbound.kind
      else if filters.name.any fun pattern => !pattern outbound.DisplayName then .NameFilter
      else if countryOut qt filters profile.test_country then .CountryFilter
      else if selector.excludeUnavailable ∧ profile.latency < 0 ∧
          hasFreshResult member selector now then .Unavailable
      else .None

/-- How often a chain changes the core. -/
def coreTransitions (landing member front : Option Profile) : ℕ :=
  ([landing, member, front].foldl
    (fun (transitions, inXray) hop =>
      match hop.bind Profile.outbound with
      | none => (transitions, inXray)
      | some outbound =>
        (if outbound.IsXray ≠ inXray then transitions + 1 else transitions, outbound.IsXray))
    (0, false)).1

def xrayFullConfigFitsChain (landing front : Option Profile) : Bool :=
  if front.isSome then false
  else
    match landing.bind Profile.outbound with
    | none => true
    | some outbound => !outbound.IsXray && !outbound.IsXrayFullConfig && !outbound.IsExtraCore

/-- The check of a member between its group's proxies. -/
def chainSkip (landing front member : Option Profile) : AutoSelectorSkip :=
  if (member.bind Profile.outbound).any Outbound.IsXrayFullConfig then
    if !xrayFullConfigFitsChain landing front then .XrayFullChained else .None
  else if coreTransitions landing member front > 2 then .CoreTransitions
  else .None

/-! ## Ranks -/

/-- Untested outranks failed. -/
def latencyRank (latency : ℤ) : ℕ :=
  if latency > 0 then 0 else if latency = 0 then 1 else 2

def effectiveLatency (member : Option Profile) (selector : AutoSelector) (now : ℤ) : ℤ :=
  if hasFreshResult member selector now then member.elim 0 Profile.latency else 0

def effectiveLatencyOf (repos : Repositories) (id : ℤ) (selector : AutoSelector) (now : ℤ) : ℤ :=
  effectiveLatency (repos.GetProfile id) selector now

def byLatency (leftLatency rightLatency : ℤ) : Bool :=
  let leftRank := latencyRank leftLatency
  let rightRank := latencyRank rightLatency
  if leftRank ≠ rightRank then leftRank < rightRank
  else if leftRank = 0 then leftLatency < rightLatency
  else false

def sortByLatency (repos : Repositories) (ids : List ℤ) (selector : AutoSelector) (now : ℤ)
    (untrusted : List ℤ) : List ℤ :=
  let latency := fun id => if id ∈ untrusted then 0 else effectiveLatencyOf repos id selector now
  stableSort (fun left right => byLatency (latency left) (latency right)) ids

/-! ## The members -/

structure AutoSelectorPlan where
  pool : List ℤ := []
  build : List ℤ := []
  membersInGroups : ℕ := 0
  missingGroups : ℕ := 0
  eligible : ℕ := 0
  rankedByTest : ℕ := 0
  keptUnavailable : ℕ := 0
  skipped : List (AutoSelectorSkip × ℕ) := []
  truncated : Bool := false
  poolCapUsed : ℤ := 0
  buildLimitUsed : ℤ := 0
  needsRanking : Bool := false
  error : String := ""
  deriving DecidableEq, Repr

def AutoSelectorPlan.skippedCount (plan : AutoSelectorPlan) : ℕ :=
  (plan.skipped.map Prod.snd).sum

/-- The keys of the map of skips, in its order. -/
def skipReasons : List AutoSelectorSkip :=
  [.None, .Missing, .MetaType, .CoreTransitions, .ExtraCore, .FullConfig, .Malformed, .Tailscale,
    .ManagementEndpoint, .NameFilter, .CountryFilter, .Unavailable, .XrayFullChained]

/-- What the scan of the groups has gathered. -/
structure MemberScan where
  members : List ℤ := []
  unavailable : List ℤ := []
  seen : List ℤ := []
  skips : AutoSelectorSkip → ℕ := fun _ => 0
  membersInGroups : ℕ := 0
  rankedByTest : ℕ := 0

section Scan

variable (qt : QtTexts) (repos : Repositories) (selector : AutoSelector)

/-- A proxy of a group, if it has one. -/
def groupProxy (id : ℤ) : Option Profile := if id ≥ 0 then repos.GetProfile id else none

/-- One member of a group whose proxies are given. -/
def scanMember (self : ℤ) (filters : MemberFilters) (now : ℤ) (landing front : Option Profile)
    (scan : MemberScan) (id : ℤ) : MemberScan :=
  if id = self ∨ id ∈ scan.seen then scan
  else
    let member := repos.GetProfile id
    let scan := { scan with
      seen := id :: scan.seen
      membersInGroups := scan.membersInGroups + 1 }
    let skip := eligibilityOf qt member selector filters now
    if skip ≠ .None ∧ skip ≠ .Unavailable then
      { scan with skips := Function.update scan.skips skip (scan.skips skip + 1) }
    else
      let chained := chainSkip landing front member
      if chained ≠ .None then
        { scan with skips := Function.update scan.skips chained (scan.skips chained + 1) }
      else if skip = .Unavailable then { scan with unavailable := scan.unavailable ++ [id] }
      else
        { scan with
          members := scan.members ++ [id]
          rankedByTest :=
            if effectiveLatency member selector now > 0 then scan.rankedByTest + 1
            else scan.rankedByTest }

/-- Each member is wrapped in its own group's proxies. -/
def scanGroup (self : ℤ) (filters : MemberFilters) (now : ℤ) (scan : MemberScan) (group : Group) :
    MemberScan :=
  let landing := groupProxy repos group.landing_proxy_id
  let front := groupProxy repos group.front_proxy_id
  group.profiles.foldl (scanMember qt repos selector self filters now landing front) scan

/-- The members and what the plan says of them. -/
def eligibleMembers (self now : ℤ) (plan : AutoSelectorPlan) : List ℤ × AutoSelectorPlan :=
  if selector.gids.isEmpty then ([], { plan with error := "Auto selector tracks no group" })
  else
    let groups := selector.gids.filterMap repos.GetGroup
    let plan := { plan with
      missingGroups :=
        plan.missingGroups + selector.gids.countP fun gid => (repos.GetGroup gid).isNone }
    if groups.isEmpty then
      ([], { plan with error := "Auto selector points at a group that no longer exists" })
    else
      let filters := buildFilters qt selector
      let scan := groups.foldl (scanGroup qt repos selector self filters now) {}
      -- when all have failed it is an outage, and none is excluded
      let kept := scan.members.isEmpty && !scan.unavailable.isEmpty
      let members := if kept then scan.unavailable else scan.members
      let skips :=
        if !kept && !scan.unavailable.isEmpty then
          Function.update scan.skips .Unavailable
            (scan.skips .Unavailable + scan.unavailable.length)
        else scan.skips
      (members, { plan with
        membersInGroups := plan.membersInGroups + scan.membersInGroups
        rankedByTest := plan.rankedByTest + scan.rankedByTest
        keptUnavailable := if kept then scan.unavailable.length else plan.keptUnavailable
        skipped := plan.skipped ++
          (skipReasons.filter fun skip => skips skip ≠ 0).map fun skip => (skip, skips skip) })

/-- `QList::mid` from the front; a negative length takes all. -/
def midFront (ids : List ℤ) (length : ℤ) : List ℤ :=
  if length < 0 then ids else ids.take length.toNat

/-- The ids of the persisted pool that are eligible, each where it first stands. -/
def placedMembers (members persistedPool : List ℤ) : List ℤ :=
  persistedPool.foldl
    (fun ordered id => if id ∉ members ∨ id ∈ ordered then ordered else ordered ++ [id]) []

/-- The persisted order is the ranking prior; newcomers follow by latency. -/
def orderMembers (members persistedPool : List ℤ) (now : ℤ) : List ℤ :=
  let placed := placedMembers members persistedPool
  let newcomers := members.filter fun id => id ∉ placed
  placed ++ sortByLatency repos newcomers selector now []

end Scan

/-! ## Plans and rankings -/

/-- The profile of a selector; its outbound may be of another type. -/
structure SelectorProfile where
  id : ℤ
  selector : Option AutoSelector
  deriving DecidableEq, Repr

/-- The plan of a selector that is normalized. -/
def planNormalized (qt : QtTexts) (repos : Repositories) (self : ℤ) (selector : AutoSelector)
    (eligibleNow orderNow : ℤ) : AutoSelectorPlan :=
  let plan : AutoSelectorPlan :=
    { poolCapUsed := selector.poolCap, buildLimitUsed := selector.buildLimit }
  let (members, plan) := eligibleMembers qt repos selector self eligibleNow plan
  if plan.error ≠ "" then plan
  else
    let plan := { plan with eligible := members.length }
    if members.isEmpty then { plan with error := "Auto selector has no usable members" }
    else
      let ordered := orderMembers repos selector members selector.pool orderNow
      let truncated := (ordered.length : ℤ) > selector.poolCap
      let ordered := if truncated then midFront ordered selector.poolCap else ordered
      let build := midFront ordered (min (ordered.length : ℤ) selector.buildLimit)
      { plan with
        truncated := truncated
        pool := ordered
        build := build
        needsRanking :=
          (ordered.length : ℤ) > selector.buildLimit ∧
            0 < build.countP fun id => effectiveLatencyOf repos id selector orderNow = 0 }

/-- The plan, and the profile with its selector normalized. -/
def PlanAutoSelector (qt : QtTexts) (repos : Repositories) (ent : Option SelectorProfile)
    (eligibleNow orderNow : ℤ) : AutoSelectorPlan × Option SelectorProfile :=
  match ent with
  | none => ({ error := "Null profile passed to PlanAutoSelector" }, none)
  | some profile =>
    match profile.selector with
    | none => ({ error := "Profile is not an auto selector, data is corrupted" }, ent)
    | some selector =>
      let selector := selector.Normalize
      (planNormalized qt repos profile.id selector eligibleNow orderNow,
        some { profile with selector := some selector })

/-- The pool a ranking stores, and the profile that is saved. -/
def RerankAutoSelectorPool (qt : QtTexts) (repos : Repositories) (ent : Option SelectorProfile)
    (untrusted : List ℤ) (eligibleNow orderNow rankedNow : ℤ) :
    List ℤ × Option SelectorProfile :=
  match ent with
  | none => ([], none)
  | some profile =>
    match profile.selector with
    | none => ([], ent)
    | some selector =>
      let members := (eligibleMembers qt repos selector profile.id eligibleNow {}).1
      let members := sortByLatency repos members selector orderNow untrusted
      let members :=
        if (members.length : ℤ) > selector.poolCap then midFront members selector.poolCap
        else members
      (members, some { profile with
        selector := some { selector with pool := members, poolRankedAt := rankedNow } })

end Throned.Configs
