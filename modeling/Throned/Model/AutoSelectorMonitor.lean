import Mathlib.Algebra.Order.Group.Int
import Mathlib.Logic.Function.Basic
import Throned.Library.Text

/-!
# The monitor of a running auto selector

`AutoSelectorMonitor` (src/stats/autoselector/AutoSelectorMonitor.cpp:69-332 and
include/stats/autoselector/AutoSelectorMonitor.hpp).

A step is one section under the mutex, one call of the core or one write of a latency.  `poll` has
one thread; `PersistHealth` and `RequestSelect` run on any number of them.  Builds are numbered:
the core runs one of them, the monitor has been told of one, and a reply is about the one that ran
when it was made, which `about` keeps and the code does not.  The clock only goes on.  Names,
counters that are only shown and texts are left out.
-/

set_option autoImplicit false

namespace Throned.Stats

open Throned.Library

/-- `AutoSelectorBuildInfo`; a member may be null. -/
structure AutoSelectorBuildInfo where
  groupTag : Text
  /-- The id of the selector, or -1. -/
  profile : ℤ
  members : List (Text × Option ℤ)
  deriving DecidableEq, Repr

/-- A later member hides an earlier one with its tag. -/
def AutoSelectorBuildInfo.tagToProfile (info : AutoSelectorBuildInfo) : List (Text × ℤ) :=
  info.members.foldl
    (fun map entry =>
      match entry.2 with
      | some id => (entry.1, id) :: map
      | none => map)
    []

/-- `tagToProfile.value(tag, -1)`. -/
def profileOf (tagToProfile : List (Text × ℤ)) (tag : Text) : ℤ :=
  (tagToProfile.lookup tag).getD (-1)

inductive MemberState where
  | ok
  | degraded
  | untested
  | dead
  | cooldown
  deriving DecidableEq, Repr

inductive SelectorPhase where
  | starting
  | probing
  | ready
  | suspended
  deriving DecidableEq, Repr

/-- `AutoSelectorMember` of a reply. -/
structure MemberStatus where
  tag : Text
  state : MemberState
  average_ms : ℤ
  probes : ℤ
  selected : Bool
  deriving DecidableEq, Repr

/-- `AutoSelectorStatus` of a reply. -/
structure GroupStatus where
  tag : Text
  phase : SelectorPhase
  suspended : Bool
  pinned : Text
  members_probed : ℤ
  members : List MemberStatus
  deriving DecidableEq, Repr

structure AutoSelectorMemberView where
  tag : Text
  profileID : ℤ
  state : MemberState
  averageMs : ℤ
  probes : ℤ
  selected : Bool
  pinned : Bool
  deriving DecidableEq, Repr

namespace AutoSelectorMemberView

def isDead (member : AutoSelectorMemberView) : Bool := member.state = .dead

def isUsable (member : AutoSelectorMemberView) : Bool :=
  member.state = .ok || member.state = .degraded

/-- The latency `PersistHealth` has for a member, if it is conclusive. -/
def health (member : AutoSelectorMemberView) : Option ℤ :=
  if member.profileID < 0 ∨ member.probes = 0 then none
  else if member.isUsable ∧ member.averageMs > 0 then some member.averageMs
  else if member.isDead then some (-1)
  else none

end AutoSelectorMemberView

structure AutoSelectorView where
  valid : Bool := false
  groupTag : Text := []
  profileID : ℤ := -1
  phase : SelectorPhase := .starting
  selectedProfileID : ℤ := -1
  pinnedTag : Text := []
  suspended : Bool := false
  membersProbed : ℤ := 0
  exhaustedSinceMs : ℤ := 0
  members : List AutoSelectorMemberView := []
  about : Option ℕ := none
  deriving DecidableEq, Repr

/-- Where `poll` is. -/
inductive PollPhase where
  | idle
  /-- `Active()` was true. -/
  | asking
  | replied (about : ℕ) (groups : List GroupStatus)
  /-- `wantedTag` is the tag of the group. -/
  | found (about : ℕ) (status : GroupStatus)
  /-- `build` is the one that was set when the tags were mapped. -/
  | mapped (next : AutoSelectorView) (usable : ℕ) (build : Option ℕ)
  | timed (next : AutoSelectorView) (usable : ℕ) (build : Option ℕ) (now : ℤ)
  | published (next : AutoSelectorView) (now : ℤ) (fireExhausted : Bool)
  | persisting (next : AutoSelectorView) (fireExhausted : Bool)
  /-- The default interface is asked for. -/
  | confirming (next : AutoSelectorView)
  deriving DecidableEq, Repr

/-- A `PersistHealth` with the members it still has to look at. -/
structure Persist where
  about : Option ℕ
  /-- Of the view the members come from. -/
  suspended : Bool
  members : List AutoSelectorMemberView
  deriving DecidableEq, Repr

inductive SelectPhase where
  | asked
  /-- The core has carried it out, in the build it ran. -/
  | handled (about : ℕ)
  | done
  deriving DecidableEq, Repr

/-- A `RequestSelect`, with the build that was set when it looked. -/
structure Select where
  build : Option ℕ
  tag : Text
  member : Text
  selectorID : ℤ
  memberID : ℤ
  phase : SelectPhase := .asked
  deriving DecidableEq, Repr

structure AutoSelectorMonitor where
  builds : ℕ → AutoSelectorBuildInfo
  profiles : List ℤ
  /-- The profiles with an `AutoSelector()`. -/
  selectors : List ℤ
  view : AutoSelectorView := {}
  tagToProfile : List (Text × ℤ) := []
  groupTag : Text := []
  profileID : ℤ := -1
  active : Bool := false
  /-- The build of the last `SetBuild`. -/
  build : Option ℕ := none
  exhaustedSince : ℤ := 0
  lastRebuildRequest : ℤ := 0
  rebuildBackoffSecs : ℤ := 0
  lastHealthPersist : ℤ := 0
  /-- The clock, in milliseconds. -/
  now : ℤ
  coreBuild : Option ℕ := none
  poll : PollPhase := .idle
  persists : List Persist := []
  selects : List Select := []
  latency : ℤ → ℤ := fun _ => 0
  pinnedID : ℤ → ℤ := fun _ => -1
  /-- The signals `poolExhausted`. -/
  emitted : List ℤ := []

def kPoolExhaustedGraceSecs : ℤ := 20
def kRebuildBackoffMinSecs : ℤ := 60
def kRebuildBackoffMaxSecs : ℤ := 600
def kHealthPersistSecs : ℤ := 60

namespace AutoSelectorMonitor

/-! ## Builds -/

def Clear (s : AutoSelectorMonitor) : AutoSelectorMonitor :=
  { s with
    active := false
    view := {}
    tagToProfile := []
    exhaustedSince := 0
    groupTag := []
    profileID := -1
    build := none }

/-- The first info of a build, or none for an ordinary profile. -/
def SetBuild (s : AutoSelectorMonitor) : Option ℕ → AutoSelectorMonitor
  | none => s.Clear
  | some k =>
    let info := s.builds k
    { s with
      tagToProfile := info.tagToProfile
      groupTag := info.groupTag
      profileID := info.profile
      exhaustedSince := 0
      view :=
        { valid := true, groupTag := info.groupTag, profileID := info.profile, about := some k }
      lastHealthPersist := s.now
      active := true
      build := some k }

/-! ## PersistHealth -/

/-- The locked section of `PersistHealth`. -/
def persistCopies (s : AutoSelectorMonitor) : AutoSelectorMonitor :=
  if s.active = false ∨ s.view.valid = false ∨ s.view.suspended = true then s
  else
    { s with
      persists := s.persists ++
        [{ about := s.view.about, suspended := s.view.suspended, members := s.view.members }]
      lastHealthPersist := s.now }

/-- The next member of a `PersistHealth`. -/
def persistWrites (s : AutoSelectorMonitor) (j : ℕ) : AutoSelectorMonitor :=
  match s.persists[j]? with
  | some p =>
    match p.members with
    | member :: members =>
      let s := { s with persists := s.persists.set j { p with members := members } }
      match member.health with
      | some latency =>
        if member.profileID ∉ s.profiles ∨ s.latency member.profileID = latency then s
        else { s with latency := Function.update s.latency member.profileID latency }
      | none => s
    | [] => s
  | none => s

/-! ## RequestSelect -/

/-- The locked section; an empty `member` restores the automatic choice. -/
def RequestSelect (s : AutoSelectorMonitor) (member : Text) : AutoSelectorMonitor :=
  if s.active = false then s
  else
    let memberID := if member = [] then -1 else profileOf s.tagToProfile member
    if member ≠ [] ∧ memberID < 0 then s
    else
      { s with
        selects := s.selects ++
          [{ build := s.build, tag := s.groupTag, member, selectorID := s.profileID, memberID }] }

/-- `AutoSelectorAction` in the core. -/
def coreSelects (s : AutoSelectorMonitor) (j : ℕ) (ok : Bool) : AutoSelectorMonitor :=
  match s.selects[j]?, s.coreBuild with
  | some request, some k =>
    if request.phase = .asked then
      { s with
        selects := s.selects.set j { request with phase := if ok then .handled k else .done } }
    else s
  | _, _ => s

def selectStores (s : AutoSelectorMonitor) (j : ℕ) : AutoSelectorMonitor :=
  match s.selects[j]? with
  | some request =>
    match request.phase with
    | .handled _ =>
      let s := { s with selects := s.selects.set j { request with phase := .done } }
      if request.selectorID ∈ s.selectors ∧ s.pinnedID request.selectorID ≠ request.memberID then
        { s with pinnedID := Function.update s.pinnedID request.selectorID request.memberID }
      else s
    | _ => s
  | none => s

/-! ## poll -/

/-- `Loop` begins a `poll`. -/
def Loop (s : AutoSelectorMonitor) : AutoSelectorMonitor :=
  match s.poll with
  | .idle => if s.active then { s with poll := .asking } else s
  | _ => s

/-- The reply to `QueryAutoSelectors`, or none. -/
def coreReplies (s : AutoSelectorMonitor) (reply : Option (List GroupStatus)) :
    AutoSelectorMonitor :=
  match s.poll with
  | .asking =>
    match s.coreBuild, reply with
    | some k, some groups => { s with poll := .replied k groups }
    | _, _ => { s with poll := .idle }
  | _ => s

/-- The wanted tag is read, and its group is looked for. -/
def findGroup (s : AutoSelectorMonitor) : AutoSelectorMonitor :=
  match s.poll with
  | .replied about groups =>
    if s.active = false then { s with poll := .idle }
    else
      match groups.find? fun group => group.tag = s.groupTag with
      | some status => { s with poll := .found about status }
      | none => { s with poll := .idle }
  | _ => s

def memberView (s : AutoSelectorMonitor) (pinned : Text) (member : MemberStatus) :
    AutoSelectorMemberView :=
  { tag := member.tag
    profileID := profileOf s.tagToProfile member.tag
    state := member.state
    averageMs := member.average_ms
    probes := member.probes
    selected := member.selected
    pinned := decide (pinned ≠ []) && decide (member.tag = pinned) }

/-- The view of a group; the last selected member counts. -/
def nextView (s : AutoSelectorMonitor) (about : ℕ) (status : GroupStatus) : AutoSelectorView :=
  let members := status.members.map (s.memberView status.pinned)
  { valid := true
    groupTag := status.tag
    profileID := s.profileID
    phase := status.phase
    selectedProfileID :=
      ((members.filter (·.selected)).getLast?.map (·.profileID)).getD (-1)
    pinnedTag := status.pinned
    suspended := status.suspended
    membersProbed := status.members_probed
    members
    about := some about }

def usableCount (members : List AutoSelectorMemberView) : ℕ :=
  members.countP fun member => member.isUsable || decide (member.state = .untested)

/-- The tags are mapped to profiles. -/
def mapMembers (s : AutoSelectorMonitor) : AutoSelectorMonitor :=
  match s.poll with
  | .found about status =>
    let next := s.nextView about status
    { s with poll := .mapped next (usableCount next.members) s.build }
  | _ => s

def readClock (s : AutoSelectorMonitor) : AutoSelectorMonitor :=
  match s.poll with
  | .mapped next usable build => { s with poll := .timed next usable build s.now }
  | _ => s

def everythingDead (next : AutoSelectorView) (usable : ℕ) : Bool :=
  decide (usable = 0) && decide (next.membersProbed > 0) && !next.suspended &&
    decide (next.phase ≠ .starting)

/-- `exhaustedSince` after a report. -/
def exhaustedAfter (s : AutoSelectorMonitor) (next : AutoSelectorView) (usable : ℕ) (now : ℤ) : ℤ :=
  if everythingDead next usable = false then 0
  else if s.exhaustedSince = 0 then now
  else s.exhaustedSince

/-- The grace period is over, and so is the backoff. -/
def fires (s : AutoSelectorMonitor) (exhaustedSince now : ℤ) : Bool :=
  decide (exhaustedSince ≠ 0) && decide (now - exhaustedSince ≥ kPoolExhaustedGraceSecs * 1000) &&
    (decide (s.lastRebuildRequest = 0) ||
      decide (now - s.lastRebuildRequest ≥ s.rebuildBackoffSecs * 1000))

/-- The view is published. -/
def publish (s : AutoSelectorMonitor) : AutoSelectorMonitor :=
  match s.poll with
  | .timed next usable _ now =>
    if s.active = false then { s with poll := .idle }
    else
      let since := s.exhaustedAfter next usable now
      let next := { next with exhaustedSinceMs := since }
      let fire := s.fires since now
      let backoff :=
        if s.rebuildBackoffSecs = 0 then kRebuildBackoffMinSecs
        else min (s.rebuildBackoffSecs * 2) kRebuildBackoffMaxSecs
      { s with
        exhaustedSince := if fire then 0 else since
        lastRebuildRequest := if fire then now else s.lastRebuildRequest
        rebuildBackoffSecs :=
          if usable > 0 then 0 else if fire then backoff else s.rebuildBackoffSecs
        view := next
        poll := .published next now fire }
  | _ => s

/-- What follows the publication and the health. -/
def afterHealth (s : AutoSelectorMonitor) (next : AutoSelectorView) (fireExhausted : Bool) :
    AutoSelectorMonitor :=
  { s with poll := if fireExhausted then .confirming next else .idle }

/-- `updated` is emitted, and it is seen whether the health is due. -/
def healthDue (s : AutoSelectorMonitor) : AutoSelectorMonitor :=
  match s.poll with
  | .published next now fire =>
    if now - s.lastHealthPersist ≥ kHealthPersistSecs * 1000 then
      { s with poll := .persisting next fire }
    else s.afterHealth next fire
  | _ => s

/-- The `PersistHealth` of the poll. -/
def pollPersists (s : AutoSelectorMonitor) : AutoSelectorMonitor :=
  match s.poll with
  | .persisting next fire => s.persistCopies.afterHealth next fire
  | _ => s

/-- `GetDefaultInterface` has answered. -/
def confirm (s : AutoSelectorMonitor) (interfaceOK nameEmpty : Bool) : AutoSelectorMonitor :=
  match s.poll with
  | .confirming next =>
    if interfaceOK && nameEmpty then { s with poll := .idle }
    else { s with poll := .idle, emitted := s.emitted ++ [next.profileID] }
  | _ => s

/-! ## The steps -/

inductive MonitorEvent where
  | SetBuild (build : Option ℕ)
  | Clear
  | persistCopies
  | persistWrites (j : ℕ)
  | RequestSelect (member : Text)
  | coreSelects (j : ℕ) (ok : Bool)
  | selectStores (j : ℕ)
  | Loop
  | coreReplies (reply : Option (List GroupStatus))
  | findGroup
  | mapMembers
  | readClock
  | publish
  | healthDue
  | pollPersists
  | confirm (interfaceOK nameEmpty : Bool)
  /-- The core starts a build or stops. -/
  | coreRuns (build : Option ℕ)
  | timePasses (ms : ℕ)
  deriving DecidableEq, Repr

def step (s : AutoSelectorMonitor) : MonitorEvent → AutoSelectorMonitor
  | .SetBuild build => s.SetBuild build
  | .Clear => s.Clear
  | .persistCopies => s.persistCopies
  | .persistWrites j => s.persistWrites j
  | .RequestSelect member => s.RequestSelect member
  | .coreSelects j ok => s.coreSelects j ok
  | .selectStores j => s.selectStores j
  | .Loop => s.Loop
  | .coreReplies reply => s.coreReplies reply
  | .findGroup => s.findGroup
  | .mapMembers => s.mapMembers
  | .readClock => s.readClock
  | .publish => s.publish
  | .healthDue => s.healthDue
  | .pollPersists => s.pollPersists
  | .confirm interfaceOK nameEmpty => s.confirm interfaceOK nameEmpty
  | .coreRuns build => { s with coreBuild := build }
  | .timePasses ms => { s with now := s.now + ms }

end AutoSelectorMonitor

end Throned.Stats
