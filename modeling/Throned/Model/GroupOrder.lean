import Throned.Library.Integers
import Throned.Library.OrderedLists
import Throned.Library.Positions
import Throned.Library.Utf16

/-!
# The order of a group's profiles

The member list of a group, its kept sort and the operations on both
(src/database/entities/Group.cpp:128-470 and include/database/entities/Group.h).

The doubles are a linear order with what is done to them.  What the sort keys read of a profile is
given by its id, and nothing else runs during a call.
-/

set_option autoImplicit false

namespace Throned.Entities

open Throned.Library

inductive GroupSortMethod where
  | Raw
  | ByType
  | ByAddress
  | ByName
  | ByTestResult
  | ById
  | ByTraffic
  | BySecurity
  | ByLatency
  deriving DecidableEq, Repr

structure GroupSortAction where
  method : GroupSortMethod := .Raw
  descending : Bool := false
  deriving DecidableEq, Repr

inductive TestBy where
  | latency
  | dlSpeed
  | ulSpeed
  | ipOut
  deriving DecidableEq, Repr

inductive TrafficBy where
  | total
  | dl
  | ul
  deriving DecidableEq, Repr

inductive TypeBy where
  | byType
  | bySecurity
  deriving DecidableEq, Repr

inductive SortInput where
  | Membership
  | Config
  | TestResult
  | Traffic
  deriving DecidableEq, Repr

/-- What sort keys read of an outbound. -/
structure OutboundTexts where
  DisplayType : Text
  name : Text
  DisplayEffectiveAddress : Text
  level : ℤ
  transport : Text
  label : Text

structure Profile where
  outbound : Option OutboundTexts
  latency : ℤ
  dl_speed : Text
  ul_speed : Text
  ip_out : Text
  traffic_downlink : ℤ
  traffic_uplink : ℤ

/-- The doubles that are no NaN. -/
structure Doubles (ν : Type*) where
  toDouble : Text → ν
  ofInt : ℤ → ν
  times : ν → ν → ν

/-- The settings and profiles that a sort reads. -/
structure Rows (ν : Type*) where
  doubles : Doubles ν
  show_config_security : Bool
  profile : ℤ → Option Profile

structure Group where
  profiles : List ℤ := []
  sort : GroupSortAction := {}
  test_sort_by : TestBy := .latency
  traffic_sort_by : TrafficBy := .total
  type_sort_by : TypeBy := .byType
  deriving DecidableEq, Repr

section Keys

variable {ν : Type*}

/-- A unit is matched in either case. -/
def endsWith (str unit : Text) : Bool :=
  ((str.drop (str.length - unit.length)).map Char.toLower) = unit.map Char.toLower

def bitrateToBps (d : Doubles ν) (str : Text) : ν :=
  let value := d.toDouble (str.take (str.length - 4))
  if endsWith str ['G', 'b', 'p', 's'] then d.times value (d.ofInt (10 ^ 9))
  else if endsWith str ['M', 'b', 'p', 's'] then d.times value (d.ofInt (10 ^ 6))
  else if endsWith str ['K', 'b', 'p', 's'] then d.times value (d.ofInt (10 ^ 3))
  else if str = ['N', '/', 'A'] then d.ofInt (-1)
  else d.ofInt 0

def sortReads (method : GroupSortMethod) (input : SortInput) : Bool :=
  match method with
  | .Raw => false
  | .ById => false
  | .ByTestResult => input = .Membership || input = .TestResult
  | .ByLatency => input = .Membership || input = .TestResult
  | .ByTraffic => input = .Membership || input = .Traffic
  | _ => input = .Membership || input = .Config

/-- Fields a method leaves unset stay equal. -/
structure SortKey (ν : Type*) where
  missing : Bool := false
  level : ℤ := 0
  number : ν
  text : Text := []

def latencyForSort (latency : ℤ) : ℤ :=
  if latency = 0 then 100000 else if latency < 0 then 99999 else latency

structure SortRule where
  group : Group
  method : GroupSortMethod
  descending : Bool
  byLatency : Bool

def SortRule.of (rows : Rows ν) (group : Group) (action : GroupSortAction) : SortRule :=
  let method :=
    if action.method = .ByType ∨ action.method = .BySecurity then
      if rows.show_config_security ∧ group.type_sort_by = .bySecurity then .BySecurity else .ByType
    else action.method
  { group
    method
    descending := action.descending
    byLatency := method = .ByLatency || (method = .ByTestResult && group.test_sort_by = .latency) }

def SortRule.keyOf (rule : SortRule) (d : Doubles ν) (profile : Option Profile) : SortKey ν :=
  let key : SortKey ν := { number := d.ofInt 0 }
  match profile with
  | none => { key with missing := true }
  | some profile =>
    match profile.outbound with
    | none => { key with missing := true }
    | some outbound =>
      if rule.method = .ByType then { key with text := outbound.DisplayType }
      else if rule.method = .ByName then { key with text := outbound.name }
      else if rule.method = .ByAddress then { key with text := outbound.DisplayEffectiveAddress }
      else if rule.method = .BySecurity then
        { key with level := outbound.level, text := outbound.transport ++ outbound.label }
      else if rule.byLatency then
        { key with number := d.ofInt (latencyForSort profile.latency) }
      else if rule.method = .ByTestResult then
        match rule.group.test_sort_by with
        | .dlSpeed => { key with number := bitrateToBps d profile.dl_speed }
        | .ulSpeed => { key with number := bitrateToBps d profile.ul_speed }
        | _ => { key with text := profile.ip_out }
      else if rule.method = .ByTraffic then
        match rule.group.traffic_sort_by with
        | .dl => { key with number := d.ofInt profile.traffic_downlink }
        | .ul => { key with number := d.ofInt profile.traffic_uplink }
        | .total => { key with number := d.ofInt (profile.traffic_downlink + profile.traffic_uplink) }
      else key

variable [LinearOrder ν]

def ascending (a b : SortKey ν) : Bool :=
  if a.level ≠ b.level then a.level < b.level
  else if a.number ≠ b.number then a.number < b.number
  else decide (utf16 a.text < utf16 b.text)

/-- A profile that cannot be loaded goes last in either direction. -/
def SortRule.less (rule : SortRule) (a b : SortKey ν) : Bool :=
  if a.missing ≠ b.missing then b.missing
  else if rule.descending then ascending b a
  else ascending a b

/-- The key of an id in `SortKeys`. -/
def SortRule.key (rule : SortRule) (rows : Rows ν) (id : ℤ) : SortKey ν :=
  rule.keyOf rows.doubles (rows.profile id)

/-- `SortKeys::less`. -/
def SortRule.lessId (rule : SortRule) (rows : Rows ν) (a b : ℤ) : Bool :=
  rule.less (rule.key rows a) (rule.key rows b)

end Keys

namespace Group

def kSortAttempts : ℕ := 3

def SortReads (group : Group) (input : SortInput) : Bool := sortReads group.sort.method input

def KeepsSorted (group : Group) : Bool := group.SortReads .Membership

inductive Commit where
  | Moved (group : Group)
  | Unchanged
  | Stale

def commit (group : Group) (snapshot : List ℤ) (action : GroupSortAction) (order : List ℤ) :
    Commit :=
  if group.profiles ≠ snapshot ∨ group.sort ≠ action then .Stale
  else if order = group.profiles then .Unchanged
  else .Moved { group with profiles := order }

def SetSort (group : Group) (action : GroupSortAction) : Group := { group with sort := action }

variable {ν : Type*} [LinearOrder ν]

/-- The order that the kept sort would give. -/
def fullOrder (group : Group) (rows : Rows ν) : List ℤ :=
  stableSort ((SortRule.of rows group group.sort).lessId rows) group.profiles

/-- The attempts of `Resort`, and whether the order moved. -/
def resortAttempts (rows : Rows ν) : ℕ → Group → Bool × Group
  | 0, group => (false, group)
  | attempts + 1, group =>
    if group.KeepsSorted = false then (false, group)
    else
      match group.commit group.profiles group.sort (group.fullOrder rows) with
      | .Moved group => (true, group)
      | .Unchanged => (false, group)
      | .Stale => resortAttempts rows attempts group

def Resort (group : Group) (rows : Rows ν) : Bool × Group := resortAttempts rows kSortAttempts group

def SortProfiles (group : Group) (rows : Rows ν) (action : GroupSortAction) : Bool × Group :=
  (group.SetSort action).Resort rows

/-- `std::bit_width`. -/
def bitWidth (count : ℕ) : ℕ := if count = 0 then 0 else count.log2 + 1

/-- Every changed row fits its neighbours. -/
def inPlace (less : ℤ → ℤ → Bool) (snapshot : List ℤ) (positions : List ℕ) : Bool :=
  positions.all fun i =>
    (i = 0 || !(match snapshot[i]?, snapshot[i - 1]? with
      | some id, some before => less id before
      | _, _ => false)) &&
    (i + 1 = snapshot.length || !(match snapshot[i + 1]?, snapshot[i]? with
      | some after, some id => less after id
      | _, _ => false))

/-- The order with every changed row lifted and put in again. -/
def reinserted (less : ℤ → ℤ → Bool) (snapshot changed : List ℤ) : List ℤ :=
  (snapshot.filter (· ∈ changed)).foldl (insertSorted less) (snapshot.filter (· ∉ changed))

/-- The attempts of `Reposition`, and whether the order moved. -/
def repositionAttempts (rows : Rows ν) (changed : List ℤ) : ℕ → Group → Bool × Group
  | 0, group => (false, group)
  | attempts + 1, group =>
    if group.KeepsSorted = false then (false, group)
    else
      let snapshot := group.profiles
      let places := positions (· ∈ changed) snapshot
      if places = [] then (false, group)
      else if snapshot.length ≤ places.length * (bitWidth snapshot.length + 4) then
        group.Resort rows
      else
        let less := (SortRule.of rows group group.sort).lessId rows
        if inPlace less snapshot places then (false, group)
        else
          match group.commit snapshot group.sort (reinserted less snapshot changed) with
          | .Moved group => (true, group)
          | .Unchanged => (false, group)
          | .Stale => repositionAttempts rows changed attempts group

def Reposition (group : Group) (rows : Rows ν) (changed : List ℤ) : Bool × Group :=
  if changed = [] then (false, group) else repositionAttempts rows changed kSortAttempts group

/-! ## Members -/

def HasProfile (group : Group) (ID : ℤ) : Bool := ID ∈ group.profiles

def AddProfile (group : Group) (ID : ℤ) : Bool × Group :=
  if group.HasProfile ID then (false, group)
  else (true, { group with profiles := group.profiles ++ [ID] })

/-- `currentProfiles` is the set of the members before the call. -/
def AddProfileBatch (group : Group) (IDs : List ℤ) : Bool × Group :=
  let currentProfiles := group.profiles
  (true, { group with profiles := group.profiles ++ IDs.filter (· ∉ currentProfiles) })

def RemoveProfile (group : Group) (ID : ℤ) : Bool × Group :=
  if group.HasProfile ID = false then (false, group)
  else (true, { group with profiles := group.profiles.filter (· ≠ ID) })

def RemoveProfileBatch (group : Group) (IDs : List ℤ) : Bool × Group :=
  (true, { group with profiles := group.profiles.filter (· ∉ IDs) })

/-- Two items change places. -/
def swapItemsAt (l : List ℤ) (i j : ℕ) : List ℤ :=
  match l[i]?, l[j]? with
  | some a, some b => (l.set i b).set j a
  | _, _ => l

def SwapProfiles (group : Group) (idx1 idx2 : ℕ) : Bool × Group :=
  if group.profiles.length ≤ idx1 ∨ group.profiles.length ≤ idx2 then (false, group)
  else (true, { group with profiles := swapItemsAt group.profiles idx1 idx2 })

/-- The member is put in behind the new place, and taken out at its old one. -/
def emplaced (l : List ℤ) (idx newIdx : ℕ) : List ℤ :=
  match l[idx]? with
  | some id =>
    let inserted := l.take (newIdx + 1) ++ id :: l.drop (newIdx + 1)
    if idx < newIdx then inserted.eraseIdx idx else inserted.eraseIdx (idx + 1)
  | none => l

def EmplaceProfile (group : Group) (idx newIdx : ℕ) : Bool × Group :=
  if group.profiles.length ≤ idx ∨ group.profiles.length ≤ newIdx then (false, group)
  else (true, { group with profiles := emplaced group.profiles idx newIdx })

/-! ## Sequences of operations -/

/-- A call on the group, with what the sorts read while it runs. -/
inductive Operation (ν : Type*) where
  | AddProfile (ID : ℤ)
  | AddProfileBatch (IDs : List ℤ)
  | RemoveProfile (ID : ℤ)
  | RemoveProfileBatch (IDs : List ℤ)
  | SwapProfiles (idx1 idx2 : ℕ)
  | EmplaceProfile (idx newIdx : ℕ)
  | SortProfiles (rows : Rows ν) (action : GroupSortAction)
  | Reposition (rows : Rows ν) (changed : List ℤ)

def step (group : Group) : Operation ν → Group
  | .AddProfile ID => (group.AddProfile ID).2
  | .AddProfileBatch IDs => (group.AddProfileBatch IDs).2
  | .RemoveProfile ID => (group.RemoveProfile ID).2
  | .RemoveProfileBatch IDs => (group.RemoveProfileBatch IDs).2
  | .SwapProfiles idx1 idx2 => (group.SwapProfiles idx1 idx2).2
  | .EmplaceProfile idx newIdx => (group.EmplaceProfile idx newIdx).2
  | .SortProfiles rows action => (group.SortProfiles rows action).2
  | .Reposition rows changed => (group.Reposition rows changed).2

end Group

end Throned.Entities
