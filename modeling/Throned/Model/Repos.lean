import Mathlib.Data.List.Basic
import Mathlib.Logic.Function.Basic
import Mathlib.Tactic.Common
import Throned.Library.Transition

/-!
# The profile and group repositories

`ProfilesRepo` and `GroupsRepo` (src/database/ProfilesRepo.cpp:215-592 and
src/database/GroupsRepo.cpp:204-460) over their two tables.  Each locked section is one step,
and so is every part of a call between two of them.  Any statement of the database may fail:
a failed read finds nothing, and a failed write changes nothing.
-/

set_option autoImplicit false

namespace Throned.Database

/-- A profile object, as far as the repositories read it. -/
structure Profile where
  id : Int
  gid : Int
  deriving DecidableEq, Repr

structure Group where
  id : Int
  profiles : List Int
  deriving DecidableEq, Repr

/-- The answers of the database to the reads and the writes of one section, in their order. -/
structure DbAnswers where
  reads : ℕ → Bool
  writes : ℕ → Bool

def DbAnswers.allOk : DbAnswers := { reads := fun _ => true, writes := fun _ => true }

/-- Where a call stands.  Objects are named by their places in `Repos.profiles` and
`Repos.groups`. -/
inductive Call where
  /-- `AddProfile` after `NewProfileID`. -/
  | addInsert (profile : ℕ) (newId : Int)
  | addFind (profile : ℕ)
  | addList (profile group : ℕ)
  | addSave (group : ℕ)
  /-- `AddProfileBatch` before its first look at the group. -/
  | batchFind (profiles : List ℕ) (gid : Int)
  | batchRange (toAdd : List ℕ) (gid : Int) (group : ℕ)
  | batchInsert (toAdd : List ℕ) (gid : Int) (group : ℕ) (firstId : Int)
  /-- The thread of `SaveBatch`. -/
  | saveBatchRows (profiles : List ℕ)
  | saveBatchWrite (rows : List Profile) (valid : List ℕ)
  /-- `BatchDeleteProfiles` with the ids it was left with. -/
  | deleteRead (ids : List Int)
  | deleteRows (ids existing groupIDs : List Int)
  | unlist (ids groupIDs : List Int)
  | unlistFrom (ids : List Int) (group : ℕ) (groupIDs : List Int)
  | unlistSave (ids : List Int) (group : ℕ) (groupIDs : List Int)
  | groupFind (id : Int)
  | groupDelete (id : Int) (listed : List Int) (found : Bool)
  | finished (result : Bool)
  deriving DecidableEq, Repr

structure Repos where
  /-- The table `profiles`: the `gid` of the row with an id. -/
  profileRows : Int → Option Int
  /-- The table `groups`: the `profiles_json` of the row with an id. -/
  groupRows : Int → Option (List Int)
  /-- `entity_ids`. -/
  profile_last_id : Int
  group_last_id : Int
  identityMap : Int → Option ℕ
  tombstones : Int → Bool
  memMap : Int → Option ℕ
  groupTombstones : Int → Bool
  /-- The profile objects of the process; one that was released is `none`. -/
  profiles : List (Option Profile)
  groups : List Group
  calls : List Call

namespace Repos

/-! ## `GroupsRepo` -/

/-- The copies of an id in a persisted listing after the first are dropped on the way in, and
the listing is then written back. -/
def loadGroup (s : Repos) (id : Int) (listing : List Int) (write : Bool) : Repos :=
  let unique := listing.eraseDups
  { s with
    groupRows :=
      if unique.length ≠ listing.length ∧ write then Function.update s.groupRows id (some unique)
      else s.groupRows
    groups := s.groups ++ [⟨id, unique⟩]
    memMap := Function.update s.memMap id (some s.groups.length) }

def GetGroup (s : Repos) (id : Int) (db : DbAnswers) : Repos × Option ℕ :=
  match s.memMap id with
  | some group => (s, some group)
  | none =>
    match s.groupRows id with
    | none => (s, none)
    | some listing =>
      if db.reads 0 then (s.loadGroup id listing (db.writes 0), some s.groups.length)
      else (s, none)

def saveGroup (s : Repos) (group : ℕ) (write : Bool) : Repos × Bool :=
  match s.groups[group]? with
  | none => (s, false)
  | some g =>
    if g.id < 0 then (s, false)
    else if s.groupTombstones g.id then (s, false)
    else
      ({ s with
          groupRows :=
            if write then Function.update s.groupRows g.id (some g.profiles) else s.groupRows
          memMap := Function.update s.memMap g.id (some group) }, true)

/-- `AddGroup`, of a group that was not added before. -/
def AddGroup (s : Repos) (db : DbAnswers) : Repos :=
  let newId := if db.writes 0 then s.group_last_id + 1 else 0
  { s with
    group_last_id := if db.writes 0 then s.group_last_id + 1 else s.group_last_id
    groupRows := if db.writes 1 then Function.update s.groupRows newId (some []) else s.groupRows
    groups := s.groups ++ [⟨newId, []⟩]
    memMap := Function.update s.memMap newId (some s.groups.length) }

/-- What the callers of the repositories do to the listing of a group. -/
def editGroup (s : Repos) (group : ℕ) (edit : List Int → List Int) : Repos :=
  match s.groups[group]? with
  | none => s
  | some g => { s with groups := s.groups.set group { g with profiles := edit g.profiles } }

/-- `Group::AddProfileBatch`, and `Group::AddProfile` for a single id. -/
def listIds (ids listing : List Int) : List Int :=
  listing ++ ids.filter fun id => id ∉ listing

/-- `Group::RemoveProfileBatch`. -/
def unlistIds (ids listing : List Int) : List Int := listing.filter fun id => id ∉ ids

/-! ## The rows of the profiles

`profiles.gid` references `groups.id`: a row whose group is missing is not written. -/

def saveToDatabase (s : Repos) (p : Profile) (write : Bool) : Repos :=
  { s with
    profileRows :=
      if write ∧ (s.groupRows p.gid).isSome then Function.update s.profileRows p.id (some p.gid)
      else s.profileRows }

def writeRows (table : Int → Option Int) (rows : List Profile) : Int → Option Int :=
  rows.foldl (fun table row => Function.update table row.id (some row.gid)) table

/-- The `k`-th statement of a batch, of `size` rows at most. -/
def chunk {α : Type} (size k : ℕ) (rows : List α) : List α := (rows.drop (k * size)).take size

def chunkCount {α : Type} (size : ℕ) (rows : List α) : ℕ := (rows.length + size - 1) / size

def BATCH_LIMIT_READ : ℕ := 4096

/-- `BATCH_LIMIT_WRITE / 15`: a row has 15 parameters. -/
def rowsPerStatement : ℕ := 1500 / 15

/-- One `INSERT` of many rows: all of them, or none where a group is missing or an id taken. -/
def execBatchInsertProfilesChunk (s : Repos) (rows : List Profile) (write : Bool) : Repos :=
  { s with
    profileRows :=
      if write ∧ (∀ row ∈ rows, (s.groupRows row.gid).isSome ∧ (s.profileRows row.id).isNone) ∧
          (rows.map Profile.id).Nodup then
        writeRows s.profileRows rows
      else s.profileRows }

def execBatchInsertProfiles (s : Repos) (rows : List Profile) (writes : ℕ → Bool) : Repos :=
  (List.range (chunkCount rowsPerStatement rows)).foldl (fun s k =>
    s.execBatchInsertProfilesChunk (chunk rowsPerStatement k rows) (writes k)) s

/-- One `INSERT OR REPLACE` of many rows: all of them, or none where a group is missing. -/
def execBatchReplaceProfilesChunk (s : Repos) (rows : List Profile) (write : Bool) : Repos :=
  { s with
    profileRows :=
      if write ∧ ∀ row ∈ rows, (s.groupRows row.gid).isSome then writeRows s.profileRows rows
      else s.profileRows }

def execBatchReplaceProfiles (s : Repos) (rows : List Profile) (writes : ℕ → Bool) : Repos :=
  (List.range (chunkCount rowsPerStatement rows)).foldl (fun s k =>
    s.execBatchReplaceProfilesChunk (chunk rowsPerStatement k rows) (writes k)) s

/-! ## The objects of the profiles -/

/-- The live object at a place. -/
def object (s : Repos) (profile : ℕ) : Option Profile := (s.profiles[profile]?).join

/-- The object the identity map still holds for an id. -/
def mapped (s : Repos) (id : Int) : Option Profile := (s.identityMap id).bind s.object

/-- An object is made of a row, and the identity map remembers it. -/
def loadProfile (s : Repos) (id gid : Int) : Repos :=
  { s with
    profiles := s.profiles ++ [some ⟨id, gid⟩]
    identityMap := Function.update s.identityMap id (some s.profiles.length) }

def GetProfile (s : Repos) (id : Int) (db : DbAnswers) : Repos :=
  match s.mapped id with
  | some _ => s
  | none =>
    match s.profileRows id with
    | none => { s with identityMap := Function.update s.identityMap id none }
    | some gid =>
      if db.reads 0 then s.loadProfile id gid
      else { s with identityMap := Function.update s.identityMap id none }

/-- The rows of the ids that the identity map misses, read in chunks of `BATCH_LIMIT_READ`. -/
def loadProfilesByIds (s : Repos) (missingIds : List Int) (reads : ℕ → Bool) : List Profile :=
  List.eraseDups <| (List.range (chunkCount BATCH_LIMIT_READ missingIds)).flatMap fun k =>
    if reads k then
      (chunk BATCH_LIMIT_READ k missingIds).filterMap fun id =>
        (s.profileRows id).map fun gid => ⟨id, gid⟩
    else []

/-- `GetProfileBatch`: the profiles found for the ids, in their order. -/
def GetProfileBatch (s : Repos) (ids : List Int) (reads : ℕ → Bool) : Repos × List Profile :=
  let missingIds := ids.filter fun id => (s.mapped id).isNone
  let loaded := s.loadProfilesByIds missingIds reads
  let s' := { s with
    identityMap := fun id => if id ∈ missingIds then none else s.identityMap id }
  (loaded.foldl (fun s p => s.loadProfile p.id p.gid) s',
    ids.filterMap fun id => (s.mapped id).or (loaded.find? fun p => p.id = id))

/-- Gives objects the ids from `firstId` on, and a group. -/
def assignIds (s : Repos) (toAdd : List ℕ) (firstId gid : Int) : Repos :=
  toAdd.zipIdx.foldl (fun s entry =>
    { s with
      profiles := s.profiles.set entry.1 (some ⟨firstId + entry.2, gid⟩)
      identityMap := Function.update s.identityMap (firstId + entry.2) (some entry.1) }) s

/-! ## The calls -/

/-- `DeleteAndForget` once its rows are gone. -/
def forget (s : Repos) (deletedIds : Int → Bool) : Repos :=
  { s with
    identityMap := fun id => if deletedIds id then none else s.identityMap id
    tombstones := fun id => deletedIds id || s.tombstones id }

/-- The section of `BatchDeleteProfiles`: the ids go, and those that were found before are
forgotten. -/
def batchDelete (s : Repos) (ids existing : List Int) : Repos :=
  { s with profileRows := fun id => if id ∈ ids then none else s.profileRows id }.forget
    fun id => id ∈ existing

/-- The section of `DeleteGroup`: the rows of the group, listed or not, go with it, so that
`ON DELETE CASCADE` finds none. -/
def deleteGroup (s : Repos) (gid : Int) (listed : List Int) (found : Bool) : Repos :=
  let profileIds : Int → Bool := fun id => id ∈ listed ∨ s.profileRows id = some gid
  { s with
    profileRows := fun id => if profileIds id then none else s.profileRows id
    groupRows := Function.update s.groupRows gid none
    memMap := Function.update s.memMap gid none
    groupTombstones := fun id => (found ∧ id = gid) ∨ s.groupTombstones id }.forget profileIds

/-- `Save`: a deleted id is not written back. -/
def Save (s : Repos) (profile : ℕ) (write : Bool) : Repos × Bool :=
  match s.object profile with
  | none => (s, false)
  | some p =>
    if p.id < 0 then (s, false)
    else if s.tombstones p.id then (s, false)
    else
      let s := s.saveToDatabase p write
      ({ s with identityMap := Function.update s.identityMap p.id (some profile) }, true)

/-- The last section of `AddProfileBatch`. -/
def insertBatch (s : Repos) (toAdd : List ℕ) (firstId gid : Int) (writes : ℕ → Bool) : Repos :=
  let s := s.assignIds toAdd firstId gid
  s.execBatchInsertProfiles (toAdd.filterMap s.object) writes

/-- The section of `SaveBatch`, on rows made before. -/
def saveRows (s : Repos) (rows : List Profile) (valid : List ℕ) (writes : ℕ → Bool) : Repos :=
  let s := s.execBatchReplaceProfiles (rows.filter fun row => !s.tombstones row.id) writes
  valid.foldl (fun s profile =>
    match s.object profile with
    | none => s
    | some p =>
      if s.tombstones p.id then s
      else { s with identityMap := Function.update s.identityMap p.id (some profile) }) s

/-- One section of a call, or what it does between two of them. -/
def resume (s : Repos) (db : DbAnswers) : Call → Repos × Call
  | .addInsert profile newId =>
    match s.object profile with
    | none => (s, .finished false)
    | some p =>
      match s.GetGroup p.gid db with
      | (s, none) => (s, .finished false)
      | (s, some _) =>
        let s := { s with identityMap := Function.update s.identityMap newId (some profile) }
        (s.saveToDatabase p (db.writes 1), .addFind profile)
  | .addFind profile =>
    match s.object profile with
    | none => (s, .finished false)
    | some p =>
      match s.GetGroup p.gid db with
      | (s, none) => (s, .finished false)
      | (s, some group) => (s, .addList profile group)
  | .addList profile group =>
    match s.object profile with
    | none => (s, .finished false)
    | some p => (s.editGroup group (listIds [p.id]), .addSave group)
  | .addSave group => ((s.saveGroup group (db.writes 0)).1, .finished true)
  | .batchFind profiles gid =>
    match s.GetGroup gid db with
    | (s, none) => (s, .finished false)
    | (s, some group) =>
      let toAdd := profiles.filter fun profile => (s.object profile).any fun p => p.id < 0
      (s, if toAdd = [] then .finished true else .batchRange toAdd gid group)
  | .batchRange toAdd gid group =>
    -- the range of a counter that could not be moved starts at 0
    if db.writes 0 then
      ({ s with profile_last_id := s.profile_last_id + toAdd.length },
        .batchInsert toAdd gid group (s.profile_last_id + 1))
    else (s, .batchInsert toAdd gid group 0)
  | .batchInsert toAdd gid group firstId =>
    match s.GetGroup gid db with
    | (s, none) => (s, .finished false)
    | (s, some _) =>
      let s := s.insertBatch toAdd firstId gid (fun k => db.writes (k + 1))
      let s := s.editGroup group (listIds ((toAdd.filterMap s.object).map Profile.id))
      ((s.saveGroup group (db.writes (chunkCount rowsPerStatement toAdd + 1))).1, .finished true)
  | .saveBatchRows profiles =>
    let valid := profiles.filter fun profile => (s.object profile).any fun p => 0 ≤ p.id
    (s, if valid = [] then .finished true else .saveBatchWrite (valid.filterMap s.object) valid)
  | .saveBatchWrite rows valid => (s.saveRows rows valid db.writes, .finished true)
  | .deleteRead ids =>
    let (s, profiles) := s.GetProfileBatch ids db.reads
    (s, .deleteRows ids (profiles.map Profile.id) (profiles.map Profile.gid).eraseDups)
  | .deleteRows ids existing groupIDs =>
    if db.writes 0 then (s.batchDelete ids existing, .unlist ids groupIDs)
    else (s, .finished false)
  | .unlist _ [] => (s, .finished true)
  | .unlist ids (gid :: groupIDs) =>
    match s.GetGroup gid db with
    | (s, none) => (s, .unlist ids groupIDs)
    | (s, some group) => (s, .unlistFrom ids group groupIDs)
  | .unlistFrom ids group groupIDs =>
    (s.editGroup group (unlistIds ids), .unlistSave ids group groupIDs)
  | .unlistSave ids group groupIDs =>
    ((s.saveGroup group (db.writes 0)).1, .unlist ids groupIDs)
  | .groupFind id =>
    match s.GetGroup id db with
    | (s, none) => (s, .groupDelete id [] false)
    | (s, some group) =>
      (s, .groupDelete id ((s.groups[group]?).elim [] Group.profiles) true)
  | .groupDelete id listed found =>
    if db.writes 0 then (s.deleteGroup id listed found, .finished true)
    else (s, .finished false)
  | .finished result => (s, .finished result)

/-- The next section of the call number `k`. -/
def advance (s : Repos) (k : ℕ) (db : DbAnswers) : Repos :=
  match s.calls[k]? with
  | none => s
  | some call =>
    let (s, next) := s.resume db call
    { s with calls := s.calls.set k next }

end Repos

/-- The objects a call gives ids to.  They are its own until it has inserted their rows: an
id is plain data that no lock guards, so nobody else may be using the object. -/
def Call.adding : Call → List ℕ
  | .addInsert profile _ => [profile]
  | .batchFind profiles _ => profiles
  | .batchRange toAdd _ _ => toAdd
  | .batchInsert toAdd _ _ _ => toAdd
  | _ => []

/-- The objects a call has a reference to. -/
def Call.holding : Call → List ℕ
  | .addFind profile => [profile]
  | .addList profile _ => [profile]
  | .saveBatchRows profiles => profiles
  | .saveBatchWrite _ valid => valid
  | call => call.adding

namespace Repos

def beingAdded (s : Repos) (profile : ℕ) : Prop := ∃ call ∈ s.calls, profile ∈ call.adding

def isHeld (s : Repos) (profile : ℕ) : Prop := ∃ call ∈ s.calls, profile ∈ call.holding

instance (s : Repos) (profile : ℕ) : Decidable (s.beingAdded profile) :=
  inferInstanceAs (Decidable (∃ call ∈ s.calls, profile ∈ call.adding))

instance (s : Repos) (profile : ℕ) : Decidable (s.isHeld profile) :=
  inferInstanceAs (Decidable (∃ call ∈ s.calls, profile ∈ call.holding))

/-- `AddProfile` up to the lock, with `NewProfileID`: a counter that cannot be moved gives 0. -/
def AddProfile (s : Repos) (profile : ℕ) (gid current_group : Int) (write : Bool) : Repos :=
  match s.object profile with
  | none => s
  | some p =>
    if 0 ≤ p.id then { s with calls := s.calls ++ [.finished false] }
    else
      let newId := if write then s.profile_last_id + 1 else 0
      { s with
        profile_last_id := if write then s.profile_last_id + 1 else s.profile_last_id
        profiles := s.profiles.set profile (some ⟨newId, if gid < 0 then current_group else gid⟩)
        calls := s.calls ++ [.addInsert profile newId] }

/-- The running profile is stopped, or dropped from the ids. -/
def BatchDeleteProfiles (s : Repos) (ids : List Int) (stopRunningProfile : Bool)
    (started_id : Int) : Repos :=
  let ids := if stopRunningProfile then ids else ids.filter fun id => id ≠ started_id
  { s with
    calls := s.calls ++ [if ids = [] then .finished true else .deleteRead ids] }

/-- A profile object of the process changes its group. -/
def moveProfile (s : Repos) (profile : ℕ) (gid : Int) : Repos :=
  match s.object profile with
  | none => s
  | some p => { s with profiles := s.profiles.set profile (some { p with gid := gid }) }

inductive Event where
  | newProfile
  | getProfile (id : Int) (db : DbAnswers)
  | moveProfile (profile : ℕ) (gid : Int)
  | release (profile : ℕ)
  | addGroup (db : DbAnswers)
  | getGroup (id : Int) (db : DbAnswers)
  | editGroup (group : ℕ) (edit : List Int → List Int)
  | saveGroup (group : ℕ) (write : Bool)
  | addProfile (profile : ℕ) (gid current_group : Int) (write : Bool)
  | addProfileBatch (profiles : List ℕ) (gid current_group : Int)
  | save (profile : ℕ) (write : Bool)
  | saveBatch (profiles : List ℕ)
  | batchDeleteProfiles (ids : List Int) (stopRunningProfile : Bool) (started_id : Int)
  | deleteGroup (id : Int)
  | advance (k : ℕ) (db : DbAnswers)

def step (s : Repos) : Event → Repos
  | .newProfile => { s with profiles := s.profiles ++ [some ⟨-1, 0⟩] }
  | .getProfile id db => s.GetProfile id db
  | .moveProfile profile gid => if s.beingAdded profile then s else s.moveProfile profile gid
  | .release profile =>
    if s.isHeld profile then s else { s with profiles := s.profiles.set profile none }
  | .addGroup db => s.AddGroup db
  | .getGroup id db => (s.GetGroup id db).1
  | .editGroup group edit => s.editGroup group edit
  | .saveGroup group write => (s.saveGroup group write).1
  | .addProfile profile gid current_group write =>
    if s.isHeld profile then s else s.AddProfile profile gid current_group write
  | .addProfileBatch profiles gid current_group =>
    if ∃ profile ∈ profiles, s.isHeld profile ∨ s.object profile = none then s
    else
      { s with
        calls := s.calls ++ [.batchFind profiles (if gid < 0 then current_group else gid)] }
  | .save profile write => if s.beingAdded profile then s else (s.Save profile write).1
  | .saveBatch profiles =>
    if ∃ profile ∈ profiles, s.beingAdded profile then s
    else { s with calls := s.calls ++ [.saveBatchRows profiles] }
  | .batchDeleteProfiles ids stopRunningProfile started_id =>
    s.BatchDeleteProfiles ids stopRunningProfile started_id
  | .deleteGroup id => { s with calls := s.calls ++ [.groupFind id] }
  | .advance k db => s.advance k db

/-- A process that has just opened its database: every row of a profile is in a group, and
the ids come from the counters. -/
structure Opened (s : Repos) : Prop where
  grouped : ∀ id gid, s.profileRows id = some gid → (s.groupRows gid).isSome
  numbered : ∀ id, (s.profileRows id).isSome → id ≤ s.profile_last_id
  groupsNumbered : ∀ gid, (s.groupRows gid).isSome → gid ≤ s.group_last_id
  counted : 0 ≤ s.profile_last_id
  identityMap : s.identityMap = fun _ => none
  tombstones : s.tombstones = fun _ => false
  memMap : s.memMap = fun _ => none
  groupTombstones : s.groupTombstones = fun _ => false
  profiles : s.profiles = []
  groups : s.groups = []
  calls : s.calls = []

end Repos

/-- Any interleaving of the calls. -/
def repos : Library.System Repos where
  init := Repos.Opened
  step s t := ∃ event, t = s.step event

end Throned.Database
