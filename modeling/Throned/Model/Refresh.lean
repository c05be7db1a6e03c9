import Throned.Model.Reconcile

/-!
# Applying a subscription refresh

`GroupUpdater::applyRefresh` (src/configs/sub/GroupUpdater.cpp:1122-1400) on the rows a
group has in the database and on the ids its listing names.  Each operation of the database
has an answer of its own: a read may miss rows, an insert may be refused or lose rows
without saying so, and a delete is one transaction.
-/

set_option autoImplicit false

namespace Throned.Subscription

open Throned.Library

inductive Failure where
  | none
  | noGroup
  | fetch
  | empty
  | database
  | internal
  deriving DecidableEq, Repr

/-- The failure and the counts of an `UpdateOutcome`. -/
structure UpdateOutcome where
  failure : Failure := .none
  added : ℕ := 0
  updated : ℕ := 0
  removed : ℕ := 0
  kept : ℕ := 0
  deriving DecidableEq, Repr

/-- The calls of `deleteProfiles` in a refresh. -/
inductive DeleteCall where
  | clear
  | stale
  | flagged
  deriving DecidableEq, Repr

/-- The reads of whole profiles. -/
inductive ReadCall where
  | working
  | old
  | flagged
  | ofDelete (call : DeleteCall)
  deriving DecidableEq, Repr

/-- What a refresh is given: the settings, the profiles by their ids, and the document. -/
structure RefreshInput where
  urlChanged : Bool
  parseComplete : Bool
  arrivals : List Arrival
  sub_clear : Bool
  keep_working : Bool
  allow_stopping_active_profile : Bool
  keysOf : Int → ProfileKeys
  displayOf : Int → Text
  isWorking : Int → Bool
  /-- What `remove_duplicates`, `remove_insecure` and `remove_invalid` pick out. -/
  flags : Int → Bool
  keepsSorted : Bool
  less : Int → Int → Bool

/-- The answers of the database, and the running profile at each delete. -/
structure RefreshDb where
  selectorIds : List Int
  reads : ReadCall → Int → Bool
  /-- `AddProfileBatch`: refused, or the first id of the chunk. -/
  inserts : ℕ → Option Int
  /-- `execBatchInsertProfiles` reports no failure: whether a row reached the table. -/
  written : Int → Bool
  deletes : DeleteCall → Bool
  started_id : DeleteCall → Int

structure GroupState where
  /-- The rows of the group. -/
  rows : List Int
  /-- `group->profiles`. -/
  profiles : List Int
  /-- The rows this refresh has deleted. -/
  deleted : List Int
  deriving DecidableEq, Repr

structure DeleteOutcome where
  ok : Bool
  deleted : List Int
  kept : List Int
  deriving DecidableEq, Repr

/-! ## The repositories -/

/-- `GetProfileBatch`, chunk by chunk. -/
def forEachProfile (db : RefreshDb) (call : ReadCall) (s : GroupState) (ids : List Int) : List Int :=
  ids.filter fun id => db.reads call id && decide (id ∈ s.rows)

/-- The running profile is not deleted unless it may be stopped. -/
def trimmed (input : RefreshInput) (db : RefreshDb) (call : DeleteCall) (ids : List Int) : List Int :=
  if db.started_id call ∈ ids ∧ input.allow_stopping_active_profile = false then
    ids.filter fun id => id ≠ db.started_id call
  else ids

/-- The listing changes only if a deleted row could be read before. -/
def BatchDeleteProfiles (input : RefreshInput) (db : RefreshDb) (call : DeleteCall) (ids : List Int)
    (s : GroupState) : Bool × List Int × GroupState :=
  let ids := trimmed input db call ids
  if ids = [] then (true, ids, s)
  else
    let existing := forEachProfile db (.ofDelete call) s ids
    if db.deletes call = false then (false, ids, s)
    else
      (true, ids,
        { rows := s.rows.filter fun id => id ∉ ids
          profiles := if existing = [] then s.profiles else s.profiles.filter fun id => id ∉ ids
          deleted := s.deleted ++ s.rows.filter fun id => id ∈ ids })

def deleteProfiles (input : RefreshInput) (db : RefreshDb) (call : DeleteCall) (ids : List Int)
    (s : GroupState) : DeleteOutcome × GroupState :=
  let (ok, deleted, s) := BatchDeleteProfiles input db call ids s
  (⟨ok, deleted, ids.filter fun id => id ∉ deleted⟩, s)

/-- `Group::AddProfileBatch`. -/
def addProfileBatch (profiles added : List Int) : List Int :=
  added.foldl (fun profiles id => if id ∈ profiles then profiles else profiles ++ [id]) profiles

/-- The chunks that `AddProfileBatch` took. -/
def GroupState.insertAll (db : RefreshDb) (added : List Int) (s : GroupState) : GroupState :=
  { s with
    rows := s.rows ++ added.filter db.written
    profiles := addProfileBatch s.profiles added }

/-- `Group::Resort`, by a stable sort. -/
def GroupState.Resort (input : RefreshInput) (s : GroupState) : GroupState :=
  if input.keepsSorted then { s with profiles := s.profiles.mergeSort fun a b => !input.less b a }
  else s

/-! ## The refresh -/

/-- The auto selectors of the group and their positions. -/
def stickyOf (db : RefreshDb) (s : GroupState) : List (ℕ × Int) :=
  (s.profiles.zipIdx.filter fun x => decide (x.1 ∈ db.selectorIds)).map Prod.swap

/-- The listed profiles that are not sticky. -/
def members (sticky : List (ℕ × Int)) (s : GroupState) : List Int :=
  s.profiles.filter fun id => id ∉ sticky.map Prod.snd

def insertSticky (profiles : List Int) (x : ℕ × Int) : List Int :=
  profiles.insertIdx (min x.1 profiles.length) x.2

/-- A survivor that is not listed goes back to where it was. -/
def restore (previousOrder profiles : List Int) (id : Int) : List Int :=
  if id ∈ profiles then profiles
  else
    match previousOrder.idxOf? id with
    | none => profiles.insertIdx profiles.length id
    | some position => profiles.insertIdx (min position profiles.length) id

/-- What `sub_clear` deletes: the members, but not the working ones if these are kept. -/
def doomedMembers (input : RefreshInput) (db : RefreshDb) (sticky : List (ℕ × Int))
    (s : GroupState) : List Int :=
  let doomed := members sticky s
  if input.keep_working then
    let working := (forEachProfile db .working s doomed).filter input.isWorking
    doomed.filter fun id => id ∉ working
  else doomed

def oldEntry (input : RefreshInput) (id : Int) : OldEntry := ⟨id, input.keysOf id, input.displayOf id⟩

/-- What the end of a refresh needs of its beginning. -/
structure RefreshProgress where
  result : UpdateOutcome
  keptIds : List Int
  deleteFailed : Bool

def removeFlagged (input : RefreshInput) (db : RefreshDb) (ids : List Int) (s : GroupState) :
    DeleteOutcome × GroupState :=
  let doomed := (forEachProfile db .flagged s ids).filter input.flags
  if doomed = [] then (⟨true, [], []⟩, s) else deleteProfiles input db .flagged doomed s

def finishRefresh (input : RefreshInput) (db : RefreshDb) (sticky : List (ℕ × Int))
    (progress : RefreshProgress) (s : GroupState) : UpdateOutcome × GroupState :=
  let (flagged, s) := removeFlagged input db (members sticky s) s
  let result :=
    { progress.result with
      removed := progress.result.removed + flagged.deleted.length
      kept := (progress.keptIds ++ flagged.kept).dedup.length
      failure := if progress.deleteFailed || !flagged.ok then .database else progress.result.failure }
  (result, s.Resort input)

/-- The plan, applied. -/
def applyPlan (input : RefreshInput) (db : RefreshDb) (sticky : List (ℕ × Int))
    (result : UpdateOutcome) (old : List OldEntry) (working : List Int) (plan : ReconcilePlan)
    (s : GroupState) : RefreshProgress × GroupState :=
  let keptWorking := plan.stale.filter fun id => id ∈ working
  let stale := plan.stale.filter fun id => id ∉ working
  let previousOrder := s.profiles
  let s := { s with profiles := sticky.foldl insertSticky plan.order }
  let (outcome, s) := deleteProfiles input db .stale stale s
  let removed := old.countP fun entry => decide (entry.id ∈ outcome.deleted)
  (⟨{ result with added := plan.added.length, updated := plan.updates.length
                  removed := result.removed + removed },
      outcome.kept ++ keptWorking, !outcome.ok⟩,
    { s with profiles := (outcome.kept ++ keptWorking).foldl (restore previousOrder) s.profiles })

/-- A refresh after the clearing. -/
def refreshMembers (input : RefreshInput) (db : RefreshDb) (sticky : List (ℕ × Int))
    (cleared : Bool) (result : UpdateOutcome) (s : GroupState) : UpdateOutcome × GroupState :=
  let read := if cleared then [] else forEachProfile db .old s (members sticky s)
  let old := read.map (oldEntry input)
  let working := if input.keep_working then read.filter input.isWorking else []
  let sink := ImportSink.importAll db.inserts (if cleared then none else some (.ofOld old))
    input.arrivals
  let s := s.insertAll db sink.added
  if sink.entries = [] ∧ old ≠ [] then ({ result with failure := .empty }, s)
  else
    match sink.index with
    | none =>
      let stored := sink.entries.countP fun entry => decide (0 ≤ entry.id)
      finishRefresh input db sticky ⟨{ result with added := stored }, [], false⟩ s
    | some index =>
      let (progress, s) :=
        applyPlan input db sticky result old working (reconcile old sink.entries index) s
      finishRefresh input db sticky progress s

def applyRefresh (input : RefreshInput) (db : RefreshDb) (s : GroupState) :
    UpdateOutcome × GroupState :=
  if input.urlChanged then ({ failure := .fetch }, s)
  else if input.arrivals = [] then ({ failure := .empty }, s)
  else if input.parseComplete = false then ({ failure := .empty }, s)
  else
    let sticky := stickyOf db s
    if input.sub_clear then
      let (outcome, s) := deleteProfiles input db .clear (doomedMembers input db sticky s) s
      if outcome.ok = false then ({ failure := .database }, s)
      else
        refreshMembers input db sticky (members sticky s).isEmpty
          { removed := outcome.deleted.length } s
    else refreshMembers input db sticky false {} s

end Throned.Subscription
