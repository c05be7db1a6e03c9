import Throned.Library.Transition
import Throned.Model.IpListParse

/-!
# The generations of an IP list

`IpListsRepo` (src/database/IpListsRepo.cpp:154-314 and 420-697) on one list: its header row,
its rows in `ip_list_entries`, and the calls in flight.  Each transaction is one step, and so
is each read under the write mutex.  A transaction may fail, and then changes nothing; the
process may exit between any two steps.
-/

set_option autoImplicit false

namespace Throned.IpLists

open Throned.Library Throned.Scanner

/-! ## The table -/

/-- A row of `ip_list_entries`. -/
structure EntryRow where
  generation : ℕ
  entry_order : Int
  entry : IpListEntry
  deriving DecidableEq, Repr

namespace EntryRow

/-- The order of the primary key. -/
def Before (a b : EntryRow) : Prop :=
  a.generation < b.generation ∨ (a.generation = b.generation ∧ a.entry_order < b.entry_order)

/-- The columns of the unique index. -/
def target (a : EntryRow) : ℕ × Text × Int := (a.generation, a.entry.cidr, a.entry.port)

instance (a b : EntryRow) : Decidable (a.Before b) := inferInstanceAs (Decidable (_ ∨ _))

theorem Before.trans {a b c : EntryRow} (hab : a.Before b) (hbc : b.Before c) : a.Before c := by
  unfold Before at *
  omega

theorem before_or_before {a b : EntryRow}
    (h : ¬ (a.generation = b.generation ∧ a.entry_order = b.entry_order)) :
    a.Before b ∨ b.Before a := by
  unfold Before
  omega

end EntryRow

/-- The rows of the list, in the order of the primary key `(generation, entry_order)`, and
without two rows of one generation for the same target. -/
structure EntryTable where
  rows : List EntryRow
  sorted : rows.Pairwise EntryRow.Before
  distinct : (rows.map EntryRow.target).Nodup

namespace EntryTable

def empty : EntryTable := ⟨[], List.Pairwise.nil, List.nodup_nil⟩

/-- Whether a row with the primary key or the target of another is there. -/
def conflicts (t : EntryTable) (row : EntryRow) : Prop :=
  ∃ other ∈ t.rows, (other.generation = row.generation ∧ other.entry_order = row.entry_order) ∨
    other.target = row.target

instance (t : EntryTable) (row : EntryRow) : Decidable (t.conflicts row) :=
  inferInstanceAs (Decidable (∃ other ∈ t.rows, _))

/-- The rows before a new one, the new one, and the rows after it. -/
def placed (rows : List EntryRow) (row : EntryRow) : List EntryRow :=
  (rows.filter fun other => other.Before row) ++ row :: rows.filter fun other => row.Before other

theorem placed_sorted {rows : List EntryRow} (row : EntryRow)
    (h : rows.Pairwise EntryRow.Before) : (placed rows row).Pairwise EntryRow.Before := by
  unfold placed
  rw [List.pairwise_append, List.pairwise_cons]
  refine ⟨h.filter _, ⟨fun other hother => ?_, h.filter _⟩, fun a ha b hb => ?_⟩
  · exact of_decide_eq_true (List.mem_filter.mp hother).2
  · have hrow : a.Before row := of_decide_eq_true (List.mem_filter.mp ha).2
    rcases List.mem_cons.mp hb with rfl | hb
    · exact hrow
    · exact hrow.trans (of_decide_eq_true (List.mem_filter.mp hb).2)

/-- Without a conflict, the new row is the only one that is added. -/
theorem placed_perm {rows : List EntryRow} {row : EntryRow}
    (hkey : ∀ other ∈ rows,
      ¬ (other.generation = row.generation ∧ other.entry_order = row.entry_order)) :
    (placed rows row).Perm (row :: rows) := by
  unfold placed
  refine List.perm_middle.trans (List.Perm.cons row ?_)
  have hafter : (rows.filter fun other => row.Before other) =
      rows.filter fun other => !decide (other.Before row) := by
    apply List.filter_congr
    intro other hother
    rw [← decide_not, decide_eq_decide]
    refine ⟨fun h hback => ?_, fun h => ?_⟩
    · unfold EntryRow.Before at h hback
      omega
    · exact (EntryRow.before_or_before (hkey other hother)).resolve_left h
  rw [hafter]
  exact List.filter_append_perm _ rows

/-- `INSERT OR IGNORE` of one row. -/
def insertOrIgnore (t : EntryTable) (row : EntryRow) : EntryTable :=
  if h : t.conflicts row then t
  else
    { rows := placed t.rows row
      sorted := placed_sorted row t.sorted
      distinct := by
        have hperm := placed_perm fun other hother hkey => h ⟨other, hother, Or.inl hkey⟩
        rw [(hperm.map EntryRow.target).nodup_iff, List.map_cons, List.nodup_cons]
        refine ⟨fun hmem => ?_, t.distinct⟩
        obtain ⟨other, hother, htarget⟩ := List.mem_map.mp hmem
        exact h ⟨other, hother, Or.inr htarget⟩ }

/-- `DELETE` of the rows that are not kept. -/
def keep (t : EntryTable) (p : EntryRow → Bool) : EntryTable :=
  { rows := t.rows.filter p
    sorted := t.sorted.filter _
    distinct := t.distinct.sublist (List.filter_sublist.map _) }

/-- `UPDATE ... SET latency_ms` of one target. -/
def setLatency (t : EntryTable) (target : ℕ × Text × Int) (latencyMs : Int) : EntryTable :=
  let set (row : EntryRow) : EntryRow :=
    if row.target = target then { row with entry := { row.entry with latencyMs := latencyMs } }
    else row
  have hset : ∀ row, (set row).generation = row.generation ∧
      (set row).entry_order = row.entry_order ∧ (set row).target = row.target := by
    intro row
    unfold set
    split <;> exact ⟨rfl, rfl, rfl⟩
  { rows := t.rows.map set
    sorted := by
      refine List.pairwise_map.mpr (t.sorted.imp fun {a b} h => ?_)
      unfold EntryRow.Before
      rw [(hset a).1, (hset b).1, (hset a).2.1, (hset b).2.1]
      exact h
    distinct := by
      have hmap : (t.rows.map set).map EntryRow.target = t.rows.map EntryRow.target := by
        rw [List.map_map]
        exact List.map_congr_left fun row _ => (hset row).2.2
      rw [hmap]
      exact t.distinct }

/-- The rows of one generation, `ORDER BY entry_order`. -/
def rowsOf (t : EntryTable) (generation : ℕ) : List EntryRow :=
  t.rows.filter fun row => row.generation = generation

end EntryTable

/-! ## The entries of a bulk write -/

def kIpListsRepoChunkRows : ℕ := 20000

/-- The first of the entries with one target, and none without an address. -/
def ipListsRepoUnique (entries : List IpListEntry) : List IpListEntry :=
  (entries.foldl (fun (state : List IpListEntry × List Text) entry =>
    let key := entryKey entry.cidr entry.port
    if entry.cidr = [] then state
    else if key ∈ state.2 then state
    else (state.1 ++ [entry], state.2 ++ [key])) ([], [])).1

/-- The rows for the entries from the index `begin` to the index `stop`. -/
def entryRows (generation : ℕ) (entries : List IpListEntry) (begin stop : ℕ) : List EntryRow :=
  ((entries.take stop).zipIdx.drop begin).map fun entry => ⟨generation, entry.2, entry.1⟩

def ipListsRepoInsertEntries (t : EntryTable) (generation : ℕ) (entries : List IpListEntry)
    (begin stop : ℕ) : EntryTable :=
  (entryRows generation entries begin stop).foldl EntryTable.insertOrIgnore t

/-! ## The calls -/

/-- What `ipListsRepoPurgeExcept` is called for. -/
inductive Task where
  | replace (unique : List IpListEntry)
  | clear
  /-- `ipListsRepoDiscard`, with `expectedGeneration` where it is not -1. -/
  | discard (expected : Option ℕ)
  deriving DecidableEq, Repr

/-- A page of `GetEntries`; `flips` only records when it was read. -/
structure Page where
  flips : ℕ
  entries : List IpListEntry
  deriving DecidableEq, Repr

/-- Where a call of `GetEntries` stands in its loop. -/
structure Reader where
  offset : Int
  limit : Int
  attempt : ℕ
  generation : ℕ
  remaining : Int
  after : Int
  out : List IpListEntry
  pages : List Page
  deriving DecidableEq, Repr

inductive Pc where
  | replaceClaim (unique : List IpListEntry)
  | replaceCurrent (unique : List IpListEntry)
  | addClaim (unique : List IpListEntry)
  | clearClaim
  | clearBump
  | deleteClaim (onlyIfDetached : Bool)
  | deleteBump (onlyIfDetached : Bool)
  /-- The two halves of the loop of `ipListsRepoPurgeExcept`; `keep` is `none` for -1. -/
  | purgeScan (task : Task) (keep : Option ℕ)
  | purgeGeneration (task : Task) (keep : Option ℕ) (stale : ℕ)
  | stage (unique : List IpListEntry) (current target begin : ℕ) (replacing : Bool)
  /-- The purge at the end of `ReplaceEntries`. -/
  | cleanup (generation : ℕ) (result : Bool)
  | discardHeader (expected : Option ℕ) (purged : Bool)
  /-- The claim is given back. -/
  | release (result : Bool)
  | upsert (rest : List IpListEntry) (pinned : Option ℕ)
  | remove (rest : List IpListEntry) (pinned : Option ℕ)
  | readGeneration (offset limit : Int) (attempt : ℕ)
  | readPage (reader : Reader)
  | readHold (offset limit : Int)
  | readDone (reader : Reader)
  | finished (result : Bool)
  deriving DecidableEq, Repr

inductive Request where
  | replaceEntries (entries : List IpListEntry)
  | upsertEntries (entries : List IpListEntry)
  | removeEntries (entries : List IpListEntry)
  | clearEntries
  | addIpList (entries : List IpListEntry)
  | deleteIpList (onlyIfDetached : Bool)
  | getEntries (offset limit : Int)
  deriving DecidableEq, Repr

/-- A call in flight.  `shown` only records what its steps have made of the list, as far as
readers see it. -/
structure Call where
  request : Request
  pc : Pc
  shown : List (List IpListEntry)
  deriving DecidableEq, Repr

/-- Whether the transaction or the statement of a step succeeds, and whether
`onlyIfDetached` finds the list detached. -/
structure Answer where
  ok : Bool
  detached : Bool
  deriving DecidableEq, Repr

/-- One list of `IpListsRepo`, and the calls on it. -/
structure ListState where
  /-- `entries_generation` of the header row, where there is one. -/
  header : Option ℕ
  table : EntryTable
  /-- The id of the list was handed out; `NewIpListID` hands it out once. -/
  issued : Bool
  /-- The list is in `claimedLists`. -/
  claimed : Bool
  /-- The call that holds the write mutex between its steps. -/
  holder : Option ℕ
  /-- The process runs, and has made its tables. -/
  running : Bool
  calls : List Call
  /-- How often a generation was made the live one; it is only recorded. -/
  flips : ℕ

namespace ListState

/-- What readers see. -/
def liveRows (s : ListState) : List EntryRow :=
  match s.header with
  | none => []
  | some generation => s.table.rowsOf generation

def liveEntries (s : ListState) : List IpListEntry := s.liveRows.map EntryRow.entry

/-! ## The transactions -/

/-- One transaction of `ipListsRepoPurgeGeneration`: whether it went through, and whether it
left rows to a next one. -/
def purgeGenerationStep (s : ListState) (generation : ℕ) (ok : Bool) : ListState × Bool × Bool :=
  if !ok ∨ s.header = some generation then (s, false, false)
  else
    match (s.table.rowsOf generation)[kIpListsRepoChunkRows - 1]? with
    | some bound =>
      ({ s with
          table := s.table.keep fun row =>
            !(row.generation = generation ∧ row.entry_order ≤ bound.entry_order) }, true, true)
    | none =>
      ({ s with table := s.table.keep fun row => !(row.generation = generation) }, true, false)

/-- A generation with rows other than the one that is kept; the smaller ones come first. -/
def staleGeneration (s : ListState) (keep : Option ℕ) : Option ℕ :=
  match keep with
  | none => s.table.rows.head?.map EntryRow.generation
  | some keep =>
    ((s.table.rows.find? fun row => row.generation < keep).or
      (s.table.rows.find? fun row => keep < row.generation)).map EntryRow.generation

/-- `ipListsRepoBumpGeneration`: the live generation becomes one above every other. -/
def bumpGeneration (s : ListState) (requireDetached : Bool) (answer : Answer) :
    ListState × Option ℕ :=
  if !answer.ok ∨ (requireDetached ∧ !answer.detached) then (s, none)
  else
    match s.header with
    | none => (s, none)
    | some live =>
      let fresh := (s.table.rows.getLast?.elim live fun row => max live row.generation) + 1
      ({ s with header := some fresh, flips := s.flips + 1 }, some fresh)

/-- One transaction of `ipListsRepoStage`: `none` where it fails, and whether it was the
last. -/
def stageStep (s : ListState) (unique : List IpListEntry) (current target begin : ℕ) (ok : Bool) :
    Option (ListState × Bool) :=
  let stop := min (begin + kIpListsRepoChunkRows) unique.length
  if !ok ∨ s.header ≠ some current then none
  else
    let table := ipListsRepoInsertEntries s.table target unique begin stop
    if stop = unique.length then
      some ({ s with table, header := some target, flips := s.flips + 1 }, true)
    else some ({ s with table }, false)

/-- The header goes, and its rows with it by `ON DELETE CASCADE`. -/
def deleteHeader (s : ListState) : ListState := { s with header := none, table := .empty }

/-- The last order of a generation and one, for the next row. -/
def nextOrder (s : ListState) (generation : ℕ) : Int :=
  ((s.table.rowsOf generation).getLast?.map EntryRow.entry_order).elim 0 (· + 1)

/-- One entry of a transaction of `UpsertEntries`. -/
def upsertEntry (generation : ℕ) (state : EntryTable × Int) (entry : IpListEntry) :
    EntryTable × Int :=
  let row : EntryRow := ⟨generation, state.2, entry⟩
  if entry.cidr = [] then state
  else if state.1.conflicts row then
    (state.1.setLatency row.target entry.latencyMs, state.2)
  else (state.1.insertOrIgnore row, state.2 + 1)

/-- The rows of one page. -/
def pageRows (s : ListState) (reader : Reader) (page : ℕ) : List EntryRow :=
  let rows := s.table.rowsOf reader.generation
  if reader.after < 0 then (rows.drop (max reader.offset 0).toNat).take page
  else (rows.filter fun row => reader.after < row.entry_order).take page

/-- One round of the loop of `ipListsRepoReadGeneration`. -/
def readStep (s : ListState) (reader : Reader) : Pc :=
  if reader.remaining ≤ 0 then .readDone reader
  else if s.header ≠ some reader.generation then
    if reader.attempt = 0 then .readHold reader.offset reader.limit
    else .readDone { reader with out := [], pages := [] }
  else
    let page := min reader.remaining.toNat kIpListsRepoChunkRows
    let rows := s.pageRows reader page
    let entries := rows.map EntryRow.entry
    let reader := { reader with
      after := (rows.getLast?.map EntryRow.entry_order).getD reader.after
      out := reader.out ++ entries
      pages := reader.pages ++ [⟨s.flips, entries⟩] }
    if rows.length < page then .readDone reader
    else .readPage { reader with remaining := reader.remaining - rows.length }

/-! ## The steps of the calls -/

/-- What comes after `ipListsRepoPurgeExcept`. -/
def Task.next (task : Task) (keep : Option ℕ) (purged : Bool) : Pc :=
  match task with
  | .replace unique =>
    match purged, keep with
    | true, some current => .stage unique current (current + 1) 0 true
    | _, _ => .release false
  | .clear => .release true
  | .discard expected => .discardHeader expected purged

/-- The next step of the call number `k`. -/
def resume (s : ListState) (k : ℕ) (answer : Answer) : Pc → ListState × Pc
  | .replaceClaim unique =>
    if s.claimed then (s, .replaceClaim unique)
    else ({ s with claimed := true }, .replaceCurrent unique)
  | .replaceCurrent unique =>
    match answer.ok, s.header with
    | true, some current => (s, .purgeScan (.replace unique) (some current))
    | _, _ => (s, .release false)
  | .addClaim unique =>
    if s.claimed then (s, .addClaim unique)
    else ({ s with claimed := true }, .stage unique 0 1 0 false)
  | .clearClaim =>
    if s.claimed then (s, .clearClaim) else ({ s with claimed := true }, .clearBump)
  | .clearBump =>
    match s.bumpGeneration false answer with
    | (s, some fresh) => (s, .purgeScan .clear (some fresh))
    | (s, none) => (s, .release false)
  | .deleteClaim onlyIfDetached =>
    if s.claimed then (s, .deleteClaim onlyIfDetached)
    else ({ s with claimed := true }, .deleteBump onlyIfDetached)
  | .deleteBump onlyIfDetached =>
    match s.bumpGeneration onlyIfDetached answer with
    | (s, some fresh) => (s, .purgeScan (.discard (some fresh)) (some fresh))
    | (s, none) => (s, .release false)
  | .purgeScan task keep =>
    if answer.ok then
      match s.staleGeneration keep with
      | some stale => (s, .purgeGeneration task keep stale)
      | none => (s, Task.next task keep true)
    else (s, Task.next task keep false)
  | .purgeGeneration task keep stale =>
    match s.purgeGenerationStep stale answer.ok with
    | (s, true, true) => (s, .purgeGeneration task keep stale)
    | (s, true, false) => (s, .purgeScan task keep)
    | (s, false, _) => (s, Task.next task keep false)
  | .stage unique current target begin replacing =>
    match s.stageStep unique current target begin answer.ok with
    | some (s, true) => (s, if replacing then .cleanup current true else .release true)
    | some (s, false) =>
      (s, .stage unique current target (begin + kIpListsRepoChunkRows) replacing)
    | none => (s, if replacing then .cleanup target false else .purgeScan (.discard none) none)
  | .cleanup generation result =>
    match s.purgeGenerationStep generation answer.ok with
    | (s, true, true) => (s, .cleanup generation result)
    | (s, _, _) => (s, .release result)
  | .discardHeader expected purged =>
    -- the statement of a failed transaction is not made again
    match expected with
    | none => (if answer.ok then s.deleteHeader else s, .release false)
    | some _ =>
      (if answer.ok ∧ purged ∧ s.header = expected then s.deleteHeader else s, .release true)
  | .release result => ({ s with claimed := false }, .finished result)
  | .upsert rest pinned =>
    match rest, answer.ok, s.header with
    | entry :: rest', true, some generation =>
      if pinned ≠ none ∧ pinned ≠ some generation then (s, .finished true)
      else
        let entries := (entry :: rest').take kIpListsRepoChunkRows
        let (table, _) :=
          entries.foldl (upsertEntry generation) (s.table, s.nextOrder generation)
        ({ s with table },
          .upsert ((entry :: rest').drop kIpListsRepoChunkRows) (some generation))
    | _, _, _ => (s, .finished true)
  | .remove rest pinned =>
    match rest, answer.ok, s.header with
    | entry :: rest', true, some generation =>
      if pinned ≠ none ∧ pinned ≠ some generation then (s, .finished true)
      else
        let entries := (entry :: rest').take kIpListsRepoChunkRows
        ({ s with
            table := s.table.keep fun row => !(row.generation = generation ∧
              ∃ entry ∈ entries, row.entry.cidr = entry.cidr ∧ row.entry.port = entry.port) },
          .remove ((entry :: rest').drop kIpListsRepoChunkRows) (some generation))
    | _, _, _ => (s, .finished true)
  | .readGeneration offset limit attempt =>
    match answer.ok, s.header with
    | true, some generation =>
      (s, .readPage
        { offset, limit, attempt, generation, after := -1, out := [], pages := []
          remaining := if limit < 0 then 9223372036854775807 else limit })
    | _, _ =>
      (s, .readDone
        { offset, limit, attempt, generation := 0, after := -1, out := [], pages := []
          remaining := 0 })
  | .readPage reader =>
    (s, if answer.ok then s.readStep reader else .readDone { reader with out := [], pages := [] })
  | .readHold offset limit => ({ s with holder := some k }, .readGeneration offset limit 1)
  | .readDone reader => (s, .readDone reader)
  | .finished result => (s, .finished result)

/-- The steps that need no lock of the database. -/
def lockFree : Pc → Bool
  | .replaceClaim _ => true
  | .addClaim _ => true
  | .clearClaim => true
  | .deleteClaim _ => true
  | .release _ => true
  | _ => false

/-- The write mutex is given back where the read that held it is done. -/
def unhold (s : ListState) (k : ℕ) : Pc → ListState
  | .readDone _ => if s.holder = some k then { s with holder := none } else s
  | _ => s

/-- The next step of the call number `k`, unless another call holds the write mutex. -/
def advance (s : ListState) (k : ℕ) (answer : Answer) : ListState :=
  match s.calls[k]? with
  | none => s
  | some call =>
    if !lockFree call.pc ∧ s.holder ≠ none ∧ s.holder ≠ some k then s
    else
      let (t, pc) := s.resume k answer call.pc
      let t := t.unhold k pc
      let shown :=
        if t.header = s.header ∧ t.liveEntries = s.liveEntries then call.shown
        else call.shown ++ [t.liveEntries]
      { t with calls := s.calls.set k { call with pc, shown } }

/-! ## The process -/

/-- The first transaction of `AddIpList`, when the id it draws is the one of this list. -/
def addIpList (s : ListState) (entries : List IpListEntry) (ok : Bool) : ListState :=
  if !ok ∨ s.issued ∨ s.holder ≠ none then s
  else
    let unique := ipListsRepoUnique entries
    let staged := kIpListsRepoChunkRows < unique.length
    { s with
      header := some 0
      issued := true
      table :=
        if staged then s.table else ipListsRepoInsertEntries s.table 0 unique 0 unique.length
      calls := s.calls ++
        [⟨.addIpList entries, if staged then .addClaim unique else .finished true, []⟩] }

/-- A call starts. -/
def start (s : ListState) : Request → ListState
  | .addIpList _ => s
  | .replaceEntries entries =>
    { s with
      calls := s.calls ++
        [⟨.replaceEntries entries, .replaceClaim (ipListsRepoUnique entries), []⟩] }
  | .upsertEntries entries =>
    { s with calls := s.calls ++ [⟨.upsertEntries entries, .upsert entries none, []⟩] }
  | .removeEntries entries =>
    { s with calls := s.calls ++ [⟨.removeEntries entries, .remove entries none, []⟩] }
  | .clearEntries => { s with calls := s.calls ++ [⟨.clearEntries, .clearClaim, []⟩] }
  | .deleteIpList onlyIfDetached =>
    { s with calls := s.calls ++ [⟨.deleteIpList onlyIfDetached, .deleteClaim onlyIfDetached, []⟩] }
  | .getEntries offset limit =>
    { s with calls := s.calls ++ [⟨.getEntries offset limit, .readGeneration offset limit 0, []⟩] }

/-- `ipListsRepoPurgeLeftovers`, as far as its two statements for the list got. -/
def purgeLeftovers (s : ListState) (statements : ℕ) : ListState :=
  match s.header with
  | none => s
  | some live =>
    let s :=
      if 1 ≤ statements then { s with table := s.table.keep fun row => !(row.generation < live) }
      else s
    if 2 ≤ statements then { s with table := s.table.keep fun row => !(live < row.generation) }
    else s

/-- The process ends, between any two steps. -/
def exit (s : ListState) : ListState :=
  { s with calls := [], claimed := false, holder := none, running := false }

inductive Event where
  | call (request : Request)
  | addIpList (entries : List IpListEntry) (ok : Bool)
  | advance (k : ℕ) (answer : Answer)
  | exit
  /-- A start of the process; it may not get past the purge. -/
  | startUp (statements : ℕ) (running : Bool)
  deriving DecidableEq, Repr

def step (s : ListState) : Event → ListState
  | .call request => if s.running then s.start request else s
  | .addIpList entries ok => if s.running then s.addIpList entries ok else s
  | .advance k answer => s.advance k answer
  | .exit => s.exit
  | .startUp statements running =>
    if s.running then s else { s.exit.purgeLeftovers statements with running := running }

/-- A process that is about to open its database, with whatever earlier ones have left. -/
structure Closed (s : ListState) : Prop where
  owned : s.header = none → s.table.rows = []
  issued : s.header ≠ none → s.issued = true
  unclaimed : s.claimed = false
  unheld : s.holder = none
  stopped : s.running = false
  calls : s.calls = []

end ListState

/-- Any interleaving of the calls, with exits and starts of the process. -/
def ipLists : Library.System ListState where
  init := ListState.Closed
  step s t := ∃ event, t = s.step event

end Throned.IpLists
