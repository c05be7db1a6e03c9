import Throned.Library.Transition
import Throned.Model.Refresh

/-!
# The update queue

`GroupUpdater` queues refreshes and imports and works them off on one thread
(src/configs/sub/GroupUpdater.cpp:642-693 and 854-910).  Every section under its mutex is one
step, and so is every call made outside of it.  The histories `ran`, `settled`, `calls` and
`invoked` only record what happened.
-/

set_option autoImplicit false

namespace Throned.Subscription

/-- A job of the queue.  `id` numbers the jobs in the order in which they were queued. -/
structure Job where
  id : ℕ
  gid : Int
  batch : Bool
  /-- A refresh has an outcome for the waiters of its group; an import has none. -/
  refresh : Bool
  deriving DecidableEq, Repr

/-- Where a drain stands in its loop. -/
inductive DrainPc where
  | take
  | run (job : Job)
  | settle (job : Job) (outcome : UpdateOutcome)
  | deliver (job : Job) (outcome : UpdateOutcome) (waiting : List ℕ)
  deriving DecidableEq, Repr

/-- A callback given to `RefreshWithOutcome`: its group, and the refreshes settled before. -/
structure OutcomeCall where
  gid : Int
  settledBefore : List ℕ
  deriving DecidableEq, Repr

structure GroupUpdater where
  queue : List Job
  pending : List Int
  /-- `waiters`, as one list in the order of the calls. -/
  waiters : List (Int × ℕ)
  pendingBatch : Int
  running : Bool
  drains : List DrainPc
  /-- The number of jobs queued so far. -/
  queued : ℕ
  ran : List (Job × UpdateOutcome)
  settled : List ℕ
  calls : List OutcomeCall
  invoked : List (ℕ × Job × UpdateOutcome)
  deriving DecidableEq, Repr

/-- The job a drain has taken and not settled yet. -/
def DrainPc.held : DrainPc → List Job
  | .run job => [job]
  | .settle job _ => [job]
  | _ => []

/-- The job a drain has taken and not run yet. -/
def DrainPc.unrun : DrainPc → List Job
  | .run job => [job]
  | _ => []

/-- The callbacks a drain has taken and not invoked yet. -/
def DrainPc.delivering : DrainPc → List ℕ
  | .deliver _ _ waiting => waiting
  | _ => []

namespace GroupUpdater

/-- The jobs that are queued or running. -/
def unsettled (s : GroupUpdater) : List Job := s.drains.flatMap DrainPc.held ++ s.queue

def unrun (s : GroupUpdater) : List Job := s.drains.flatMap DrainPc.unrun ++ s.queue

def delivering (s : GroupUpdater) : List ℕ := s.drains.flatMap DrainPc.delivering

def initial : GroupUpdater :=
  { queue := [], pending := [], waiters := [], pendingBatch := 0, running := false, drains := []
    queued := 0, ran := [], settled := [], calls := [], invoked := [] }

/-- Queues a job, and starts a drain unless one is running. -/
def enqueueLocked (s : GroupUpdater) (gid : Int) (batch refresh : Bool) : GroupUpdater :=
  let job : Job := { id := s.queued, gid, batch, refresh }
  let s := { s with queue := s.queue ++ [job], queued := s.queued + 1 }
  if s.running then s else { s with running := true, drains := s.drains ++ [DrainPc.take] }

/-- An import: `enqueue({-1, false, ...})`. -/
def enqueueImport (s : GroupUpdater) : GroupUpdater := s.enqueueLocked (-1) false false

def RefreshGroup (s : GroupUpdater) (gid : Int) : GroupUpdater :=
  if gid ∈ s.pending then s
  else { s with pending := s.pending ++ [gid] }.enqueueLocked gid false true

/-- A negative gid is refused at once, outside of the queue. -/
def RefreshWithOutcome (s : GroupUpdater) (gid : Int) (done : Bool) : GroupUpdater :=
  if gid < 0 then s
  else
    let s :=
      if done then
        { s with
          waiters := s.waiters ++ [(gid, s.calls.length)]
          calls := s.calls ++ [⟨gid, s.settled⟩] }
      else s
    if gid ∈ s.pending then s
    else { s with pending := s.pending ++ [gid] }.enqueueLocked gid false true

/-- One group of `RefreshAll`. -/
def refreshDue (s : GroupUpdater) (gid : Int) : GroupUpdater :=
  if gid ∈ s.pending then s
  else
    { s with pending := s.pending ++ [gid], pendingBatch := s.pendingBatch + 1 }.enqueueLocked gid
      true true

/-- The groups are those that are due, in the order of their tabs. -/
def RefreshAll (s : GroupUpdater) (due : List Int) : GroupUpdater :=
  if s.pendingBatch > 0 then s else due.foldl refreshDue s

/-! ## The drain -/

/-- The second locked section: the marks of the job go, and its waiters are taken. -/
def settleJob (s : GroupUpdater) (job : Job) : GroupUpdater × List ℕ :=
  let waiting :=
    if 0 ≤ job.gid then (s.waiters.filter fun w => w.1 = job.gid).map Prod.snd else []
  let s :=
    if 0 ≤ job.gid then
      { s with
        pending := s.pending.filter fun gid => gid ≠ job.gid
        waiters := s.waiters.filter fun w => w.1 ≠ job.gid }
    else s
  ({ s with
      pendingBatch := if job.batch then s.pendingBatch - 1 else s.pendingBatch
      settled := s.settled ++ [job.id] }, waiting)

/-- The next step of the drain number `k`.  A job may throw, or leave any outcome. -/
def drain (s : GroupUpdater) (k : ℕ) (result : UpdateOutcome) : GroupUpdater :=
  match s.drains[k]? with
  | none => s
  | some .take =>
    match s.queue with
    | [] => { s with running := false, drains := s.drains.eraseIdx k }
    | job :: rest => { s with queue := rest, drains := s.drains.set k (.run job) }
  | some (.run job) =>
    { s with drains := s.drains.set k (.settle job result), ran := s.ran ++ [(job, result)] }
  | some (.settle job outcome) =>
    let (s, waiting) := s.settleJob job
    { s with drains := s.drains.set k (.deliver job outcome waiting) }
  | some (.deliver job outcome waiting) =>
    match waiting with
    | [] => { s with drains := s.drains.set k .take }
    | call :: rest =>
      { s with
        drains := s.drains.set k (.deliver job outcome rest)
        invoked := s.invoked ++ [(call, job, outcome)] }

/-! ## The system -/

inductive Event where
  | refreshGroup (gid : Int)
  | refreshWithOutcome (gid : Int) (done : Bool)
  | refreshAll (due : List Int)
  | enqueueImport
  | drain (k : ℕ) (result : UpdateOutcome)
  deriving DecidableEq, Repr

def step (s : GroupUpdater) : Event → GroupUpdater
  | .refreshGroup gid => s.RefreshGroup gid
  | .refreshWithOutcome gid done => s.RefreshWithOutcome gid done
  | .refreshAll due => s.RefreshAll due
  | .enqueueImport => s.enqueueImport
  | .drain k result => s.drain k result

end GroupUpdater

/-- Any interleaving of the calls and of the steps of the drains. -/
def updateQueue : Library.System GroupUpdater where
  init s := s = .initial
  step s t := ∃ event, t = s.step event

end Throned.Subscription
