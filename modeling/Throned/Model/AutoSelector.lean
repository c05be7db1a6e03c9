import Throned.Library.Runs
import Mathlib.Data.Finset.Card
import Mathlib.Data.Int.Order.Basic
import Mathlib.Data.Finset.Insert

/-!
# Rankings of auto selectors

A ranking and the starts around it (src/engine/autoselector/AutoSelectorController.cpp:22-89,
122-220, 263-290 and src/configs/AutoSelectorPlan.cpp:323-359).

A step of a ranking is one locked section, one call or one wait of its thread; results and the end
of the tests come at any time.  A step of the controller is one task of the main thread.  What a
pass of `start` finds is the environment's choice: it may be answered, wait for the kill switch or
for the core, or launch a worker.  Texts are left out.
-/

set_option autoImplicit false

namespace Throned.Engine.AutoSelector

/-- What a ranking reads of the selector and its members. -/
structure Pool where
  candidates : List ℤ
  /-- `eligibleMembers` skips what it has seen. -/
  nodup : candidates.Nodup
  effectiveLatencyOf : ℤ → ℤ
  expected : ℤ
  activeSize : ℤ
  buildLimit : ℤ

/-- The members to measure, and how many of the others work. -/
def AutoSelectorUnmeasuredCandidates (pool : Pool) (stale : List ℤ) : List ℤ × ℕ :=
  pool.candidates.foldl
    (fun (needed, working) id =>
      if id ∈ stale then (needed ++ [id], working)
      else
        let latency := pool.effectiveLatencyOf id
        if latency = 0 then (needed ++ [id], working)
        else if 0 < latency then (needed, working + 1)
        else (needed, working))
    ([], 0)

def AutoSelectorStartQuorum (pool : Pool) : ℤ :=
  min (max pool.expected pool.activeSize) pool.buildLimit

/-! ## A sweep -/

structure Sweep where
  /-- Permits of the semaphore. -/
  wake : ℕ := 0
  measured : Finset ℤ := ∅
  working : Finset ℤ := ∅
  workingBefore : ℕ := 0
  quorum : ℤ := 0
  quorumMet : Bool := false
  done : Bool := false
  deriving DecidableEq

namespace Sweep

def reachedQuorum (s : Sweep) : Bool :=
  0 < s.quorum ∧ s.quorum ≤ s.workingBefore + s.working.card

/-- The quorum is signalled once. -/
def signalQuorum (s : Sweep) : Sweep :=
  if s.quorumMet || !s.reachedQuorum then s
  else { s with quorumMet := true, wake := s.wake + 1 }

def onResult (s : Sweep) (member : ℤ) (works : Bool) : Sweep :=
  { s with
    measured := insert member s.measured
    working := if works then insert member s.working else s.working.erase member }.signalQuorum

def onFinished (s : Sweep) : Sweep := { s with done := true, wake := s.wake + 1 }

end Sweep

/-! ## The thread of a ranking -/

/-- Where `rank` stands. -/
inductive RankPc where
  | entered
  /-- It calls `runUrlTests`. -/
  | testing
  /-- The tests were accepted. -/
  | checking
  /-- It acquires `wake`. -/
  | waiting
  | woken
  /-- It ranks what is known and posts the start. -/
  | startingEarly
  | leaving
  | returned (startedEarly : Bool)
  deriving DecidableEq, Repr

inductive StartedBy where
  /-- The start itself, or a ranking that resumed it. -/
  | start
  | finishEarlySweep
  deriving DecidableEq, Repr

/-- A start of a selector; `root` tells what it goes back to. -/
structure Start where
  root : ℕ
  profile : ℤ
  by_ : StartedBy
  /-- A ranking or `finishEarlySweep` has called it. -/
  resumed : Bool
  deriving DecidableEq, Repr

structure Ranking where
  start : Start
  /-- It rebuilds an exhausted pool, and then `stale` is what was built last. -/
  exhausted : Bool
  stale : List ℤ
  pc : RankPc := .entered
  sweep : Sweep := {}
  needed : List ℤ := []
  startedEarly : Bool := false
  /-- The members that worked before. -/
  known : List ℤ := []
  /-- The results in the order in which they came. -/
  results : List (ℤ × Bool) := []
  /-- `onFinished` has been called. -/
  finished : Bool := false
  /-- The final rerank is done. -/
  reranked : Bool := false
  /-- How often `startEarly` was posted, the resume was run, and the thread has taken a step. -/
  posts : ℕ := 0
  resumes : ℕ := 0
  steps : ℕ := 0
  /-- The main thread has come to its end. -/
  ended : Bool := false

/-- A task of the main thread; rankings are named by their place. -/
inductive Task where
  | startEarly (k : ℕ)
  | rankEnded (k : ℕ) (startedEarly : Bool)
  | rebuild (start : Start) (changed : Bool)
  deriving DecidableEq, Repr

/-- What a step of a ranking reads. -/
structure RankEnv where
  pool : Pool
  /-- The answer of `runUrlTests`. -/
  accepted : Bool

namespace Ranking

/-- The tests have been accepted, so results may come. -/
def accepted (r : Ranking) : Bool :=
  match r.pc with
  | .entered | .testing => false
  | _ => !r.needed.isEmpty

/-- Whether the early start is posted, and whether the thread ends, in a step. -/
inductive Post where
  | nothing
  | startEarly
  | ended (startedEarly : Bool)
  deriving DecidableEq, Repr

def advance (r : Ranking) (env : RankEnv) : Ranking × Post :=
  match r.pc with
  | .entered =>
    let (needed, working) := AutoSelectorUnmeasuredCandidates env.pool r.stale
    let known := env.pool.candidates.filter fun id =>
      id ∉ r.stale ∧ 0 < env.pool.effectiveLatencyOf id
    if needed = [] then
      ({ r with
          known, sweep := { workingBefore := working }, reranked := true, pc := .returned false },
        .ended false)
    else
      let quorum := AutoSelectorStartQuorum env.pool
      ({ r with known, needed, sweep := { workingBefore := working, quorum }, pc := .testing },
        .nothing)
  | .testing =>
    if env.accepted then ({ r with pc := .checking }, .nothing)
    else
      -- a refusal calls `onFinished` before it returns
      ({ r with sweep := r.sweep.onFinished, finished := true, pc := .waiting }, .nothing)
  | .checking => ({ r with sweep := r.sweep.signalQuorum, pc := .waiting }, .nothing)
  | .waiting =>
    if 0 < r.sweep.wake then
      ({ r with sweep := { r.sweep with wake := r.sweep.wake - 1 }, pc := .woken }, .nothing)
    else (r, .nothing)
  | .woken =>
    if r.sweep.done then ({ r with pc := .leaving }, .nothing)
    else if r.startedEarly || !r.sweep.quorumMet then ({ r with pc := .waiting }, .nothing)
    else ({ r with startedEarly := true, pc := .startingEarly }, .nothing)
  | .startingEarly => ({ r with posts := r.posts + 1, pc := .waiting }, .startEarly)
  | .leaving =>
    if r.startedEarly then ({ r with pc := .returned true }, .ended true)
    else ({ r with reranked := true, pc := .returned false }, .ended false)
  | .returned _ => (r, .nothing)

/-- The thread can go on: it has not returned, and it does not wait for a permit. -/
def canAdvance (r : Ranking) : Bool :=
  match r.pc with
  | .returned _ => false
  | .waiting => 0 < r.sweep.wake
  | _ => true

def takeStep (r : Ranking) (env : RankEnv) : Ranking × Post :=
  if r.canAdvance then
    let (r, post) := r.advance env
    ({ r with steps := r.steps + 1 }, post)
  else (r, .nothing)

/-- A result of one of the requested members comes. -/
def takeResult (r : Ranking) (member : ℤ) (works : Bool) : Ranking :=
  if r.accepted ∧ member ∈ r.needed then
    { r with sweep := r.sweep.onResult member works, results := r.results ++ [(member, works)] }
  else r

/-- The end of the tests comes, once. -/
def takeEnd (r : Ranking) : Ranking :=
  if r.accepted ∧ !r.finished then { r with sweep := r.sweep.onFinished, finished := true } else r

end Ranking

/-! ## The controller -/

/-- What a pass of `start` finds before the ranking and behind it. -/
inductive Pass where
  | answered
  /-- The request waits for the kill switch or for the core, and is started again later. -/
  | parked
  | goesOn
  deriving DecidableEq, Repr

structure StartEnv where
  before : Pass
  autoselector : Bool
  needsRanking : Bool
  behind : Pass
  deriving DecidableEq, Repr

/-- What a task of the main thread finds. -/
structure TaskEnv where
  start : StartEnv
  /-- The connection is being made. -/
  connecting : Bool
  /-- The snapshot of what runs is of the selector. -/
  running : Bool
  deriving DecidableEq, Repr

structure Controller where
  rankingInFlight_ : ℕ := 0
  rankedFor_ : ℤ := -1
  rankings : List Ranking := []
  /-- The tasks that are posted to the main thread. -/
  queue : List Task := []
  /-- Early sweeps that wait for the connection to settle, and those that are ranked. -/
  settling : List Start := []
  finishing : List Start := []
  parked : List Start := []
  /-- The starts for which a worker was launched. -/
  launched : List Start := []
  roots : ℕ := 0

namespace Controller

/-- `rankBeforeStart` would go off to rank. -/
def asksRanking (s : Controller) (env : StartEnv) (st : Start) : Bool :=
  env.autoselector && s.rankingInFlight_ = 0 && s.rankedFor_ ≠ st.profile && env.needsRanking

def rankBeforeStart (s : Controller) (env : StartEnv) (st : Start) : Bool × Controller :=
  let asks := s.asksRanking env st
  let s := { s with rankedFor_ := -1 }
  if asks then
    (true, { s with
      rankingInFlight_ := s.rankingInFlight_ + 1
      rankings := s.rankings ++ [{ start := st, exhausted := false, stale := [] }] })
  else (false, s)

/-- `ConnectionManager::start`, as far as rankings see it. -/
def start (s : Controller) (env : StartEnv) (st : Start) : Controller :=
  match env.before with
  | .answered => s
  | .parked => { s with parked := s.parked ++ [st] }
  | .goesOn =>
    match s.rankBeforeStart env st with
    | (true, s) => s
    | (false, s) =>
      match env.behind with
      | .answered => s
      | .parked => { s with parked := s.parked ++ [st] }
      | .goesOn => { s with launched := s.launched ++ [st] }

def startRanked (s : Controller) (env : StartEnv) (st : Start) : Controller :=
  let s := { s with rankedFor_ := st.profile }
  { s.start env { st with resumed := true } with rankedFor_ := -1 }

/-- The resume of a ranking, the one of an exhausted pool only while the selector runs. -/
def resume (s : Controller) (env : TaskEnv) (r : Ranking) : Controller :=
  if r.exhausted && !env.running then s else s.startRanked env.start r.start

def setRanking (s : Controller) (k : ℕ) (r : Ranking) : Controller :=
  { s with rankings := s.rankings.set k r }

def finishEarlySweep (s : Controller) (connecting : Bool) (st : Start) : Controller :=
  if connecting then { s with settling := s.settling ++ [st] }
  else { s with finishing := s.finishing ++ [st] }

def runTask (s : Controller) (env : TaskEnv) : Task → Controller
  | .startEarly k =>
    match s.rankings[k]? with
    | none => s
    | some r => (s.setRanking k { r with resumes := r.resumes + 1 }).resume env r
  | .rankEnded k startedEarly =>
    match s.rankings[k]? with
    | none => s
    | some r =>
      let s := { s with rankingInFlight_ := s.rankingInFlight_ - 1 }
      if startedEarly then
        (s.setRanking k { r with ended := true }).finishEarlySweep env.connecting
          { r.start with by_ := .finishEarlySweep }
      else (s.setRanking k { r with ended := true, resumes := r.resumes + 1 }).resume env r
  | .rebuild st changed =>
    if !changed || env.connecting || !env.running then s else s.startRanked env.start st

inductive Event where
  /-- A start from outside. -/
  | start (profile : ℤ) (env : StartEnv)
  /-- The pool of a running selector is exhausted. -/
  | exhausted (profile : ℤ) (lastBuilt : List ℤ)
  | rank (k : ℕ) (env : RankEnv)
  | result (k : ℕ) (member : ℤ) (works : Bool)
  | testsEnd (k : ℕ)
  /-- The main thread comes to its oldest task. -/
  | task (env : TaskEnv)
  /-- The connection changes its state for an early sweep that waits. -/
  | settles (j : ℕ) (connecting : Bool)
  /-- The thread of `finishEarlySweep` has ranked. -/
  | ranked (j : ℕ) (changed : Bool)
  /-- A start that waited is taken up, or is superseded. -/
  | unpark (i : ℕ) (env : StartEnv)
  | drop (i : ℕ)

def pushPost (s : Controller) (k : ℕ) : Ranking.Post → Controller
  | .nothing => s
  | .startEarly => { s with queue := s.queue ++ [.startEarly k] }
  | .ended startedEarly => { s with queue := s.queue ++ [.rankEnded k startedEarly] }

def step (s : Controller) : Event → Controller
  | .start profile env =>
    { s with roots := s.roots + 1 }.start env ⟨s.roots, profile, .start, false⟩
  | .exhausted profile lastBuilt =>
    { s with
      roots := s.roots + 1
      rankingInFlight_ := s.rankingInFlight_ + 1
      rankings := s.rankings ++
        [{ start := ⟨s.roots, profile, .start, false⟩, exhausted := true, stale := lastBuilt }] }
  | .rank k env =>
    match s.rankings[k]? with
    | none => s
    | some r =>
      let (r, post) := r.takeStep env
      (s.setRanking k r).pushPost k post
  | .result k member works =>
    match s.rankings[k]? with
    | none => s
    | some r => s.setRanking k (r.takeResult member works)
  | .testsEnd k =>
    match s.rankings[k]? with
    | none => s
    | some r => s.setRanking k r.takeEnd
  | .task env =>
    match s.queue with
    | [] => s
    | task :: later => { s with queue := later }.runTask env task
  | .settles j connecting =>
    match s.settling[j]? with
    | none => s
    | some st => { s with settling := s.settling.eraseIdx j }.finishEarlySweep connecting st
  | .ranked j changed =>
    match s.finishing[j]? with
    | none => s
    | some st =>
      { s with
        finishing := s.finishing.eraseIdx j
        queue := s.queue ++ [.rebuild st changed] }
  | .unpark i env =>
    match s.parked[i]? with
    | none => s
    | some st => { s with parked := s.parked.eraseIdx i }.start env st
  | .drop i => { s with parked := s.parked.eraseIdx i }

/-- A start that was resumed does not ask for another ranking when it is taken up later. -/
def Calm (s : Controller) : Event → Prop
  | .unpark i env =>
    ∀ st ∈ s.parked[i]?, st.resumed = true → env.before = .goesOn → s.asksRanking env st = false
  | _ => True

end Controller

end Throned.Engine.AutoSelector
