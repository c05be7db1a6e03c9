import Throned.Analysis.GateSteps
import Throned.Library.Actors

/-!
# The invariants of the gate

Each invariant is kept by every step and so holds in every state of every run: the handlers
are counted, an instance that runs is held or about to be closed, a counted handler's
instance is the one held, and what `Recycle` and `Close` collect is closed.
-/

set_option autoImplicit false

namespace Throned.Xray

open Throned.Library

/-! ## Counting -/

def GateState.Counted (s : GateState) : Prop :=
  s.gate.active = (s.handles.countP HandlePc.isCounted : Int)

theorem GateState.Counted.step {s t : GateState} (h : s.Counted) (hstep : GateStep s t) :
    t.Counted := by
  cases hstep with
  | accept =>
    show s.gate.active = ((s.handles ++ [HandlePc.accepted]).countP HandlePc.isCounted : Int)
    rw [List.countP_append]
    exact h
  | @handle k a pc pc' g hpc hstep =>
    have hactive := (handleFrame hstep).active
    have hcount := countP_step (b := pc') HandlePc.isCounted hpc
    unfold GateState.Counted at h ⊢
    simp only
    grind
  | _ => exact h

/-- Nobody has been given an instance while no handler is counted. -/
theorem holds_of_active_eq_zero {s : GateState} (h : s.Counted) (hactive : s.gate.active = 0)
    {k : ℕ} {pc : HandlePc} (hpc : s.handles[k]? = some pc) : pc.holds = none := by
  have hzero : s.handles.countP HandlePc.isCounted = 0 := by
    unfold GateState.Counted at h
    omega
  have hnot := List.countP_eq_zero.mp hzero pc (List.mem_of_getElem? hpc)
  cases pc <;> first | rfl | exact absurd rfl hnot

/-! ## Closing -/

/-- The call has taken the connections from the gate. -/
def ClosePc.hasTaken : ClosePc → Bool
  | .closing _ _ | .returned => true
  | _ => false

/-- The connections the call has yet to close. -/
def ClosePc.pending : ClosePc → List Conn
  | .closing _ conns => conns
  | _ => []

/-- What `Close` has taken is closed, or waits for it. -/
structure GateState.Closing (s : GateState) : Prop where
  notCalled : s.gate.closed = false → s.close = .notCalled
  closed : s.gate.closed = true → s.close ≠ .notCalled
  conns : s.gate.conns = none ↔ s.close.hasTaken = true
  cut : s.gate.conns = none → ∀ conn ∈ s.gate.taken,
    conn.1 ∈ s.gate.cut ∨ conn.1 ∈ s.close.pending

namespace GateState.Closing

variable {s : GateState}

/-- A step of anyone but the `Close` call. -/
theorem same {t : GateState} (h : s.Closing) (hclosed : t.gate.closed = s.gate.closed)
    (hconns : t.gate.conns = none ↔ s.gate.conns = none) (htaken : t.gate.taken = s.gate.taken)
    (hcut : ∀ conn ∈ s.gate.cut, conn ∈ t.gate.cut) (hclose : t.close = s.close) :
    t.Closing where
  notCalled hopen := by
    rw [hclose]
    exact h.notCalled (hclosed ▸ hopen)
  closed hc := by
    rw [hclose]
    exact h.closed (hclosed ▸ hc)
  conns := by
    rw [hclose]
    exact hconns.trans h.conns
  cut hnone conn hconn := by
    rw [hclose]
    exact (h.cut (hconns.mp hnone) conn (htaken ▸ hconn)).imp_left (hcut conn.1)

theorem step {t : GateState} (h : s.Closing) (hstep : GateStep s t) : t.Closing := by
  cases hstep with
  | handle hpc hstep =>
    have hframe := handleFrame hstep
    exact h.same hframe.closed hframe.conns hframe.taken hframe.cut rfl
  | recycleCut hpc =>
    exact h.same rfl Iff.rfl rfl (fun _ hc => List.mem_cons_of_mem _ hc) rfl
  | close hopen =>
    have hnot := h.notCalled hopen
    refine ⟨fun hc => ?_, fun _ => by simp, ?_, ?_⟩
    · cases hc
    · rw [h.conns, hnot]
      rfl
    · intro hnone
      have := h.conns.mp hnone
      rw [hnot] at this
      cases this
  | closeStop hpc =>
    have hconns : s.gate.conns ≠ none := by
      intro hnone
      have := h.conns.mp hnone
      rw [hpc] at this
      cases this
    refine ⟨fun hopen => ?_, fun _ => by simp, ?_, fun hnone => absurd hnone hconns⟩
    · have := h.notCalled hopen
      rw [hpc] at this
      cases this
    · exact iff_of_false hconns (by simp [ClosePc.hasTaken])
  | closeTake hpc =>
    refine ⟨fun hopen => ?_, fun _ => by simp, iff_of_true rfl rfl, fun _ conn hconn => ?_⟩
    · have := h.notCalled hopen
      rw [hpc] at this
      cases this
    · exact Or.inr (List.mem_map_of_mem hconn)
  | @closeCut inst conn conns hpc =>
    have hnone := h.conns.mpr (by rw [hpc]; rfl)
    refine ⟨fun hopen => ?_, fun _ => by simp, iff_of_true hnone rfl, fun _ c hc => ?_⟩
    · have := h.notCalled hopen
      rw [hpc] at this
      cases this
    · have hsafe := h.cut hnone c hc
      rw [hpc] at hsafe
      rcases hsafe with hcut | hpending
      · exact Or.inl (List.mem_cons_of_mem _ hcut)
      · rcases List.mem_cons.mp hpending with heq | hrest
        · exact Or.inl (heq ▸ List.mem_cons_self)
        · exact Or.inr hrest
  | closeEnd hpc =>
    have hnone := h.conns.mpr (by rw [hpc]; rfl)
    refine ⟨fun hopen => ?_, fun _ => by simp, iff_of_true hnone rfl, fun _ c hc => ?_⟩
    · have := h.notCalled hopen
      rw [hpc] at this
      cases this
    · have hsafe := h.cut hnone c hc
      rw [hpc] at hsafe
      exact hsafe
  | _ => exact h.same rfl Iff.rfl rfl (fun _ hc => hc) rfl

end GateState.Closing

/-! ## The instances -/

def RecyclePc.given : RecyclePc → Given
  | .retired given | .closing given _ | .returned given => given

/-- The instance a call has yet to close. -/
def RecyclePc.retires : RecyclePc → Option ℕ
  | .retired given | .closing given _ => some given.instanceId
  | .returned _ => none

def ClosePc.retires : ClosePc → Option ℕ
  | .taken inst | .stopped inst | .closing inst _ => inst
  | .notCalled | .returned => none

def SweepPc.retires : SweepPc → Option ℕ
  | .closing id => some id
  | _ => none

/-- A `Recycle`, the `Close` or the sweeper is about to close the instance. -/
def GateState.Retiring (s : GateState) (id : ℕ) : Prop :=
  (∃ pc ∈ s.recycles, pc.retires = some id) ∨ s.close.retires = some id ∨
    s.sweeper.retires = some id

/-- An instance that runs is held, or about to be closed. -/
structure GateState.Instances (s : GateState) : Prop where
  live : ∀ id, s.gate.inst = some id → id ∈ s.gate.live
  fresh : ∀ id ∈ s.gate.live, id < s.gate.nextInstance
  held : ∀ id ∈ s.gate.live, s.gate.inst = some id ∨ s.Retiring id
  retiring : ∀ id, s.Retiring id → s.gate.inst ≠ some id ∧ id < s.gate.nextInstance
  cold : s.gate.closed = true → s.gate.inst = none

namespace GateState.Instances

variable {s : GateState}

/-- An instance is taken from the gate by the one who closes it. -/
theorem take {t : GateState} (h : s.Instances) {id : ℕ} (hid : s.gate.inst = some id)
    (hinst : t.gate.inst = none) (hlive : t.gate.live = s.gate.live)
    (hnext : t.gate.nextInstance = s.gate.nextInstance)
    (hretiring : ∀ i, t.Retiring i ↔ s.Retiring i ∨ i = id) : t.Instances where
  live i hi := by
    rw [hinst] at hi
    cases hi
  fresh i hi := by
    rw [hnext]
    exact h.fresh i (hlive ▸ hi)
  held i hi := by
    right
    rw [hretiring]
    rcases h.held i (hlive ▸ hi) with hheld | hold
    · exact Or.inr (Option.some.inj (hheld.symm.trans hid))
    · exact Or.inl hold
  retiring i hi := by
    rw [hinst, hnext]
    refine ⟨by simp, ?_⟩
    rcases (hretiring i).mp hi with hold | rfl
    · exact (h.retiring i hold).2
    · exact h.fresh i (h.live i hid)
  cold _ := hinst

/-- A retired instance is closed. -/
theorem drop {t : GateState} (h : s.Instances) (dropped : Option ℕ)
    (hdropped : ∀ id, dropped = some id → s.Retiring id) (hinst : t.gate.inst = s.gate.inst)
    (hlive : t.gate.live = s.gate.live.filter fun id => some id ≠ dropped)
    (hnext : t.gate.nextInstance = s.gate.nextInstance) (hclosed : t.gate.closed = s.gate.closed)
    (hold : ∀ i, t.Retiring i → s.Retiring i)
    (hnew : ∀ i, s.Retiring i → t.Retiring i ∨ some i = dropped) : t.Instances where
  live i hi := by
    rw [hinst] at hi
    rw [hlive]
    refine List.mem_filter.mpr ⟨h.live i hi, ?_⟩
    simp only [ne_eq, decide_eq_true_eq]
    exact fun heq => (h.retiring i (hdropped i heq.symm)).1 hi
  fresh i hi := by
    rw [hlive] at hi
    rw [hnext]
    exact h.fresh i (List.mem_of_mem_filter hi)
  held i hi := by
    rw [hlive] at hi
    obtain ⟨hmem, hne⟩ := List.mem_filter.mp hi
    rw [hinst]
    refine (h.held i hmem).imp_right fun hretiring => (hnew i hretiring).resolve_right ?_
    simpa using hne
  retiring i hi := by
    rw [hinst, hnext]
    exact h.retiring i (hold i hi)
  cold hc := by
    rw [hinst]
    exact h.cold (hclosed ▸ hc)

/-- Nothing about the instances changes. -/
theorem same {t : GateState} (h : s.Instances) (hinst : t.gate.inst = s.gate.inst)
    (hlive : t.gate.live = s.gate.live) (hnext : t.gate.nextInstance = s.gate.nextInstance)
    (hclosed : t.gate.closed = s.gate.closed) (hretiring : ∀ i, t.Retiring i ↔ s.Retiring i) :
    t.Instances := by
  apply h.drop none (fun _ hid => by cases hid) hinst _ hnext hclosed
    (fun i => (hretiring i).mp) (fun i hi => Or.inl ((hretiring i).mpr hi))
  rw [hlive]
  exact (List.filter_eq_self.mpr fun _ _ => by simp).symm

/-- A `Recycle` call goes on, with the instance it has retired still to close. -/
theorem recycles_set {k : ℕ} {pc pc' : RecyclePc} (hpc : s.recycles[k]? = some pc)
    (hsame : pc'.retires = pc.retires) (i : ℕ) :
    (∃ p ∈ s.recycles.set k pc', p.retires = some i) ↔ ∃ p ∈ s.recycles, p.retires = some i := by
  constructor
  · rintro ⟨p, hp, hi⟩
    rcases List.mem_or_eq_of_mem_set hp with hold | rfl
    · exact ⟨p, hold, hi⟩
    · exact ⟨pc, List.mem_of_getElem? hpc, hsame ▸ hi⟩
  · rintro ⟨p, hp, hi⟩
    rcases mem_set_or_eq (b := pc') hpc hp with hkept | rfl
    · exact ⟨p, hkept, hi⟩
    · exact ⟨pc', mem_set_self hpc, hsame.trans hi⟩

theorem handle {k : ℕ} {a : HandleAnswers} {pc pc' : HandlePc} {g : Gate} (h : s.Instances)
    (hstep : s.gate.handleStep k a pc = some (g, pc')) :
    ({ s with gate := g, handles := s.handles.set k pc' } : GateState).Instances := by
  have hclosed := (handleFrame hstep).closed
  cases started hstep with
  | no hinst hlive hnext => exact h.same hinst hlive hnext hclosed fun _ => Iff.rfl
  | yes hopen hcold _ hinst hlive hnext =>
    refine ⟨fun i hi => ?_, fun i hi => ?_, fun i hi => ?_, fun i hi => ?_, fun hc => ?_⟩
    · simp only at hi ⊢
      rw [hinst] at hi
      rw [hlive, ← Option.some.inj hi]
      exact List.mem_cons_self
    · simp only at hi ⊢
      rw [hlive] at hi
      rw [hnext]
      rcases List.mem_cons.mp hi with rfl | hold
      · exact Nat.lt_succ_self _
      · exact Nat.lt_succ_of_lt (h.fresh i hold)
    · simp only at hi ⊢
      rw [hlive] at hi
      rw [hinst]
      rcases List.mem_cons.mp hi with rfl | hold
      · exact Or.inl rfl
      · right
        refine (h.held i hold).resolve_left fun hheld => ?_
        rw [hcold] at hheld
        cases hheld
    · have hlt := (h.retiring i hi).2
      simp only
      rw [hinst, hnext]
      refine ⟨fun heq => ?_, Nat.lt_succ_of_lt hlt⟩
      have := Option.some.inj heq
      omega
    · simp only at hc
      rw [hclosed, hopen] at hc
      cases hc

theorem step {t : GateState} (h : s.Instances) (hclosing : s.Closing) (hstep : GateStep s t) :
    t.Instances := by
  cases hstep with
  | handle hpc hstep => exact h.handle hstep
  | stay | accept | closeAgain _ | pass _ => exact h.same rfl rfl rfl rfl fun _ => Iff.rfl
  | sweepTick hpc | sweepBack hpc | sweepReturn hpc =>
    refine h.same rfl rfl rfl rfl ?_
    intro i
    simp [GateState.Retiring, hpc, SweepPc.retires]
  | closeStop hpc | closeTake hpc | closeCut hpc =>
    refine h.same rfl rfl rfl rfl ?_
    intro i
    simp [GateState.Retiring, hpc, ClosePc.retires]
  | snapshot hpc | recycleCut hpc =>
    refine h.same rfl rfl rfl rfl fun i => or_congr ?_ Iff.rfl
    apply recycles_set hpc
    rfl
  | @recycle id hid =>
    refine h.take hid rfl rfl rfl ?_
    intro i
    unfold GateState.Retiring
    simp only [List.mem_append, List.mem_singleton]
    constructor
    · rintro (⟨p, hp | rfl, hi⟩ | hother)
      · exact Or.inl (Or.inl ⟨p, hp, hi⟩)
      · exact Or.inr (Option.some.inj hi).symm
      · exact Or.inl (Or.inr hother)
    · rintro ((⟨p, hp, hi⟩ | hother) | rfl)
      · exact Or.inl ⟨p, Or.inl hp, hi⟩
      · exact Or.inr hother
      · exact Or.inl ⟨_, Or.inr rfl, rfl⟩
  | @sweepTake id hpc _ hid =>
    refine h.take hid rfl rfl rfl ?_
    intro i
    simp only [GateState.Retiring, hpc, SweepPc.retires, Option.some.injEq]
    grind
  | close hopen =>
    have hnot : s.close = .notCalled := hclosing.notCalled hopen
    cases hinst : s.gate.inst with
    | none =>
      have hsame : ∀ i, ({ s with close := ClosePc.taken none } : GateState).Retiring i ↔
          s.Retiring i := by
        intro i
        simp [GateState.Retiring, hnot, ClosePc.retires]
      have hclosed : ({ s with close := ClosePc.taken none } : GateState).Instances :=
        h.same rfl rfl rfl rfl hsame
      exact ⟨fun i hi => absurd hi (by simp), hclosed.fresh, fun i hi => by
        have := hclosed.held i hi
        simp only [hinst] at this
        exact this, fun i hi => ⟨by simp, (hclosed.retiring i hi).2⟩, fun _ => rfl⟩
    | some id =>
      refine h.take hinst rfl rfl rfl ?_
      intro i
      simp only [GateState.Retiring, hnot, ClosePc.retires, Option.some.injEq]
      grind
  | @recycleEnd k given hpc =>
    have hmem := List.mem_of_getElem? hpc
    refine h.drop (some given.instanceId) ?_ rfl ?_ rfl rfl ?_ ?_
    · intro id hid
      exact Or.inl ⟨_, hmem, hid⟩
    · simp [Gate.closeInstance]
    · rintro i (⟨p, hp, hi⟩ | hother)
      · rcases List.mem_or_eq_of_mem_set hp with hold | rfl
        · exact Or.inl ⟨p, hold, hi⟩
        · cases hi
      · exact Or.inr hother
    · rintro i (⟨p, hp, hi⟩ | hother)
      · rcases mem_set_or_eq (b := .returned given) hpc hp with hkept | rfl
        · exact Or.inl (Or.inl ⟨p, hkept, hi⟩)
        · exact Or.inr hi.symm
      · exact Or.inl (Or.inr hother)
  | @closeEnd inst hpc =>
    refine h.drop inst ?_ rfl rfl rfl rfl ?_ ?_
    · intro id hid
      exact Or.inr (Or.inl (by rw [hpc]; exact hid))
    · simp only [GateState.Retiring, hpc, ClosePc.retires]
      grind
    · simp only [GateState.Retiring, hpc, ClosePc.retires]
      grind
  | @sweepEnd id hpc =>
    refine h.drop (some id) ?_ rfl ?_ rfl rfl ?_ ?_
    · intro i hi
      exact Or.inr (Or.inr (by rw [hpc]; exact hi))
    · simp [Gate.closeInstance]
    · simp only [GateState.Retiring, hpc, SweepPc.retires]
      grind
    · simp only [GateState.Retiring, hpc, SweepPc.retires]
      grind

end GateState.Instances

/-! ## The instances that have been given -/

/-- A handler has its instance from an earlier step, or from this one. -/
theorem holds_handleStep {g g' : Gate} {h : ℕ} {a : HandleAnswers} {pc pc' : HandlePc}
    {given : Given} (hstep : g.handleStep h a pc = some (g', pc'))
    (hholds : pc'.holds = some given) :
    pc.holds = some given ∨
      (given.generation = g.generation ∧ g'.inst = some given.instanceId ∧
        (g.inst = some given.instanceId ∨ given.instanceId = g.nextInstance)) := by
  cases pc with
  | counted =>
    right
    simp only [Gate.handleStep] at hstep
    cases hensure : g.ensure a.starts with
    | mk g₁ got =>
      rw [hensure] at hstep
      rcases Gate.ensure_cases hensure with ⟨rfl, failure, rfl⟩ | ⟨-, id, hid, rfl, rfl⟩ |
        ⟨-, -, rfl, rfl⟩ <;> cases hstep <;> cases hholds
      · exact ⟨rfl, hid, Or.inl hid⟩
      · exact ⟨rfl, rfl, Or.inr rfl⟩
  | accepted | dialed _ | given _ =>
    left
    simp only [Gate.handleStep] at hstep
    split at hstep <;> cases hstep <;> exact hholds
  | bound got =>
    left
    simp only [Gate.handleStep] at hstep
    cases hstep
    split at hholds <;> exact hholds
  | done => cases hstep
  | returning got =>
    cases hstep
    cases hholds
  | _ =>
    left
    cases hstep
    exact hholds

/-- A holder after a step of the `k`-th handler held before, or `ensure` has just given it
its instance. -/
theorem holds_set {s : GateState} {k : ℕ} {a : HandleAnswers} {pc pc' : HandlePc} {g : Gate}
    (hpc : s.handles[k]? = some pc) (hstep : s.gate.handleStep k a pc = some (g, pc')) {j : ℕ}
    {p : HandlePc} {given : Given} (hj : (s.handles.set k pc')[j]? = some p)
    (hholds : p.holds = some given) :
    (∃ (i : ℕ) (p₀ : HandlePc), s.handles[i]? = some p₀ ∧ p₀.holds = some given) ∨
      (given.generation = s.gate.generation ∧ g.inst = some given.instanceId ∧
        (s.gate.inst = some given.instanceId ∨ given.instanceId = s.gate.nextInstance)) := by
  rcases getElem?_set_cases hj with ⟨rfl, rfl⟩ | ⟨-, hold⟩
  · exact (holds_handleStep hstep hholds).imp_left fun hold => ⟨j, pc, hpc, hold⟩
  · exact Or.inl ⟨j, p, hold, hholds⟩

/-- The instance of a counted handler is the one the gate holds, unless it was retired, and
the sweeper does not close it. -/
structure GateState.Serving (s : GateState) : Prop where
  positive : 0 < s.gate.generation
  given : ∀ (k : ℕ) pc given, s.handles[k]? = some pc → pc.holds = some given →
    0 < given.generation ∧ given.generation ≤ s.gate.generation ∧
      given.instanceId < s.gate.nextInstance
  current : ∀ (k : ℕ) pc given, s.handles[k]? = some pc → pc.holds = some given →
    s.gate.closed = false → given.generation = s.gate.generation →
    s.gate.inst = some given.instanceId
  swept : ∀ id, s.sweeper = .closing id → ∀ (k : ℕ) pc given, s.handles[k]? = some pc →
    pc.holds = some given → given.instanceId ≠ id

namespace GateState.Serving

variable {s : GateState}

/-- A step that leaves what the handlers and the gate have alone. -/
theorem same {t : GateState} (h : s.Serving) (hhandles : t.handles = s.handles)
    (hclosed : t.gate.closed = s.gate.closed) (hinst : t.gate.inst = s.gate.inst)
    (hgeneration : t.gate.generation = s.gate.generation)
    (hnext : t.gate.nextInstance = s.gate.nextInstance)
    (hsweeper : ∀ id, t.sweeper = .closing id → s.sweeper = .closing id) : t.Serving where
  positive := by
    rw [hgeneration]
    exact h.positive
  given := by
    rw [hhandles, hgeneration, hnext]
    exact h.given
  current := by
    rw [hhandles, hgeneration, hclosed, hinst]
    exact h.current
  swept id hid := by
    rw [hhandles]
    exact h.swept id (hsweeper id hid)

theorem handle {k : ℕ} {a : HandleAnswers} {pc pc' : HandlePc} {g : Gate} (h : s.Serving)
    (hinstances : s.Instances) (hpc : s.handles[k]? = some pc)
    (hstep : s.gate.handleStep k a pc = some (g, pc')) :
    ({ s with gate := g, handles := s.handles.set k pc' } : GateState).Serving := by
  have hframe := handleFrame hstep
  have hnext : s.gate.nextInstance ≤ g.nextInstance := by
    cases started hstep with
    | no _ _ hnext => exact Nat.le_of_eq hnext.symm
    | yes _ _ _ _ _ hnext => omega
  have hinst : ∀ id, s.gate.inst = some id → g.inst = some id := by
    intro id hid
    cases started hstep with
    | no hinst _ _ => rw [hinst, hid]
    | yes _ hcold _ _ _ _ =>
      rw [hcold] at hid
      cases hid
  have hfresh : ∀ id, g.inst = some id → id < g.nextInstance := by
    intro id hid
    cases started hstep with
    | no hinst _ hsame =>
      rw [hsame]
      exact hinstances.fresh id (hinstances.live id (hinst ▸ hid))
    | yes _ _ _ hinst _ hsucc =>
      rw [hinst] at hid
      cases hid
      omega
  constructor
  · simp only
    rw [hframe.generation]
    exact h.positive
  · intro j p given hj hholds
    simp only
    rw [hframe.generation]
    rcases holds_set hpc hstep hj hholds with ⟨i, p₀, hi, hold⟩ | ⟨hgeneration, hnew, -⟩
    · obtain ⟨hpos, hle, hlt⟩ := h.given i p₀ given hi hold
      exact ⟨hpos, hle, by omega⟩
    · exact ⟨by rw [hgeneration]; exact h.positive, Nat.le_of_eq hgeneration, hfresh _ hnew⟩
  · intro j p given hj hholds hopen hgeneration
    simp only at hopen hgeneration ⊢
    rw [hframe.closed] at hopen
    rw [hframe.generation] at hgeneration
    rcases holds_set hpc hstep hj hholds with ⟨i, p₀, hi, hold⟩ | ⟨-, hnew, -⟩
    · exact hinst _ (h.current i p₀ given hi hold hopen hgeneration)
    · exact hnew
  · intro id hid j p given hj hholds
    have hretiring := hinstances.retiring id (Or.inr (Or.inr (by rw [hid]; rfl)))
    rcases holds_set hpc hstep hj hholds with ⟨i, p₀, hi, hold⟩ | ⟨-, -, hheld | hnew⟩
    · exact h.swept id hid i p₀ given hi hold
    · rintro rfl
      exact hretiring.1 hheld
    · omega

theorem step {t : GateState} (h : s.Serving) (hcounted : s.Counted) (hinstances : s.Instances)
    (hstep : GateStep s t) : t.Serving := by
  cases hstep with
  | handle hpc hstep => exact h.handle hinstances hpc hstep
  | accept =>
    have hcases : ∀ (j : ℕ) p given, (s.handles ++ [HandlePc.accepted])[j]? = some p →
        p.holds = some given → s.handles[j]? = some p := by
      intro j p given hj hholds
      refine (getElem?_append_cases hj).resolve_right fun heq => ?_
      rw [heq] at hholds
      cases hholds
    refine ⟨h.positive, ?_, ?_, ?_⟩
    · intro j p given hj hholds
      exact h.given j p given (hcases j p given hj hholds) hholds
    · intro j p given hj hholds
      exact h.current j p given (hcases j p given hj hholds) hholds
    · intro id hid j p given hj hholds
      exact h.swept id hid j p given (hcases j p given hj hholds) hholds
  | recycle hid =>
    refine ⟨Nat.succ_pos _, fun k pc given hpc hholds => ?_, fun k pc given hpc hholds _ heq => ?_,
      h.swept⟩
    · obtain ⟨hpos, hle, hlt⟩ := h.given k pc given hpc hholds
      exact ⟨hpos, Nat.le_succ_of_le hle, hlt⟩
    · have hle := (h.given k pc given hpc hholds).2.1
      simp only at heq
      omega
  | close hopen =>
    refine ⟨h.positive, h.given, fun k pc given hpc hholds hc => ?_, h.swept⟩
    cases hc
  | sweepTake hpc hidle hid =>
    have hnone : ∀ (k : ℕ) pc given, s.handles[k]? = some pc → pc.holds ≠ some given := by
      intro k pc given hk hholds
      rw [holds_of_active_eq_zero hcounted (of_decide_eq_true hidle).2.1 hk] at hholds
      cases hholds
    exact ⟨h.positive, h.given, fun k pc given hk hholds => absurd hholds (hnone k pc given hk),
      fun _ _ k pc given hk hholds => absurd hholds (hnone k pc given hk)⟩
  | sweepTick hpc | sweepBack hpc | sweepEnd hpc | sweepReturn hpc =>
    refine h.same rfl rfl rfl rfl rfl ?_
    intro id hid
    cases hid
  | _ => exact h.same rfl rfl rfl rfl rfl fun _ hid => hid

end GateState.Serving

end Throned.Xray
