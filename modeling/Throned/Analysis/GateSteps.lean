import Mathlib.Data.List.Basic
import Mathlib.Tactic.Common
import Throned.Model.Gate

/-!
# The steps of the gate

What each step of a handler leaves alone: a handler never closes the gate or retires a
generation, and it binds and forgets its own connections only.
-/

set_option autoImplicit false

namespace Throned.Xray

namespace Gate

/-- The connections with their generations, as they are or as `Close` found them. -/
def bindings (g : Gate) : List (Conn × ℕ) := g.conns.getD g.taken

theorem track_some {g g' : Gate} {conn : Conn} {generation : ℕ}
    (h : g.track conn generation = some g') :
    ∃ conns, g.conns = some conns ∧ (generation = 0 ∨ generation = g.generation) ∧
      g' = { g with conns := some ((conn, generation) :: conns.filter (·.1 ≠ conn)) } := by
  unfold track at h
  split at h
  · cases h
  · rename_i conns hconns
    split at h
    · cases h
    · rename_i hgeneration
      refine ⟨conns, hconns, ?_, (Option.some.inj h).symm⟩
      by_contra hne
      push Not at hne
      exact hgeneration hne

/-- What is bound by `track` is bound, and nothing else is lost. -/
theorem mem_bindings_track {g g' : Gate} {own : Conn} {generation : ℕ}
    (h : g.track own generation = some g') :
    (own, generation) ∈ g'.bindings ∧
      ∀ conn ∈ g.bindings, conn.1 ≠ own → conn ∈ g'.bindings := by
  obtain ⟨conns, hconns, -, rfl⟩ := track_some h
  rw [bindings, bindings, hconns]
  refine ⟨List.mem_cons_self, fun conn hconn hne => ?_⟩
  apply List.mem_cons_of_mem
  exact List.mem_filter.mpr ⟨hconn, by simpa using hne⟩

theorem mem_bindings_forget {g : Gate} {own : Conn} {conn : Conn × ℕ} (hconn : conn ∈ g.bindings)
    (hne : conn.1 ≠ own) : conn ∈ (g.forget own).bindings := by
  unfold bindings at hconn
  unfold bindings forget
  cases hconns : g.conns with
  | none =>
    rw [hconns] at hconn
    exact hconn
  | some conns =>
    rw [hconns] at hconn
    exact List.mem_filter.mpr ⟨hconn, by simpa using hne⟩

/-- A retired generation is refused. -/
theorem track_retired {g : Gate} {generation : ℕ} (conn : Conn) (hpos : 0 < generation)
    (hlt : generation < g.generation) : g.track conn generation = none := by
  unfold track
  split
  · rfl
  · rw [if_pos ⟨by omega, by omega⟩]

theorem track_closed {g : Gate} (conn : Conn) (generation : ℕ) (h : g.conns = none) :
    g.track conn generation = none := by
  unfold track
  rw [h]

/-- `ensure` gives nothing, the instance the gate holds, or a new one. -/
theorem ensure_cases {g g' : Gate} {answers : ℕ → StartAnswer} {given : Option Given}
    (h : g.ensure answers = (g', given)) :
    (given = none ∧ ∃ failure, g' = { g with failure }) ∨
      (g.closed = false ∧ ∃ id, g.inst = some id ∧ g' = g ∧ given = some ⟨id, g.generation⟩) ∨
      (g.closed = false ∧ g.inst = none ∧ given = some ⟨g.nextInstance, g.generation⟩ ∧
        g' = { g with
          inst := some g.nextInstance, live := g.nextInstance :: g.live
          nextInstance := g.nextInstance + 1, failure := none }) := by
  unfold ensure at h
  split at h
  · cases h
    exact Or.inl ⟨rfl, g.failure, rfl⟩
  · rename_i hclosed
    have hopen : g.closed = false := by simpa using hclosed
    split at h
    · rename_i id hid
      cases h
      exact Or.inr (Or.inl ⟨hopen, id, hid, rfl, rfl⟩)
    · rename_i hcold
      split at h
      · cases h
        exact Or.inl ⟨rfl, g.failure, rfl⟩
      · split at h
        · cases h
          exact Or.inr (Or.inr ⟨hopen, hcold, rfl, rfl⟩)
        · cases h
          exact Or.inl ⟨rfl, some g.now, rfl⟩

end Gate

/-- The connections of the `h`-th handler. -/
def Conn.isOf (h : ℕ) : Conn → Bool
  | .client k | .upstream k => k = h

theorem Conn.ne_of_isOf {h : ℕ} {conn own : Conn} (hconn : conn.isOf h = false)
    (hown : own.isOf h = true) : conn ≠ own := by
  intro heq
  rw [heq, hown] at hconn
  cases hconn

/-- What a step of the `h`-th handler does to the gate. -/
structure HandleFrame (g : Gate) (h : ℕ) (pc : HandlePc) (g' : Gate) (pc' : HandlePc) : Prop where
  closed : g'.closed = g.closed
  generation : g'.generation = g.generation
  stopped : g'.stopped = g.stopped
  taken : g'.taken = g.taken
  conns : g'.conns = none ↔ g.conns = none
  cut : ∀ conn ∈ g.cut, conn ∈ g'.cut
  active : g'.active + (if pc.isCounted then 1 else 0) =
    g.active + (if pc'.isCounted then 1 else 0)
  /-- What is bound anew has generation 0 or the current one. -/
  bound : ∀ conn ∈ g'.bindings, conn ∈ g.bindings ∨ conn.2 = 0 ∨ conn.2 = g.generation
  kept : ∀ conn ∈ g.bindings, conn.1.isOf h = false → conn ∈ g'.bindings

/-- What a step does to the instances. -/
inductive Started (g : Gate) (pc' : HandlePc) (g' : Gate) : Prop where
  | no (hinst : g'.inst = g.inst) (hlive : g'.live = g.live)
      (hnext : g'.nextInstance = g.nextInstance)
  | yes (hopen : g.closed = false) (hcold : g.inst = none)
      (hpc : pc' = .given ⟨g.nextInstance, g.generation⟩) (hinst : g'.inst = some g.nextInstance)
      (hlive : g'.live = g.nextInstance :: g.live) (hnext : g'.nextInstance = g.nextInstance + 1)

section Steps

variable {g g' : Gate} {h : ℕ} {a : HandleAnswers} {pc pc' : HandlePc}

/-- A step that leaves the connections alone. -/
theorem HandleFrame.of_same (hclosed : g'.closed = g.closed)
    (hgeneration : g'.generation = g.generation) (hstopped : g'.stopped = g.stopped)
    (htaken : g'.taken = g.taken) (hconns : g'.conns = g.conns)
    (hcut : ∀ conn ∈ g.cut, conn ∈ g'.cut)
    (hactive : g'.active + (if pc.isCounted then 1 else 0) =
      g.active + (if pc'.isCounted then 1 else 0)) : HandleFrame g h pc g' pc' where
  closed := hclosed
  generation := hgeneration
  stopped := hstopped
  taken := htaken
  conns := by rw [hconns]
  cut := hcut
  active := hactive
  bound conn hconn := by
    rw [Gate.bindings, hconns, htaken] at hconn
    exact Or.inl hconn
  kept conn hconn _ := by
    rw [Gate.bindings, hconns, htaken]
    exact hconn

theorem HandleFrame.of_track {own : Conn} {generation : ℕ} (hown : own.isOf h = true)
    (htrack : g.track own generation = some g') (hcounted : pc.isCounted = pc'.isCounted) :
    HandleFrame g h pc g' pc' := by
  have hkept := (Gate.mem_bindings_track htrack).2
  obtain ⟨conns, hconns, hgeneration, rfl⟩ := Gate.track_some htrack
  refine ⟨rfl, rfl, rfl, rfl, by simp [hconns], fun _ hc => hc, by rw [hcounted], ?_, ?_⟩
  · intro conn hconn
    rw [Gate.bindings, Option.getD_some] at hconn
    rcases List.mem_cons.mp hconn with rfl | hold
    · exact Or.inr hgeneration
    · rw [Gate.bindings, hconns]
      exact Or.inl (List.mem_of_mem_filter hold)
  · exact fun conn hconn hother => hkept conn hconn (Conn.ne_of_isOf hother hown)

theorem HandleFrame.of_forget {own : Conn} (hown : own.isOf h = true)
    (hcounted : pc.isCounted = pc'.isCounted) : HandleFrame g h pc (g.forget own) pc' := by
  refine ⟨rfl, rfl, rfl, rfl, ?_, fun _ hc => hc, by rw [hcounted]; rfl, ?_, ?_⟩
  · simp [Gate.forget]
  · intro conn hconn
    left
    unfold Gate.bindings Gate.forget at hconn
    unfold Gate.bindings
    cases hconns : g.conns with
    | none =>
      rw [hconns] at hconn
      exact hconn
    | some conns =>
      rw [hconns] at hconn
      exact List.mem_of_mem_filter hconn
  · exact fun conn hconn hother => Gate.mem_bindings_forget hconn (Conn.ne_of_isOf hother hown)

/-- **A handler leaves the generation, the closing and the other handlers alone.** -/
theorem handleFrame (hstep : g.handleStep h a pc = some (g', pc')) :
    HandleFrame g h pc g' pc' := by
  have hclient : (Conn.client h).isOf h = true := by simp [Conn.isOf]
  have hupstream : (Conn.upstream h).isOf h = true := by simp [Conn.isOf]
  have hcut : ∀ own, ∀ conn ∈ g.cut, conn ∈ (g.closeConn own).cut := fun _ _ hconn =>
    List.mem_cons_of_mem _ hconn
  cases pc with
  | accepted =>
    simp only [Gate.handleStep] at hstep
    split at hstep <;> cases hstep
    · exact .of_track hclient ‹_› rfl
    · exact .of_same rfl rfl rfl rfl rfl (fun _ hc => hc) rfl
  | refused | forgotten | upstreamRefused given | upstreamForgotten given =>
    cases hstep
    exact .of_same rfl rfl rfl rfl rfl (hcut _) rfl
  | tracked | touching | relaying given | uncounted =>
    cases hstep
    exact .of_same rfl rfl rfl rfl rfl (fun _ hc => hc) (by simp [HandlePc.isCounted, Gate.touch])
  | returning given =>
    cases hstep
    exact .of_same rfl rfl rfl rfl rfl (fun _ hc => hc) (by simp [HandlePc.isCounted])
  | counted =>
    simp only [Gate.handleStep] at hstep
    cases hensure : g.ensure a.starts with
    | mk g₁ given =>
      rw [hensure] at hstep
      rcases Gate.ensure_cases hensure with ⟨rfl, failure, rfl⟩ | ⟨-, id, -, rfl, rfl⟩ |
        ⟨-, -, rfl, rfl⟩ <;> cases hstep <;>
        exact .of_same rfl rfl rfl rfl rfl (fun _ hc => hc) rfl
  | given given =>
    simp only [Gate.handleStep] at hstep
    split at hstep <;> cases hstep
    · exact .of_track hclient ‹_› rfl
    · exact .of_same rfl rfl rfl rfl rfl (fun _ hc => hc) rfl
  | bound given =>
    simp only [Gate.handleStep] at hstep
    cases hstep
    split <;> exact .of_same rfl rfl rfl rfl rfl (fun _ hc => hc) rfl
  | dialed given =>
    simp only [Gate.handleStep] at hstep
    split at hstep <;> cases hstep
    · exact .of_track hupstream ‹_› rfl
    · exact .of_same rfl rfl rfl rfl rfl (fun _ hc => hc) rfl
  | relayed given =>
    cases hstep
    exact .of_forget hupstream rfl
  | leaving =>
    cases hstep
    exact .of_forget hclient rfl
  | done => cases hstep

theorem started (hstep : g.handleStep h a pc = some (g', pc')) : Started g pc' g' := by
  have htrack : ∀ {own : Conn} {generation : ℕ} {g₁ : Gate} {pc₁ : HandlePc},
      g.track own generation = some g₁ → Started g pc₁ g₁ := by
    intro own generation g₁ pc₁ htrack
    obtain ⟨conns, -, -, rfl⟩ := Gate.track_some htrack
    exact .no rfl rfl rfl
  cases pc with
  | accepted | given given | dialed given =>
    simp only [Gate.handleStep] at hstep
    split at hstep <;> cases hstep
    · exact htrack ‹_›
    · exact .no rfl rfl rfl
  | counted =>
    simp only [Gate.handleStep] at hstep
    cases hensure : g.ensure a.starts with
    | mk g₁ given =>
      rw [hensure] at hstep
      rcases Gate.ensure_cases hensure with ⟨rfl, failure, rfl⟩ | ⟨-, id, -, rfl, rfl⟩ |
        ⟨hopen, hcold, rfl, rfl⟩ <;> cases hstep
      · exact .no rfl rfl rfl
      · exact .no rfl rfl rfl
      · exact .yes hopen hcold rfl rfl rfl rfl
  | done => cases hstep
  | _ =>
    cases hstep
    exact .no rfl rfl rfl

end Steps

/-! ## The steps of the system -/

/-- What a step of the system can do. -/
inductive GateStep (s : GateState) : GateState → Prop where
  | stay : GateStep s s
  | accept : GateStep s { s with handles := s.handles ++ [.accepted] }
  | handle {h : ℕ} {a : HandleAnswers} {pc pc' : HandlePc} {g : Gate}
      (hpc : s.handles[h]? = some pc) (hstep : s.gate.handleStep h a pc = some (g, pc')) :
      GateStep s { s with gate := g, handles := s.handles.set h pc' }
  | recycle {id : ℕ} (hid : s.gate.inst = some id) :
      GateStep s { s with
        gate := { s.gate with inst := none, generation := s.gate.generation + 1 }
        recycles := s.recycles ++ [.retired ⟨id, s.gate.generation⟩] }
  | snapshot {k : ℕ} {given : Given} (hpc : s.recycles[k]? = some (.retired given)) :
      GateStep s { s with recycles := s.recycles.set k (.closing given
        (((s.gate.conns.getD []).filter fun conn => conn.2 = given.generation).map (·.1))) }
  | recycleCut {k : ℕ} {given : Given} {conn : Conn} {stale : List Conn}
      (hpc : s.recycles[k]? = some (.closing given (conn :: stale))) :
      GateStep s { s with
        gate := s.gate.closeConn conn, recycles := s.recycles.set k (.closing given stale) }
  | recycleEnd {k : ℕ} {given : Given} (hpc : s.recycles[k]? = some (.closing given [])) :
      GateStep s { s with
        gate := s.gate.closeInstance given.instanceId
        recycles := s.recycles.set k (.returned given) }
  | closeAgain (hclosed : s.gate.closed = true) :
      GateStep s { s with closesReturned := s.closesReturned + 1 }
  | close (hopen : s.gate.closed = false) :
      GateStep s { s with
        gate := { s.gate with closed := true, inst := none }, close := .taken s.gate.inst }
  | closeStop {inst : Option ℕ} (hpc : s.close = .taken inst) :
      GateStep s { s with
        gate := { s.gate with stopped := true, listening := false }, close := .stopped inst }
  | closeTake {inst : Option ℕ} (hpc : s.close = .stopped inst) :
      GateStep s { s with
        gate := { s.gate with conns := none, taken := s.gate.conns.getD [] }
        close := .closing inst ((s.gate.conns.getD []).map (·.1)) }
  | closeCut {inst : Option ℕ} {conn : Conn} {conns : List Conn}
      (hpc : s.close = .closing inst (conn :: conns)) :
      GateStep s { s with gate := s.gate.closeConn conn, close := .closing inst conns }
  | closeEnd {inst : Option ℕ} (hpc : s.close = .closing inst []) :
      GateStep s { s with
        gate := { s.gate with live := s.gate.live.filter fun id => some id ≠ inst }
        close := .returned, closesReturned := s.closesReturned + 1 }
  | sweepTick (hpc : s.sweeper = .ticking) : GateStep s { s with sweeper := .rechecking }
  | sweepTake {id : ℕ} (hpc : s.sweeper = .rechecking) (hidle : s.gate.idleNow = true)
      (hid : s.gate.inst = some id) :
      GateStep s { s with gate := { s.gate with inst := none }, sweeper := .closing id }
  | sweepBack (hpc : s.sweeper = .rechecking) : GateStep s { s with sweeper := .ticking }
  | sweepEnd {id : ℕ} (hpc : s.sweeper = .closing id) :
      GateStep s { s with gate := s.gate.closeInstance id, sweeper := .ticking }
  | sweepReturn (hpc : s.sweeper = .ticking) : GateStep s { s with sweeper := .returned }
  | pass (time : ℕ) : GateStep s { s with gate := { s.gate with now := s.gate.now + time } }

theorem gateStep_recycle {s t : GateState} {k : ℕ} (h : s.step (.recycleStep k) = some t) :
    GateStep s t := by
  simp only [GateState.step, Option.bind_eq_bind, Option.bind_eq_some_iff, Option.pure_def,
    Option.some.injEq] at h
  obtain ⟨pc, hpc, ⟨gate, pc'⟩, hstep, rfl⟩ := h
  cases pc with
  | retired given =>
    cases hstep
    exact .snapshot hpc
  | closing given stale =>
    cases stale with
    | nil =>
      cases hstep
      exact .recycleEnd hpc
    | cons conn stale =>
      cases hstep
      exact .recycleCut hpc
  | returned given => cases hstep

theorem gateStep_close {s t : GateState} (h : s.step .closeStep = some t) : GateStep s t := by
  simp only [GateState.step, Option.bind_eq_bind, Option.bind_eq_some_iff, Option.pure_def,
    Option.some.injEq] at h
  obtain ⟨⟨gate, close⟩, hstep, rfl⟩ := h
  cases hclose : s.close with
  | notCalled | returned =>
    rw [hclose] at hstep
    cases hstep
  | taken inst =>
    rw [hclose] at hstep
    cases hstep
    exact .closeStop hclose
  | stopped inst =>
    rw [hclose] at hstep
    cases hstep
    exact .closeTake hclose
  | closing inst conns =>
    rw [hclose] at hstep
    cases conns with
    | cons conn conns =>
      cases hstep
      exact .closeCut hclose
    | nil =>
      cases inst with
      | none =>
        cases hstep
        have hend := GateStep.closeEnd hclose
        simpa using hend
      | some id =>
        cases hstep
        have hend := GateStep.closeEnd hclose
        simpa [Gate.closeInstance] using hend

theorem gateStep_sweep {s t : GateState} (h : s.step .sweepStep = some t) : GateStep s t := by
  simp only [GateState.step, Option.bind_eq_bind, Option.bind_eq_some_iff, Option.pure_def,
    Option.some.injEq] at h
  obtain ⟨⟨gate, sweeper⟩, hstep, rfl⟩ := h
  cases hsweeper : s.sweeper with
  | ticking =>
    rw [hsweeper] at hstep
    cases hstep
    split
    · exact .sweepTick hsweeper
    · rw [← hsweeper]
      exact .stay
  | rechecking =>
    rw [hsweeper, Gate.sweepStep] at hstep
    split at hstep
    · rename_i hidle
      split at hstep
      · cases hstep
        exact .sweepBack hsweeper
      · rename_i id hid
        cases hstep
        exact .sweepTake hsweeper hidle hid
    · cases hstep
      exact .sweepBack hsweeper
  | closing id =>
    rw [hsweeper] at hstep
    cases hstep
    exact .sweepEnd hsweeper
  | returned =>
    rw [hsweeper] at hstep
    cases hstep

theorem gateStep_of_step {s t : GateState} {event : Event} (h : s.step event = some t) :
    GateStep s t := by
  cases event with
  | accept =>
    simp only [GateState.step] at h
    split at h <;> cases h
    exact .accept
  | handle k a =>
    simp only [GateState.step, Option.bind_eq_bind, Option.bind_eq_some_iff, Option.pure_def,
      Option.some.injEq] at h
    obtain ⟨pc, hpc, ⟨gate, pc'⟩, hstep, rfl⟩ := h
    exact .handle hpc hstep
  | recycle =>
    simp only [GateState.step] at h
    split at h <;> cases h
    · exact .stay
    · exact .recycle ‹_›
  | recycleStep k => exact gateStep_recycle h
  | close =>
    simp only [GateState.step] at h
    split at h
    · rename_i hclosed
      cases h
      exact .closeAgain hclosed
    · rename_i hopen
      cases h
      exact .close (by simpa using hopen)
  | closeStep => exact gateStep_close h
  | sweepStep => exact gateStep_sweep h
  | sweepReturn =>
    simp only [GateState.step] at h
    split at h <;> cases h
    rename_i hreturn
    exact .sweepReturn hreturn.2
  | pass time =>
    cases h
    exact .pass time

end Throned.Xray
