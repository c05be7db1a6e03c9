import Throned.Analysis.GateInvariants

/-!
# What the gate guarantees

A handler's connections are in the gate's table while they are bound, so what `Recycle`
collects is every connection of the retired generation, and what `Close` takes is every
connection there is.  The four guarantees follow for any interleaving.
-/

set_option autoImplicit false

namespace Throned.Xray

open Throned.Library

/-! ## The table of connections -/

/-- Between the first `track` and the last `forget`. -/
def HandlePc.isTracked : HandlePc → Bool
  | .accepted | .refused | .forgotten | .done => false
  | _ => true

/-- The client connection is bound to what was given. -/
def HandlePc.boundTo : HandlePc → Option Given
  | .bound g | .dialed g | .upstreamRefused g | .relaying g | .relayed g
  | .upstreamForgotten g => some g
  | _ => none

/-- Both connections are bound, for the relay. -/
def HandlePc.relays : HandlePc → Option Given
  | .relaying g | .relayed g => some g
  | _ => none

/-- The connections of a handler are in the table until it closes them. -/
structure Bound (g : Gate) (h : ℕ) (pc : HandlePc) : Prop where
  tracked : pc.isTracked = true → ∃ n, (Conn.client h, n) ∈ g.bindings
  client : ∀ given, pc.boundTo = some given → (Conn.client h, given.generation) ∈ g.bindings
  upstream : ∀ given, pc.relays = some given → (Conn.upstream h, given.generation) ∈ g.bindings
  done : pc = .done → Conn.client h ∈ g.cut

namespace Bound

variable {g g' : Gate} {h : ℕ} {a : HandleAnswers} {pc pc' : HandlePc}

theorem congr (hb : Bound g h pc) (hbindings : ∀ conn ∈ g.bindings, conn.1.isOf h = true →
    conn ∈ g'.bindings) (hcut : ∀ conn ∈ g.cut, conn ∈ g'.cut) : Bound g' h pc where
  tracked ht := by
    obtain ⟨n, hn⟩ := hb.tracked ht
    exact ⟨n, hbindings _ hn (by simp [Conn.isOf])⟩
  client given hc := hbindings _ (hb.client given hc) (by simp [Conn.isOf])
  upstream given hu := hbindings _ (hb.upstream given hu) (by simp [Conn.isOf])
  done hd := hcut _ (hb.done hd)

theorem other {j : ℕ} {p : HandlePc} (hb : Bound g j p) (hframe : HandleFrame g h pc g' pc')
    (hne : j ≠ h) : Bound g' j p := by
  refine hb.congr (fun conn hconn hown => ?_) hframe.cut
  apply hframe.kept conn hconn
  cases hc : conn.1 <;> rw [hc] at hown <;> simp only [Conn.isOf, decide_eq_true_eq] at hown <;>
    simp only [Conn.isOf, decide_eq_false_iff_not] <;> omega

/-- Where nothing is bound and nothing relayed, only the table of the tracked matters. -/
theorem of_boundTo_none (htracked : pc.isTracked = true → ∃ n, (Conn.client h, n) ∈ g.bindings)
    (hclient : pc.boundTo = none) (hupstream : pc.relays = none) (hdone : pc ≠ .done) :
    Bound g h pc where
  tracked := htracked
  client := by simp [hclient]
  upstream := by simp [hupstream]
  done := fun heq => absurd heq hdone

theorem handle (hb : Bound g h pc) (hstep : g.handleStep h a pc = some (g', pc')) :
    Bound g' h pc' := by
  cases pc with
  | accepted =>
    simp only [Gate.handleStep] at hstep
    split at hstep <;> cases hstep
    · rename_i htrack
      exact of_boundTo_none (fun _ => ⟨0, (Gate.mem_bindings_track htrack).1⟩) rfl rfl (by rintro ⟨⟩)
    · exact of_boundTo_none (by rintro ⟨⟩) rfl rfl (by rintro ⟨⟩)
  | given given =>
    simp only [Gate.handleStep] at hstep
    split at hstep <;> cases hstep
    · rename_i htrack
      have hmem := (Gate.mem_bindings_track htrack).1
      refine ⟨fun _ => ⟨_, hmem⟩, fun _ hg => ?_, (by rintro _ ⟨⟩), (by rintro ⟨⟩)⟩
      cases hg
      exact hmem
    · exact of_boundTo_none hb.tracked rfl rfl (by rintro ⟨⟩)
  | dialed given =>
    simp only [Gate.handleStep] at hstep
    split at hstep <;> cases hstep
    · rename_i htrack
      obtain ⟨hmem, hkept⟩ := Gate.mem_bindings_track htrack
      have hclient := hkept _ (hb.client given rfl) (by simp)
      refine ⟨fun _ => ⟨_, hclient⟩, fun _ hg => ?_, fun _ hg => ?_, (by rintro ⟨⟩)⟩
      · cases hg
        exact hclient
      · cases hg
        exact hmem
    · exact ⟨hb.tracked, hb.client, (by rintro _ ⟨⟩), (by rintro ⟨⟩)⟩
  | relayed given =>
    cases hstep
    have hclient := @Gate.mem_bindings_forget _ (.upstream h) _ (hb.client given rfl) (by simp)
    refine ⟨fun _ => ⟨_, hclient⟩, fun _ hg => ?_, (by rintro _ ⟨⟩), (by rintro ⟨⟩)⟩
    cases hg
    exact hclient
  | counted =>
    simp only [Gate.handleStep] at hstep
    cases hensure : g.ensure a.starts with
    | mk g₁ got =>
      rw [hensure] at hstep
      rcases Gate.ensure_cases hensure with ⟨rfl, failure, rfl⟩ | ⟨-, id, hid, rfl, rfl⟩ |
        ⟨-, -, rfl, rfl⟩ <;> cases hstep <;> exact of_boundTo_none hb.tracked rfl rfl (by rintro ⟨⟩)
  | bound given =>
    simp only [Gate.handleStep] at hstep
    cases hstep
    split
    · exact ⟨hb.tracked, hb.client, (by rintro _ ⟨⟩), (by rintro ⟨⟩)⟩
    · exact of_boundTo_none hb.tracked rfl rfl (by rintro ⟨⟩)
  | relaying given =>
    cases hstep
    exact ⟨hb.tracked, hb.client, hb.upstream, (by rintro ⟨⟩)⟩
  | upstreamRefused given | upstreamForgotten given | returning given =>
    cases hstep
    exact of_boundTo_none hb.tracked rfl rfl (by rintro ⟨⟩)
  | tracked | touching | uncounted =>
    cases hstep
    exact of_boundTo_none hb.tracked rfl rfl (by rintro ⟨⟩)
  | leaving =>
    cases hstep
    exact of_boundTo_none (by rintro ⟨⟩) rfl rfl (by rintro ⟨⟩)
  | refused | forgotten =>
    cases hstep
    exact ⟨(by rintro ⟨⟩), (by rintro _ ⟨⟩), (by rintro _ ⟨⟩), fun _ => List.mem_cons_self⟩
  | done => cases hstep

end Bound

/-- Every handler's connections are in the table. -/
def GateState.Tabled (s : GateState) : Prop :=
  ∀ (k : ℕ) pc, s.handles[k]? = some pc → Bound s.gate k pc

/-- `Close` keeps the table it takes. -/
theorem bindings_take {s : GateState} (hclosing : s.Closing) {inst : Option ℕ}
    (hpc : s.close = .stopped inst) : s.gate.bindings = s.gate.conns.getD [] := by
  have hsome : s.gate.conns ≠ none := by
    intro hnone
    have := hclosing.conns.mp hnone
    rw [hpc] at this
    cases this
  unfold Gate.bindings
  cases hconns : s.gate.conns with
  | none => exact absurd hconns hsome
  | some conns => rfl

theorem GateState.Tabled.step {s t : GateState} (h : s.Tabled) (hclosing : s.Closing)
    (hstep : GateStep s t) : t.Tabled := by
  cases hstep with
  | handle hpc hstep =>
    intro k pc hk
    rcases getElem?_set_cases hk with ⟨rfl, rfl⟩ | ⟨hne, hold⟩
    · exact (h k _ hpc).handle hstep
    · exact (h k pc hold).other (handleFrame hstep) hne
  | accept =>
    intro k pc hk
    rcases getElem?_append_cases hk with hold | rfl
    · exact h k pc hold
    · exact ⟨nofun, nofun, nofun, nofun⟩
  | recycleCut hpc | closeCut hpc =>
    exact fun k pc hk => (h k pc hk).congr (fun _ hconn _ => hconn) fun _ =>
      List.mem_cons_of_mem _
  | closeTake hpc =>
    intro k pc hk
    refine (h k pc hk).congr (fun conn hconn _ => ?_) fun _ hcut => hcut
    rw [bindings_take hclosing hpc] at hconn
    exact hconn
  | _ => exact fun k pc hk => (h k pc hk).congr (fun _ hconn _ => hconn) fun _ hcut => hcut

/-! ## What is closed -/

/-- A connection is closed, or in the list a running `Close` goes through. -/
def GateState.IsCut (s : GateState) (conn : Conn) : Prop :=
  conn ∈ s.gate.cut ∨ conn ∈ s.close.pending

theorem GateState.IsCut.step {s t : GateState} {conn : Conn} (h : s.IsCut conn)
    (hclosing : s.Closing) (hstep : GateStep s t) : t.IsCut conn := by
  cases hstep with
  | handle hpc hstep => exact h.imp_left ((handleFrame hstep).cut conn)
  | recycleCut hpc => exact h.imp_left (List.mem_cons_of_mem _)
  | close hopen =>
    refine h.imp_right fun hpending => ?_
    rw [hclosing.notCalled hopen] at hpending
    exact hpending
  | closeStop hpc | closeTake hpc =>
    rcases h with hcut | hpending
    · exact Or.inl hcut
    · rw [hpc] at hpending
      cases hpending
  | closeCut hpc =>
    rcases h with hcut | hpending
    · exact Or.inl (List.mem_cons_of_mem _ hcut)
    · rw [hpc] at hpending
      rcases List.mem_cons.mp hpending with rfl | hrest
      · exact Or.inl List.mem_cons_self
      · exact Or.inr hrest
  | closeEnd hpc =>
    refine h.imp_right fun hpending => ?_
    rw [hpc] at hpending
    exact hpending
  | _ => exact h

/-- The connections a `Recycle` call has yet to close, once it has collected them. -/
def RecyclePc.stale : RecyclePc → Option (List Conn)
  | .retired _ => none
  | .closing _ stale => some stale
  | .returned _ => some []

/-- What is still bound to a retired generation is closed, or the call is about to. -/
structure GateState.Recycled (s : GateState) : Prop where
  generation : ∀ pc ∈ s.recycles, 0 < pc.given.generation ∧
    pc.given.generation < s.gate.generation
  cut : ∀ pc ∈ s.recycles, ∀ stale, pc.stale = some stale →
    ∀ conn, (conn, pc.given.generation) ∈ s.gate.bindings → s.IsCut conn ∨ conn ∈ stale

namespace GateState.Recycled

variable {s t : GateState}

/-- A step that binds nothing to a retired generation and leaves the calls alone. -/
theorem same (h : s.Recycled) (hclosing : s.Closing) (hstep : GateStep s t)
    (hrecycles : t.recycles = s.recycles) (hgeneration : t.gate.generation = s.gate.generation)
    (hbindings : ∀ conn ∈ t.gate.bindings, conn ∈ s.gate.bindings ∨ conn.2 = 0 ∨
      conn.2 = s.gate.generation) : t.Recycled where
  generation := by
    rw [hrecycles, hgeneration]
    exact h.generation
  cut pc hpc stale hstale conn hconn := by
    rw [hrecycles] at hpc
    obtain ⟨hpos, hlt⟩ := h.generation pc hpc
    have hold := (hbindings _ hconn).resolve_right (by simp only; omega)
    exact (h.cut pc hpc stale hstale conn hold).imp_left fun hcut => hcut.step hclosing hstep

/-- A step of one of the calls. -/
theorem call (h : s.Recycled) (hclosing : s.Closing) (hstep : GateStep s t) {k : ℕ}
    {pc pc' : RecyclePc} (hpc : s.recycles[k]? = some pc)
    (hrecycles : t.recycles = s.recycles.set k pc') (hgiven : pc'.given = pc.given)
    (hgeneration : t.gate.generation = s.gate.generation)
    (hbindings : t.gate.bindings = s.gate.bindings)
    (hcut : ∀ stale, pc'.stale = some stale → ∀ conn,
      (conn, pc.given.generation) ∈ s.gate.bindings → t.IsCut conn ∨ conn ∈ stale) :
    t.Recycled where
  generation p hp := by
    rw [hrecycles] at hp
    rw [hgeneration]
    rcases List.mem_or_eq_of_mem_set hp with hold | rfl
    · exact h.generation p hold
    · rw [hgiven]
      exact h.generation pc (List.mem_of_getElem? hpc)
  cut p hp stale hstale conn hconn := by
    rw [hrecycles] at hp
    rw [hbindings] at hconn
    rcases List.mem_or_eq_of_mem_set hp with hold | rfl
    · exact (h.cut p hold stale hstale conn hconn).imp_left fun hc => hc.step hclosing hstep
    · rw [hgiven] at hconn
      exact hcut stale hstale conn hconn

theorem step (h : s.Recycled) (hclosing : s.Closing) (hserving : s.Serving)
    (hstep : GateStep s t) : t.Recycled := by
  have hstep' := hstep
  cases hstep with
  | handle hpc hstep =>
    have hframe := handleFrame hstep
    exact h.same hclosing hstep' rfl hframe.generation hframe.bound
  | recycle hid =>
    constructor
    · intro pc hpc
      rcases List.mem_append.mp hpc with hold | hnew
      · obtain ⟨hpos, hlt⟩ := h.generation pc hold
        exact ⟨hpos, Nat.lt_succ_of_lt hlt⟩
      · rw [List.mem_singleton.mp hnew]
        exact ⟨hserving.positive, Nat.lt_succ_self _⟩
    · intro pc hpc stale hstale conn hconn
      rcases List.mem_append.mp hpc with hold | hnew
      · exact h.cut pc hold stale hstale conn hconn
      · rw [List.mem_singleton.mp hnew] at hstale
        cases hstale
  | @snapshot k given hpc =>
    refine h.call hclosing hstep' hpc rfl rfl rfl rfl fun stale hstale conn hconn => ?_
    cases hstale
    cases hconns : s.gate.conns with
    | none =>
      rw [Gate.bindings, hconns] at hconn
      exact Or.inl (hclosing.cut hconns _ hconn)
    | some conns =>
      rw [Gate.bindings, hconns] at hconn
      right
      refine List.mem_map.mpr ⟨_, List.mem_filter.mpr ⟨hconn, ?_⟩, rfl⟩
      simp [RecyclePc.given]
  | @recycleCut k given conn stale hpc =>
    refine h.call hclosing hstep' hpc rfl rfl rfl rfl fun rest hrest c hc => ?_
    cases hrest
    rcases h.cut _ (List.mem_of_getElem? hpc) _ rfl c hc with hcut | hstale
    · exact Or.inl (hcut.step hclosing hstep')
    · rcases List.mem_cons.mp hstale with rfl | htail
      · exact Or.inl (Or.inl List.mem_cons_self)
      · exact Or.inr htail
  | recycleEnd hpc =>
    refine h.call hclosing hstep' hpc rfl rfl rfl rfl fun rest hrest c hc => ?_
    cases hrest
    refine (h.cut _ (List.mem_of_getElem? hpc) _ rfl c hc).imp_left fun hcut => ?_
    exact hcut.step hclosing hstep'
  | closeTake hpc =>
    refine h.same hclosing hstep' rfl rfl fun conn hconn => ?_
    rw [bindings_take hclosing hpc]
    exact Or.inl hconn
  | _ => exact h.same hclosing hstep' rfl rfl fun _ hconn => Or.inl hconn

end GateState.Recycled

/-- An instance belongs to one generation, which those who have been given it know. -/
structure GateState.Owned (s : GateState) : Prop where
  retired : ∀ pc ∈ s.recycles, s.gate.inst ≠ some pc.given.instanceId ∧
    pc.given.instanceId < s.gate.nextInstance
  held : ∀ (k : ℕ) p given, s.handles[k]? = some p → p.holds = some given →
    s.gate.inst = some given.instanceId → given.generation = s.gate.generation
  given : ∀ pc ∈ s.recycles, ∀ (k : ℕ) p given, s.handles[k]? = some p →
    p.holds = some given → given.instanceId = pc.given.instanceId →
    given.generation = pc.given.generation

namespace GateState.Owned

variable {s t : GateState}

/-- A step that starts no instance and gives out none. -/
theorem same (h : s.Owned) (hrecycles : ∀ pc ∈ t.recycles, ∃ p ∈ s.recycles, p.given = pc.given)
    (hhandles : ∀ (k : ℕ) p given, t.handles[k]? = some p → p.holds = some given →
      s.handles[k]? = some p)
    (hinst : ∀ id, t.gate.inst = some id → s.gate.inst = some id)
    (hgeneration : t.gate.generation = s.gate.generation)
    (hnext : t.gate.nextInstance = s.gate.nextInstance) : t.Owned where
  retired pc hpc := by
    obtain ⟨p, hp, heq⟩ := hrecycles pc hpc
    rw [← heq, hnext]
    exact ⟨fun hid => (h.retired p hp).1 (hinst _ hid), (h.retired p hp).2⟩
  held k p given hk hholds hid := by
    rw [hgeneration]
    exact h.held k p given (hhandles k p given hk hholds) hholds (hinst _ hid)
  given pc hpc k p given hk hholds hid := by
    obtain ⟨q, hq, heq⟩ := hrecycles pc hpc
    rw [← heq] at hid ⊢
    exact h.given q hq k p given (hhandles k p given hk hholds) hholds hid

theorem handle {k : ℕ} {a : HandleAnswers} {pc pc' : HandlePc} {g : Gate} (h : s.Owned)
    (hserving : s.Serving) (hpc : s.handles[k]? = some pc)
    (hstep : s.gate.handleStep k a pc = some (g, pc')) :
    ({ s with gate := g, handles := s.handles.set k pc' } : GateState).Owned := by
  have hframe := handleFrame hstep
  constructor
  · intro p hp
    obtain ⟨hne, hlt⟩ := h.retired p hp
    simp only
    cases started hstep with
    | no hinst _ hnext =>
      rw [hinst, hnext]
      exact ⟨hne, hlt⟩
    | yes _ _ _ hinst _ hnext =>
      rw [hinst, hnext]
      refine ⟨fun heq => ?_, Nat.lt_succ_of_lt hlt⟩
      have := Option.some.inj heq
      omega
  · intro j p given hj hholds hid
    simp only at hid ⊢
    rw [hframe.generation]
    rcases holds_set hpc hstep hj hholds with ⟨i, p₀, hi, hold⟩ | ⟨hgeneration, -, -⟩
    · cases started hstep with
      | no hinst _ _ => exact h.held i p₀ given hi hold (hinst ▸ hid)
      | yes _ _ _ hinst _ _ =>
        have hlt := (hserving.given i p₀ given hi hold).2.2
        rw [hinst] at hid
        have := Option.some.inj hid
        omega
    · exact hgeneration
  · intro q hq j p given hj hholds hid
    obtain ⟨hne, hlt⟩ := h.retired q hq
    rcases holds_set hpc hstep hj hholds with ⟨i, p₀, hi, hold⟩ | ⟨-, -, hheld | hnew⟩
    · exact h.given q hq i p₀ given hi hold hid
    · rw [hid] at hheld
      exact absurd hheld hne
    · omega

theorem step (h : s.Owned) (hserving : s.Serving) (hinstances : s.Instances)
    (hstep : GateStep s t) : t.Owned := by
  have hself : ∀ pc ∈ s.recycles, ∃ p ∈ s.recycles, p.given = pc.given := fun pc hpc =>
    ⟨pc, hpc, rfl⟩
  have hset : ∀ {k : ℕ} {pc pc' : RecyclePc}, s.recycles[k]? = some pc → pc'.given = pc.given →
      ∀ p ∈ s.recycles.set k pc', ∃ q ∈ s.recycles, q.given = p.given := by
    intro k pc pc' hpc hgiven p hp
    rcases List.mem_or_eq_of_mem_set hp with hold | rfl
    · exact ⟨p, hold, rfl⟩
    · exact ⟨pc, List.mem_of_getElem? hpc, hgiven.symm⟩
  cases hstep with
  | handle hpc hstep => exact h.handle hserving hpc hstep
  | accept =>
    refine h.same hself (fun k p given hk hholds => ?_) (fun _ hid => hid) rfl rfl
    refine (getElem?_append_cases hk).resolve_right fun heq => ?_
    rw [heq] at hholds
    cases hholds
  | @recycle id hid =>
    have hlt := hinstances.fresh id (hinstances.live id hid)
    constructor
    · intro pc hpc
      rcases List.mem_append.mp hpc with hold | hnew
      · exact ⟨by simp, (h.retired pc hold).2⟩
      · rw [List.mem_singleton.mp hnew]
        exact ⟨by simp, hlt⟩
    · intro k p given _ _ hnone
      cases hnone
    · intro pc hpc k p given hk hholds heq
      rcases List.mem_append.mp hpc with hold | hnew
      · exact h.given pc hold k p given hk hholds heq
      · rw [List.mem_singleton.mp hnew] at heq ⊢
        apply h.held k p given hk hholds
        rw [hid]
        exact congrArg some heq.symm
  | snapshot hpc => exact h.same (hset hpc rfl) (fun _ _ _ hk _ => hk) (fun _ hid => hid) rfl rfl
  | recycleCut hpc => exact h.same (hset hpc rfl) (fun _ _ _ hk _ => hk) (fun _ hid => hid) rfl rfl
  | recycleEnd hpc => exact h.same (hset hpc rfl) (fun _ _ _ hk _ => hk) (fun _ hid => hid) rfl rfl
  | close hopen =>
    refine h.same hself (fun _ _ _ hk _ => hk) (fun _ hid => ?_) rfl rfl
    cases hid
  | sweepTake hpc hidle hid =>
    refine h.same hself (fun _ _ _ hk _ => hk) (fun _ hid => ?_) rfl rfl
    cases hid
  | _ => exact h.same hself (fun _ _ _ hk _ => hk) (fun _ hid => hid) rfl rfl

end GateState.Owned

end Throned.Xray
