import Throned.Analysis.GateSafety

/-!
# The guarantees of the gate

What holds in every state of every run, for any interleaving of handlers, `Recycle` and
`Close` calls and the sweeper.
-/

set_option autoImplicit false

namespace Throned.Xray

open Throned.Library

/-- What every step keeps. -/
structure GateState.Sound (s : GateState) : Prop where
  counted : s.Counted
  closing : s.Closing
  instances : s.Instances
  serving : s.Serving
  tabled : s.Tabled
  recycled : s.Recycled
  owned : s.Owned

theorem sound_initial (idle : ℕ) : (GateState.initial idle).Sound where
  counted := rfl
  closing :=
    { notCalled := fun _ => rfl
      closed := nofun
      conns := iff_of_false nofun nofun
      cut := nofun }
  instances :=
    { live := nofun
      fresh := fun _ h => absurd h List.not_mem_nil
      held := fun _ h => absurd h List.not_mem_nil
      retiring := by
        rintro id (⟨pc, hpc, -⟩ | hclose | hsweep)
        · exact absurd hpc List.not_mem_nil
        · cases hclose
        · cases hsweep
      cold := nofun }
  serving :=
    { positive := Nat.one_pos
      given := nofun
      current := nofun
      swept := nofun }
  tabled := nofun
  recycled := ⟨fun _ h => absurd h List.not_mem_nil, fun _ h => absurd h List.not_mem_nil⟩
  owned := ⟨fun _ h => absurd h List.not_mem_nil, nofun, fun _ h => absurd h List.not_mem_nil⟩

theorem GateState.Sound.step {s t : GateState} (h : s.Sound) (hstep : GateStep s t) : t.Sound where
  counted := h.counted.step hstep
  closing := h.closing.step hstep
  instances := h.instances.step h.closing hstep
  serving := h.serving.step h.counted h.instances hstep
  tabled := h.tabled.step h.closing hstep
  recycled := h.recycled.step h.closing h.serving hstep
  owned := h.owned.step h.serving h.instances hstep

theorem sound_of_reachable {s : GateState} (hs : gateSystem.Reachable s) : s.Sound := by
  apply hs.invariant
  · rintro s ⟨idle, rfl⟩
    exact sound_initial idle
  · rintro s t - h ⟨event, hstep⟩
    exact h.step (gateStep_of_step hstep)

/-! ## Recycling -/

/-- Once a `Recycle` call has returned, `P` holds of each connection bound to the
generation it retired and of both connections of each relay to its instance, and nothing
can be bound to that generation any more. -/
structure GateState.Retired (s : GateState) (P : Conn → Prop) : Prop where
  bound : ∀ given, .returned given ∈ s.recycles → ∀ conn,
    (conn, given.generation) ∈ s.gate.bindings → P conn
  relays : ∀ given, .returned given ∈ s.recycles → ∀ (k : ℕ) pc got, s.handles[k]? = some pc →
    pc.relays = some got → got.instanceId = given.instanceId → P (.client k) ∧ P (.upstream k)
  refused : ∀ given, .returned given ∈ s.recycles → ∀ conn,
    s.gate.track conn given.generation = none

theorem relays_holds {pc : HandlePc} {given : Given} (h : pc.relays = some given) :
    pc.holds = some given ∧ pc.boundTo = some given := by
  cases pc <;> first | exact ⟨h, h⟩ | cases h

theorem GateState.Sound.retired {s : GateState} (h : s.Sound) : s.Retired s.IsCut := by
  have hbound : ∀ given, .returned given ∈ s.recycles → ∀ conn,
      (conn, given.generation) ∈ s.gate.bindings → s.IsCut conn := fun given hgiven conn hconn =>
    (h.recycled.cut _ hgiven [] rfl conn hconn).resolve_right List.not_mem_nil
  refine ⟨hbound, fun given hgiven k pc got hk hrelays hid => ?_, fun given hgiven conn => ?_⟩
  · obtain ⟨hholds, hclient⟩ := relays_holds hrelays
    have hgeneration := h.owned.given _ hgiven k pc got hk hholds hid
    have hb := h.tabled k pc hk
    constructor
    · apply hbound given hgiven
      exact hgeneration ▸ hb.client got hclient
    · apply hbound given hgiven
      exact hgeneration ▸ hb.upstream got hrelays
  · obtain ⟨hpos, hlt⟩ := h.recycled.generation _ hgiven
    exact Gate.track_retired conn hpos hlt

/-! ## Sweeping -/

/-- The sweeper does not close what a counted handler has been given, and what it has been
given runs unless a `Recycle` or the `Close` took it. -/
structure GateState.Swept (s : GateState) : Prop where
  spared : ∀ id, s.sweeper = .closing id → ∀ (k : ℕ) pc given, s.handles[k]? = some pc →
    pc.holds = some given → given.instanceId ≠ id
  runs : ∀ (k : ℕ) pc given, s.handles[k]? = some pc → pc.holds = some given →
    s.gate.closed = false → given.generation = s.gate.generation →
    s.gate.inst = some given.instanceId ∧ given.instanceId ∈ s.gate.live

theorem GateState.Sound.swept {s : GateState} (h : s.Sound) : s.Swept := by
  refine ⟨h.serving.swept, fun k pc given hk hholds hopen hgeneration => ?_⟩
  have hinst := h.serving.current k pc given hk hholds hopen hgeneration
  exact ⟨hinst, h.instances.live _ hinst⟩

/-! ## Closing -/

/-- Nothing is held, nothing is started any more, and every connection is closed or
refused, apart from the clients of the handlers of `left`. -/
structure GateState.Ended (s : GateState) (left : HandlePc → Prop) : Prop where
  cold : s.gate.inst = none
  never : ∀ t, Relation.ReflTransGen gateSystem.step s t →
    t.gate.inst = none ∧ ∀ id ∈ t.gate.live, id ∈ s.gate.live
  refused : ∀ conn generation, s.gate.track conn generation = none
  clients : ∀ (k : ℕ) pc, s.handles[k]? = some pc → .client k ∈ s.gate.cut ∨ left pc
  upstreams : ∀ (k : ℕ) pc given, s.handles[k]? = some pc → pc.relays = some given →
    .upstream k ∈ s.gate.cut

/-- A handler that the next `track` refuses, or that has been refused. -/
def HandlePc.isRefused (pc : HandlePc) : Prop := pc = .accepted ∨ pc = .refused

/-- A closed gate starts nothing. -/
theorem closed_step {s t : GateState} (hclosed : s.gate.closed = true) (hstep : GateStep s t) :
    t.gate.closed = true ∧ ∀ id ∈ t.gate.live, id ∈ s.gate.live := by
  cases hstep with
  | handle hpc hstep =>
    refine ⟨(handleFrame hstep).closed.trans hclosed, fun id hid => ?_⟩
    cases started hstep with
    | no _ hlive _ => exact hlive ▸ hid
    | yes hopen _ _ _ _ _ =>
      rw [hclosed] at hopen
      cases hopen
  | close hopen =>
    rw [hclosed] at hopen
    cases hopen
  | recycleEnd hpc | closeEnd hpc | sweepEnd hpc =>
    exact ⟨hclosed, fun _ hid => List.mem_of_mem_filter hid⟩
  | _ => exact ⟨hclosed, fun _ hid => hid⟩

theorem closed_run {s t : GateState} (hclosed : s.gate.closed = true)
    (hrun : Relation.ReflTransGen gateSystem.step s t) :
    t.gate.closed = true ∧ ∀ id ∈ t.gate.live, id ∈ s.gate.live := by
  induction hrun with
  | refl => exact ⟨hclosed, fun _ hid => hid⟩
  | tail _ hstep ih =>
    obtain ⟨event, hstep⟩ := hstep
    obtain ⟨hstill, hlive⟩ := closed_step ih.1 (gateStep_of_step hstep)
    exact ⟨hstill, fun id hid => ih.2 id (hlive id hid)⟩

theorem ended_of_returned {s : GateState} (hs : gateSystem.Reachable s)
    (hreturned : s.close = .returned) :
    s.Ended fun pc => pc.isRefused ∨ pc = .forgotten := by
  have h := sound_of_reachable hs
  have hclosed : s.gate.closed = true := by
    by_contra hopen
    have := h.closing.notCalled (by simpa using hopen)
    rw [hreturned] at this
    cases this
  have hnone : s.gate.conns = none := h.closing.conns.mpr (by rw [hreturned]; rfl)
  have hcut : ∀ conn ∈ s.gate.bindings, conn.1 ∈ s.gate.cut := by
    intro conn hconn
    rw [Gate.bindings, hnone] at hconn
    refine (h.closing.cut hnone conn hconn).resolve_right fun hpending => ?_
    rw [hreturned] at hpending
    cases hpending
  constructor
  · exact h.instances.cold hclosed
  · intro t hrun
    obtain ⟨hstill, hlive⟩ := closed_run hclosed hrun
    exact ⟨(sound_of_reachable (hs.run hrun)).instances.cold hstill, hlive⟩
  · exact fun conn generation => Gate.track_closed conn generation hnone
  · intro k pc hk
    have hb := h.tabled k pc hk
    cases htracked : pc.isTracked with
    | true =>
      obtain ⟨n, hn⟩ := hb.tracked htracked
      exact Or.inl (hcut _ hn)
    | false =>
      cases pc with
      | accepted => exact Or.inr (Or.inl (Or.inl rfl))
      | refused => exact Or.inr (Or.inl (Or.inr rfl))
      | forgotten => exact Or.inr (Or.inr rfl)
      | done => exact Or.inl (hb.done rfl)
      | _ => cases htracked
  · intro k pc given hk hrelays
    exact hcut _ ((h.tabled k pc hk).upstream given hrelays)

/-! ## The instances -/

/-- One instance is held, and what else runs is about to be closed by the one who took it
from the gate. -/
structure GateState.OneHeld (s : GateState) : Prop where
  held : ∀ id, s.gate.inst = some id → id ∈ s.gate.live ∧ ¬s.Retiring id
  others : ∀ id ∈ s.gate.live, s.gate.inst = some id ∨ s.Retiring id

theorem GateState.Sound.oneHeld {s : GateState} (h : s.Sound) : s.OneHeld := by
  refine ⟨fun id hid => ⟨h.instances.live id hid, fun hretiring => ?_⟩, h.instances.held⟩
  exact (h.instances.retiring id hretiring).1 hid

/-! ## The guarantees -/

structure GateState.Guaranteed (s : GateState) : Prop where
  recycled : s.Retired s.IsCut
  swept : s.Swept
  closed : s.close = .returned → s.Ended fun pc => pc.isRefused ∨ pc = .forgotten
  instances : s.OneHeld

/-- **The guarantees of the gate, in any interleaving.** -/
theorem guaranteed_of_reachable (s : GateState) (hs : gateSystem.Reachable s) : s.Guaranteed :=
  have h := sound_of_reachable hs
  { recycled := h.retired
    swept := h.swept
    closed := ended_of_returned hs
    instances := h.oneHeld }

/-! ### Interleavings -/

theorem reachable_run {s t : GateState} (hs : gateSystem.Reachable s) (events : List Event)
    (hrun : s.run events = some t) : gateSystem.Reachable t := by
  induction events generalizing s with
  | nil =>
    cases hrun
    exact hs
  | cons event events ih =>
    rw [GateState.run, Option.bind_eq_some_iff] at hrun
    obtain ⟨u, hu, hrest⟩ := hrun
    exact ih (hs.step ⟨event, hu⟩) hrest

/-- A handler whose start and dial succeed takes some steps. -/
def handleSteps (h n : ℕ) : List Event := List.replicate n (.handle h ⟨fun _ => .started, true⟩)

/-- One connection is relayed, the instance is retired and a second connection brings up
the next one before the first has been closed. -/
theorem guaranteed_of_reachable_sample :
    ∃ s : GateState, (GateState.initial 0).run ([.accept] ++ handleSteps 0 7 ++ [.recycle, .accept] ++
      handleSteps 1 4) = some s ∧ s.gate.live = [1, 0] ∧ s.Guaranteed := by
  have hrun : (GateState.initial 0).run ([.accept] ++ handleSteps 0 7 ++ [.recycle, .accept] ++
      handleSteps 1 4) ≠ none := by decide
  obtain ⟨s, hs⟩ := Option.ne_none_iff_exists'.mp hrun
  refine ⟨s, hs, ?_, guaranteed_of_reachable s (reachable_run (.init ⟨0, rfl⟩) _ hs)⟩
  have hlive : ((GateState.initial 0).run ([.accept] ++ handleSteps 0 7 ++ [.recycle, .accept] ++
      handleSteps 1 4)).map (fun s => s.gate.live) = some [1, 0] := by decide
  rw [hs] at hlive
  exact Option.some.inj hlive

/-- A run that ends in a given value of some observation. -/
theorem exists_of_run {α : Type*} (events : List Event) (observe : GateState → α) (value : α)
    (h : ((GateState.initial 0).run events).map observe = some value) :
    ∃ s, gateSystem.Reachable s ∧ observe s = value := by
  obtain ⟨s, hs, hvalue⟩ := Option.map_eq_some_iff.mp h
  exact ⟨s, reachable_run (.init ⟨0, rfl⟩) events hs, hvalue⟩

/-- Without the exceptions the guarantees fail: a `Recycle` can return while a `Close` is
still closing what it took, a second `Close` returns at once, a handler may have its own
close left, and two instances run while a retired one is being closed. -/
theorem not_guaranteed :
    (¬∀ s, gateSystem.Reachable s → s.Retired (· ∈ s.gate.cut)) ∧
    (¬∀ s, gateSystem.Reachable s → 0 < s.closesReturned →
      s.Ended fun pc => pc.isRefused ∨ pc = .forgotten) ∧
    (¬∀ s, gateSystem.Reachable s → s.close = .returned → s.Ended HandlePc.isRefused) ∧
    ¬∀ s, gateSystem.Reachable s → s.gate.live.length ≤ 1 := by
  refine ⟨fun h => ?_, fun h => ?_, fun h => ?_, fun h => ?_⟩
  · obtain ⟨s, hs, hvalue⟩ := exists_of_run
      ([.accept] ++ handleSteps 0 7 ++ [.recycle, .close, .closeStep, .closeStep, .recycleStep 0,
        .recycleStep 0]) (fun s => (s.recycles, s.gate.bindings, s.gate.cut))
      ([.returned ⟨0, 1⟩], [(.upstream 0, 1), (.client 0, 1)], []) (by decide)
    simp only [Prod.mk.injEq] at hvalue
    obtain ⟨hrecycles, hbindings, hcut⟩ := hvalue
    have := (h s hs).bound ⟨0, 1⟩ (by rw [hrecycles]; decide) (.client 0) (by rw [hbindings]; decide)
    rw [hcut] at this
    cases this
  · obtain ⟨s, hs, hvalue⟩ := exists_of_run
      ([.accept] ++ handleSteps 0 7 ++ [.close, .close])
      (fun s => (s.closesReturned, s.handles, s.gate.cut))
      (1, [.relaying ⟨0, 1⟩], []) (by decide)
    simp only [Prod.mk.injEq] at hvalue
    obtain ⟨hcloses, hhandles, hcut⟩ := hvalue
    have := (h s hs (by omega)).upstreams 0 (.relaying ⟨0, 1⟩) ⟨0, 1⟩ (by rw [hhandles]; rfl) rfl
    rw [hcut] at this
    cases this
  · obtain ⟨s, hs, hvalue⟩ := exists_of_run
      ([.accept] ++ handleSteps 0 13 ++ [.close, .closeStep, .closeStep, .closeStep])
      (fun s => (s.close, s.handles, s.gate.cut))
      (.returned, [.forgotten], [.upstream 0]) (by decide)
    simp only [Prod.mk.injEq] at hvalue
    obtain ⟨hclose, hhandles, hcut⟩ := hvalue
    have := (h s hs hclose).clients 0 .forgotten (by rw [hhandles]; rfl)
    rw [hcut] at this
    simp [HandlePc.isRefused] at this
  · obtain ⟨s, hs, hvalue⟩ := exists_of_run
      ([.accept] ++ handleSteps 0 5 ++ [.recycle, .accept] ++ handleSteps 1 5)
      (fun s => s.gate.live.length) 2 (by decide)
    have := h s hs
    omega

end Throned.Xray
