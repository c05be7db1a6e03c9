import Throned.Analysis.MonitorPolls

/-!
# What the monitor promises

Replies that are used in the build they are about are right in every run.  Nothing in the code
sees to that: between a reply and its publication another build can be set, with the same tags.
-/

set_option autoImplicit false

namespace Throned.Stats

open Throned.Library

namespace AutoSelectorMonitor

variable {s : AutoSelectorMonitor} {a : MonitorAudit}

/-- Steps that are not seen in the audit. -/
theorem observe_quiet {ev : MonitorEvent} (hlatency : s.latencyWrite ev = none)
    (hpin : s.pinWrite ev = none) (hhears : s.hears ev = none)
    (hdecides : s.decides a.heard ev = none) (hemits : s.emits a.decision ev = none) :
    s.observe a ev = a := by
  simp [observe, hlatency, hpin, hhears, hdecides, hemits]

/-- Steps that only tell the monitor of a build. -/
theorem observe_told {ev : MonitorEvent} (hlatency : s.latencyWrite ev = none)
    (hpin : s.pinWrite ev = none) (hhears : s.hears ev = some .build)
    (hdecides : s.decides (.build :: a.heard) ev = none) (hemits : s.emits a.decision ev = none) :
    s.observe a ev = { a with heard := .build :: a.heard } := by
  simp [observe, hlatency, hpin, hhears, hdecides, hemits]

theorem Kept.coreRuns (h : Kept s a) (build : Option ℕ) : Kept { s with coreBuild := build } a where
  right := ⟨h.right.writes, h.right.pins, h.right.view, h.right.emissions, h.right.apart⟩
  clock := h.clock
  backoff := h.backoff
  set := h.set
  active := h.active
  mapped := h.mapped
  timed := h.timed
  persists := h.persists
  selects := h.selects
  handled := h.handled
  exhausted := h.exhausted
  pending next hnext := by
    obtain ⟨d, hd⟩ := h.pending next hnext
    exact ⟨d, hd.congr rfl rfl le_rfl rfl rfl⟩
  emitted := h.emitted
  first := h.first

theorem Kept.timePasses (h : Kept s a) (ms : ℕ) : Kept { s with now := s.now + ms } a where
  right := ⟨h.right.writes, h.right.pins, h.right.view, h.right.emissions, h.right.apart⟩
  clock := by
    have := h.clock
    dsimp only
    omega
  backoff := h.backoff
  set := h.set
  active := h.active
  mapped := h.mapped
  timed next usable build now hpoll := by
    have := h.timed next usable build now hpoll
    dsimp only
    omega
  persists := h.persists
  selects := h.selects
  handled := h.handled
  exhausted := h.exhausted
  pending next hnext := by
    obtain ⟨d, hd⟩ := h.pending next hnext
    exact ⟨d, hd.congr rfl rfl (by dsimp only; omega) rfl rfl⟩
  emitted := h.emitted
  first := h.first

/-- **Every sound step keeps what is on its way in its build.** -/
theorem Kept.step (h : Kept s a) {ev : MonitorEvent} (hsound : Sound (s, a) ev) :
    Kept (s.step ev) (s.observe a ev) := by
  cases ev with
  | SetBuild build =>
    rw [observe_told rfl rfl rfl rfl rfl]
    exact h.SetBuild build
  | Clear =>
    rw [observe_told rfl rfl rfl rfl rfl]
    exact h.Clear
  | persistCopies =>
    rw [observe_quiet rfl rfl rfl rfl rfl]
    exact h.persistCopies
  | persistWrites j => exact h.persistWrites j
  | RequestSelect member =>
    rw [observe_quiet rfl rfl rfl rfl rfl]
    exact h.RequestSelect member
  | coreSelects j ok =>
    rw [observe_quiet rfl rfl rfl rfl rfl]
    exact h.coreSelects hsound
  | selectStores j => exact h.selectStores j
  | Loop =>
    rw [observe_quiet rfl rfl rfl rfl rfl]
    exact h.Loop
  | coreReplies reply =>
    rw [observe_quiet rfl rfl rfl rfl rfl]
    exact h.coreReplies reply
  | findGroup =>
    rw [observe_quiet rfl rfl rfl rfl rfl]
    exact h.findGroup
  | mapMembers =>
    rw [observe_quiet rfl rfl rfl rfl rfl]
    exact h.mapMembers
  | readClock =>
    rw [observe_quiet rfl rfl rfl rfl rfl]
    exact h.readClock
  | publish => exact h.publish hsound
  | healthDue =>
    rw [observe_quiet rfl rfl rfl rfl rfl]
    exact h.healthDue
  | pollPersists =>
    rw [observe_quiet rfl rfl rfl rfl rfl]
    exact h.pollPersists
  | confirm interfaceOK nameEmpty => exact h.confirm interfaceOK nameEmpty
  | coreRuns build =>
    rw [observe_quiet rfl rfl rfl rfl rfl]
    exact h.coreRuns build
  | timePasses ms =>
    rw [observe_quiet rfl rfl rfl rfl rfl]
    exact h.timePasses ms

/-- The monitor before the first build; the clock counts from the epoch. -/
def launched (builds : ℕ → AutoSelectorBuildInfo) (profiles selectors : List ℤ)
    (latency pinnedID : ℤ → ℤ) (now : ℕ+) : AutoSelectorMonitor :=
  { builds, profiles, selectors, latency, pinnedID, now := now }

theorem kept_launched (builds : ℕ → AutoSelectorBuildInfo) (profiles selectors : List ℤ)
    (latency pinnedID : ℤ → ℤ) (now : ℕ+) :
    Kept (launched builds profiles selectors latency pinnedID now) {} where
  right :=
    { writes := fun _ hw => absurd hw List.not_mem_nil
      pins := fun _ hp => absurd hp List.not_mem_nil
      view := fun hvalid => nomatch hvalid
      emissions := fun _ he => absurd he List.not_mem_nil
      apart := List.Pairwise.nil }
  clock := by
    have := now.pos
    unfold launched
    dsimp only
    omega
  backoff := le_rfl
  set := fun _ hk => nomatch hk
  active := fun hactive => nomatch hactive
  mapped := by rintro _ _ (⟨_, ⟨⟩⟩ | ⟨_, _, ⟨⟩⟩)
  timed := fun _ _ _ _ hphase => nomatch hphase
  persists := fun _ hp => absurd hp List.not_mem_nil
  selects := fun _ hr => absurd hr List.not_mem_nil
  handled := fun _ hr => absurd hr List.not_mem_nil
  exhausted := fun hopen => absurd rfl hopen
  pending := by rintro _ (⟨_, ⟨⟩⟩ | ⟨⟨⟩⟩ | ⟨⟨⟩⟩)
  emitted := fun _ he => absurd he List.not_mem_nil
  first := fun _ => rfl

def proxyTag : Text := ['p', 'r', 'o', 'x', 'y']

/-- Tags that number the members of a build. -/
def memberTag : ℕ → Text
  | 0 => ['m', '0']
  | _ => ['m', '1']

/-- The selector 10, restarted with its members ranked the other way round. -/
def reranked : ℕ → AutoSelectorBuildInfo
  | 0 => ⟨proxyTag, 10, [(memberTag 0, some 1), (memberTag 1, some 2)]⟩
  | _ => ⟨proxyTag, 10, [(memberTag 0, some 2), (memberTag 1, some 1)]⟩

/-- A group whose second member is selected and has the state given. -/
def groupReply (phase : SelectorPhase) (state : MemberState) : GroupStatus :=
  { tag := proxyTag
    phase
    suspended := false
    pinned := memberTag 1
    members_probed := 2
    members := [⟨memberTag 0, .dead, 0, 3, false⟩, ⟨memberTag 1, state, 40, 3, true⟩] }

def newRun (events : List MonitorEvent) : AutoSelectorMonitor × MonitorAudit :=
  runAll auditedStep (launched reranked [1, 2, 10] [10] (fun _ => 0) (fun _ => -1) 1, {}) events

/-- A whole poll of one reply. -/
def pollOf (group : GroupStatus) : List MonitorEvent :=
  [.Loop, .coreReplies (some [group]), .findGroup, .mapMembers, .readClock, .publish, .healthDue,
    .pollPersists, .persistWrites 0, .persistWrites 0]

/-- The build is started, polled, pinned, and dead for the grace period. -/
def oneBuild : List MonitorEvent :=
  [.coreRuns (some 0), .SetBuild (some 0), .timePasses 60000] ++
    pollOf (groupReply .ready .ok) ++
    [.RequestSelect (memberTag 1), .coreSelects 0 true, .selectStores 0] ++
    pollOf (groupReply .ready .dead) ++ [.timePasses 20000] ++ pollOf (groupReply .ready .dead) ++
    [.confirm true false]

/-- The reply of the first build is used in the second, which restarts the first. -/
def lateReply : List MonitorEvent :=
  [.coreRuns (some 0), .SetBuild (some 0), .timePasses 60000, .Loop,
    .coreReplies (some [groupReply .ready .ok]), .coreRuns (some 1), .SetBuild (some 1), .findGroup,
    .mapMembers, .readClock, .publish, .persistCopies, .persistWrites 0, .persistWrites 0]

/-- The member is asked for in the first build, and selected by the core of the second. -/
def latePin : List MonitorEvent :=
  [.coreRuns (some 0), .SetBuild (some 0), .RequestSelect (memberTag 1), .coreRuns (some 1),
    .SetBuild (some 1), .coreSelects 0 true, .selectStores 0]

/-- One dead reply of the first build begins the period of the second. -/
def earlyPeriod : List MonitorEvent :=
  [.coreRuns (some 0), .SetBuild (some 0), .Loop,
    .coreReplies (some [groupReply .ready .dead]), .findGroup, .mapMembers, .readClock,
    .coreRuns (some 1), .SetBuild (some 1), .publish, .healthDue, .timePasses 20000] ++
    pollOf (groupReply .ready .dead) ++ [.confirm true false]

/-- The last thing heard belongs to the period. -/
theorem Exhausted.last {k : ℕ} {t : ℤ} {last : Heard} {before : List Heard}
    (h : Exhausted k t (last :: before)) : ∃ now, last = .report (some k) now true false := by
  obtain ⟨period, rest, hheard, hall, since, hsince, -⟩ := h
  cases period with
  | nil => exact absurd hsince List.not_mem_nil
  | cons first period =>
    obtain rfl := (List.cons.inj hheard).1
    exact hall _ List.mem_cons_self

theorem Exhausted.began {k : ℕ} {t : ℤ} {heard : List Heard} (h : Exhausted k t heard) :
    ∃ since, Heard.report (some k) since true false ∈ heard ∧
      since + kPoolExhaustedGraceSecs * 1000 ≤ t := by
  obtain ⟨period, rest, rfl, -, since, hsince, hgrace⟩ := h
  exact ⟨since, List.mem_append_left _ hsince, hgrace⟩

end AutoSelectorMonitor

end Throned.Stats
