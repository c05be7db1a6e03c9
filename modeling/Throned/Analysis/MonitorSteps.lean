import Throned.Analysis.MonitorReports

/-!
# What every step of the monitor keeps

Everything on its way to a profile, a pin, a view or a signal carries the profiles of its build.
-/

set_option autoImplicit false

namespace Throned.Stats

open Throned.Library

namespace PollPhase

/-- The tags of a view are mapped, as they were when a build was set. -/
def Mapped (phase : PollPhase) (next : AutoSelectorView) (build : Option ℕ) : Prop :=
  (∃ usable, phase = .mapped next usable build) ∨ ∃ usable now, phase = .timed next usable build now

/-- A rebuild was decided on and may still be signalled. -/
def Deciding (phase : PollPhase) (next : AutoSelectorView) : Prop :=
  (∃ now, phase = .published next now true) ∨ phase = .persisting next true ∨
    phase = .confirming next

/-- Nothing is mapped and nothing decided. -/
def quiet : PollPhase → Bool
  | idle => true
  | asking => true
  | replied _ _ => true
  | found _ _ => true
  | _ => false

end PollPhase

namespace AutoSelectorMonitor

variable {s : AutoSelectorMonitor} {a : MonitorAudit}

/-- Since `since` there was nothing but reports that the build is dead. -/
def DeadSince (k : ℕ) (since : ℤ) (heard : List Heard) : Prop :=
  ∃ period before, heard = period ++ before ∧
    (∀ h ∈ period, ∃ now, h = .report (some k) now true false) ∧
    Heard.report (some k) since true false ∈ period

theorem DeadSince.cons {k : ℕ} {since : ℤ} {heard : List Heard} (h : DeadSince k since heard)
    (now : ℤ) : DeadSince k since (.report (some k) now true false :: heard) := by
  obtain ⟨period, before, rfl, hall, hmem⟩ := h
  refine ⟨.report (some k) now true false :: period, before, rfl, fun other hother => ?_,
    List.mem_cons_of_mem _ hmem⟩
  obtain rfl | hother := List.mem_cons.mp hother
  · exact ⟨now, rfl⟩
  · exact hall other hother

theorem deadSince_now (k : ℕ) (now : ℤ) (heard : List Heard) :
    DeadSince k now (.report (some k) now true false :: heard) :=
  ⟨[.report (some k) now true false], heard, rfl,
    fun _ hother => ⟨now, List.mem_singleton.mp hother⟩, List.mem_singleton_self _⟩

theorem DeadSince.exhausted {k : ℕ} {since t : ℤ} {heard : List Heard} (h : DeadSince k since heard)
    (hgrace : since + kPoolExhaustedGraceSecs * 1000 ≤ t) : Exhausted k t heard := by
  obtain ⟨period, before, hheard, hall, hmem⟩ := h
  exact ⟨period, before, hheard, hall, since, hmem, hgrace⟩

/-- A decision of a build for its own selector, the backoff after all emissions. -/
structure RightDecision (s : AutoSelectorMonitor) (a : MonitorAudit) (next : AutoSelectorView)
    (d : Decision) : Prop where
  decision : a.decision = some d
  last : d.decidedAt = s.lastRebuildRequest
  known : d.decidedAt ≠ 0
  past : d.decidedAt ≤ s.now
  exhausted : ∃ k, next.profileID = (s.builds k).profile ∧ Exhausted k d.decidedAt d.heard
  apart : ∀ e ∈ a.emissions, e.decision.decidedAt + d.backoffSecs * 1000 ≤ d.decidedAt

structure Kept (s : AutoSelectorMonitor) (a : MonitorAudit) : Prop where
  right : Right (s, a)
  clock : 0 < s.now
  backoff : 0 ≤ s.rebuildBackoffSecs
  set : ∀ k, s.build = some k →
    s.tagToProfile = (s.builds k).tagToProfile ∧ s.profileID = (s.builds k).profile
  active : s.active = true → ∃ k, s.build = some k
  mapped : ∀ next build, s.poll.Mapped next build →
    (∃ k, next.about = some k) ∧ ∀ k, build = some k → RightView (s.builds k) next
  timed : ∀ next usable build now, s.poll = .timed next usable build now → 0 < now ∧ now ≤ s.now
  persists : ∀ p ∈ s.persists, p.suspended = false ∧
    ∃ k, p.about = some k ∧ RightMembers (s.builds k) p.members
  selects : ∀ r ∈ s.selects, ∀ k, r.build = some k →
    r.selectorID = (s.builds k).profile ∧ r.memberID = pinOf (s.builds k) r.member
  handled : ∀ r ∈ s.selects, ∀ k, r.phase = .handled k → r.build = some k
  exhausted : s.exhaustedSince ≠ 0 → ∃ k, s.build = some k ∧ DeadSince k s.exhaustedSince a.heard
  pending : ∀ next, s.poll.Deciding next → ∃ d, RightDecision s a next d
  emitted : ∀ e ∈ a.emissions, e.decision.decidedAt ≤ s.lastRebuildRequest
  first : s.lastRebuildRequest = 0 → a.emissions = []

/-! ## Builds -/

/-- No step of the poll, the persists or the requests: what is pending stays pending. -/
theorem RightDecision.congr {t : AutoSelectorMonitor} {b : MonitorAudit} {next : AutoSelectorView}
    {d : Decision} (h : RightDecision s a next d) (hbuilds : t.builds = s.builds)
    (hlast : t.lastRebuildRequest = s.lastRebuildRequest) (hnow : s.now ≤ t.now)
    (hdecision : b.decision = a.decision) (hemissions : b.emissions = a.emissions) :
    RightDecision t b next d where
  decision := hdecision ▸ h.decision
  last := hlast ▸ h.last
  known := h.known
  past := h.past.trans hnow
  exhausted := hbuilds ▸ h.exhausted
  apart := hemissions ▸ h.apart

theorem Kept.Clear (h : Kept s a) :
    Kept s.Clear { a with heard := .build :: a.heard } where
  right :=
    { writes := h.right.writes
      pins := h.right.pins
      view := fun hvalid => nomatch hvalid
      emissions := h.right.emissions
      apart := h.right.apart }
  clock := h.clock
  backoff := h.backoff
  set _ hk := nomatch hk
  active hactive := nomatch hactive
  mapped := h.mapped
  timed := h.timed
  persists := h.persists
  selects := h.selects
  handled := h.handled
  exhausted hne := absurd rfl hne
  pending next hnext := by
    obtain ⟨d, hd⟩ := h.pending next hnext
    exact ⟨d, hd.congr rfl rfl le_rfl rfl rfl⟩
  emitted := h.emitted
  first := h.first

theorem Kept.SetBuild (h : Kept s a) (build : Option ℕ) :
    Kept (s.SetBuild build) { a with heard := .build :: a.heard } := by
  cases build with
  | none => exact h.Clear
  | some k =>
    exact
      { right :=
          { writes := h.right.writes
            pins := h.right.pins
            view := fun _ =>
              ⟨k, rfl, rfl, fun m hm => absurd hm List.not_mem_nil, .inl rfl⟩
            emissions := h.right.emissions
            apart := h.right.apart }
        clock := h.clock
        backoff := h.backoff
        set := by
          rintro _ ⟨⟩
          exact ⟨rfl, rfl⟩
        active := fun _ => ⟨k, rfl⟩
        mapped := h.mapped
        timed := h.timed
        persists := h.persists
        selects := h.selects
        handled := h.handled
        exhausted := fun hne => absurd rfl hne
        pending := fun next hnext => by
          obtain ⟨d, hd⟩ := h.pending next hnext
          exact ⟨d, hd.congr rfl rfl le_rfl rfl rfl⟩
        emitted := h.emitted
        first := h.first }

/-! ## PersistHealth -/

theorem Kept.persistCopies (h : Kept s a) : Kept s.persistCopies a := by
  unfold AutoSelectorMonitor.persistCopies
  split
  · exact h
  · rename_i hcopy
    push Not at hcopy
    obtain ⟨-, hvalid, hsuspended⟩ := hcopy
    have hnew : ∀ p ∈ s.persists ++
        [{ about := s.view.about, suspended := s.view.suspended, members := s.view.members }],
        p.suspended = false ∧ ∃ k, p.about = some k ∧ RightMembers (s.builds k) p.members := by
      intro p hp
      obtain hp | hp := List.mem_append.mp hp
      · exact h.persists p hp
      · obtain rfl := List.mem_singleton.mp hp
        obtain ⟨k, habout, hview⟩ := h.right.view (Bool.eq_true_of_not_eq_false hvalid)
        exact ⟨Bool.eq_false_of_not_eq_true hsuspended, k, habout, hview.members⟩
    exact
      { right := ⟨h.right.writes, h.right.pins, h.right.view, h.right.emissions, h.right.apart⟩
        clock := h.clock
        backoff := h.backoff
        set := h.set
        active := h.active
        mapped := h.mapped
        timed := h.timed
        persists := hnew
        selects := h.selects
        handled := h.handled
        exhausted := h.exhausted
        pending := fun next hnext => by
          obtain ⟨d, hd⟩ := h.pending next hnext
          exact ⟨d, hd.congr rfl rfl le_rfl rfl rfl⟩
        emitted := h.emitted
        first := h.first }

/-- Some `PersistHealth` goes on, and may write what its members say. -/
theorem Kept.writes (h : Kept s a) {persists : List Persist} {latency : ℤ → ℤ}
    {written : List LatencyWrite}
    (hpersists : ∀ p ∈ persists, p.suspended = false ∧
      ∃ k, p.about = some k ∧ RightMembers (s.builds k) p.members)
    (hwritten : ∀ w ∈ written, w.suspended = false ∧ ∃ k, w.about = some k ∧
      w.profile = profileOf (s.builds k).tagToProfile w.tag) :
    Kept { s with persists := persists, latency := latency }
      { a with writes := a.writes ++ written } where
  right :=
    { writes := fun w hw => (List.mem_append.mp hw).elim (h.right.writes w) (hwritten w)
      pins := h.right.pins
      view := h.right.view
      emissions := h.right.emissions
      apart := h.right.apart }
  clock := h.clock
  backoff := h.backoff
  set := h.set
  active := h.active
  mapped := h.mapped
  timed := h.timed
  persists := hpersists
  selects := h.selects
  handled := h.handled
  exhausted := h.exhausted
  pending next hnext := by
    obtain ⟨d, hd⟩ := h.pending next hnext
    exact ⟨d, hd.congr rfl rfl le_rfl rfl rfl⟩
  emitted := h.emitted
  first := h.first

theorem observe_persistWrites (j : ℕ) :
    s.observe a (.persistWrites j) =
      { a with writes := a.writes ++ (s.latencyWrite (.persistWrites j)).toList } := by
  simp [observe, pinWrite, hears, decides, emits]

theorem Kept.persistWrites (h : Kept s a) (j : ℕ) :
    Kept (s.persistWrites j) (s.observe a (.persistWrites j)) := by
  rw [observe_persistWrites]
  dsimp only [AutoSelectorMonitor.persistWrites, latencyWrite]
  cases hj : s.persists[j]? with
  | none =>
    simp only [Option.toList_none, List.append_nil]
    exact h
  | some p =>
    cases hmembers : p.members with
    | nil =>
      simp only [hmembers, Option.toList_none, List.append_nil]
      exact h
    | cons member members =>
      obtain ⟨hsuspended, k, habout, hright⟩ := h.persists p (List.mem_of_getElem? hj)
      rw [hmembers] at hright
      have hpersists : ∀ q ∈ s.persists.set j { p with members := members },
          q.suspended = false ∧ ∃ k, q.about = some k ∧ RightMembers (s.builds k) q.members := by
        intro q hq
        obtain hq | rfl := List.mem_or_eq_of_mem_set hq
        · exact h.persists q hq
        · exact ⟨hsuspended, k, habout, fun m hm => hright m (List.mem_cons_of_mem _ hm)⟩
      have hnothing : ∀ w ∈ ([] : List LatencyWrite), w.suspended = false ∧ ∃ k,
          w.about = some k ∧ w.profile = profileOf (s.builds k).tagToProfile w.tag :=
        fun w hw => absurd hw List.not_mem_nil
      simp only [hmembers]
      cases hhealth : member.health with
      | none => exact h.writes hpersists hnothing
      | some latency =>
        dsimp only
        split
        · exact h.writes hpersists hnothing
        · refine h.writes hpersists fun w hw => ?_
          obtain rfl := List.mem_singleton.mp hw
          exact ⟨hsuspended, k, habout, hright member List.mem_cons_self⟩

/-! ## RequestSelect -/

/-- The requests go on, and may store the pins of the build they were made in. -/
theorem Kept.requests (h : Kept s a) {selects : List Select} {pinnedID : ℤ → ℤ}
    {stored : List PinWrite}
    (hselects : ∀ r ∈ selects, ∀ k, r.build = some k →
      r.selectorID = (s.builds k).profile ∧ r.memberID = pinOf (s.builds k) r.member)
    (hhandled : ∀ r ∈ selects, ∀ k, r.phase = .handled k → r.build = some k)
    (hstored : ∀ p ∈ stored, p.selector = (s.builds p.about).profile ∧
      p.memberID = pinOf (s.builds p.about) p.member) :
    Kept { s with selects := selects, pinnedID := pinnedID }
      { a with pins := a.pins ++ stored } where
  right :=
    { writes := h.right.writes
      pins := fun p hp => (List.mem_append.mp hp).elim (h.right.pins p) (hstored p)
      view := h.right.view
      emissions := h.right.emissions
      apart := h.right.apart }
  clock := h.clock
  backoff := h.backoff
  set := h.set
  active := h.active
  mapped := h.mapped
  timed := h.timed
  persists := h.persists
  selects := hselects
  handled := hhandled
  exhausted := h.exhausted
  pending next hnext := by
    obtain ⟨d, hd⟩ := h.pending next hnext
    exact ⟨d, hd.congr rfl rfl le_rfl rfl rfl⟩
  emitted := h.emitted
  first := h.first

theorem no_pins : ∀ p ∈ ([] : List PinWrite), p.selector = (s.builds p.about).profile ∧
    p.memberID = pinOf (s.builds p.about) p.member :=
  fun _ hp => absurd hp List.not_mem_nil

/-- Requests that store nothing. -/
theorem Kept.asks (h : Kept s a) {selects : List Select}
    (hselects : ∀ r ∈ selects, ∀ k, r.build = some k →
      r.selectorID = (s.builds k).profile ∧ r.memberID = pinOf (s.builds k) r.member)
    (hhandled : ∀ r ∈ selects, ∀ k, r.phase = .handled k → r.build = some k) :
    Kept { s with selects := selects } a := by
  have hstored : Kept { s with selects := selects } { a with pins := a.pins ++ [] } :=
    h.requests hselects hhandled no_pins
  rw [List.append_nil] at hstored
  exact hstored

/-- What a request asks for is what the build it looked at says. -/
theorem Kept.RequestSelect (h : Kept s a) (member : Text) :
    Kept (s.RequestSelect member) a := by
  unfold AutoSelectorMonitor.RequestSelect
  split
  · exact h
  · generalize hmemberID : (if member = [] then -1 else profileOf s.tagToProfile member) = memberID
    dsimp only
    split
    · exact h
    · refine h.asks (fun r hr k hk => ?_) (fun r hr k hk => ?_)
      · obtain hr | hr := List.mem_append.mp hr
        · exact h.selects r hr k hk
        · obtain rfl := List.mem_singleton.mp hr
          obtain ⟨hmap, hprofile⟩ := h.set k hk
          refine ⟨hprofile, ?_⟩
          rw [pinOf, ← hmap]
          exact hmemberID.symm
      · obtain hr | hr := List.mem_append.mp hr
        · exact h.handled r hr k hk
        · obtain rfl := List.mem_singleton.mp hr
          cases hk

theorem Kept.coreSelects (h : Kept s a) {j : ℕ} {ok : Bool}
    (hsound : Sound (s, a) (.coreSelects j ok)) :
    Kept (s.coreSelects j ok) a := by
  dsimp only [AutoSelectorMonitor.coreSelects]
  split
  · rename_i request k hj hk
    split
    · rename_i hphase
      have hold := List.mem_of_getElem? hj
      refine h.asks (fun r hr k' hk' => ?_) (fun r hr k' hk' => ?_)
      · obtain hr | rfl := List.mem_or_eq_of_mem_set hr
        · exact h.selects r hr k' hk'
        · exact h.selects request hold k' hk'
      · obtain hr | rfl := List.mem_or_eq_of_mem_set hr
        · exact h.handled r hr k' hk'
        · cases ok with
          | false => cases hk'
          | true =>
            dsimp only [Sound] at hsound
            rw [hj, hk] at hsound
            obtain rfl : k = k' := by simpa using hk'
            exact hsound hphase
    · exact h
  · exact h

theorem observe_selectStores (j : ℕ) :
    s.observe a (.selectStores j) =
      { a with pins := a.pins ++ (s.pinWrite (.selectStores j)).toList } := by
  simp [observe, latencyWrite, hears, decides, emits]

theorem Kept.selectStores (h : Kept s a) (j : ℕ) :
    Kept (s.selectStores j) (s.observe a (.selectStores j)) := by
  rw [observe_selectStores]
  dsimp only [AutoSelectorMonitor.selectStores, pinWrite]
  cases hj : s.selects[j]? with
  | none => exact h.requests h.selects h.handled no_pins
  | some request =>
    have hold := List.mem_of_getElem? hj
    cases hphase : request.phase with
    | asked | done =>
      simp only [hphase]
      exact h.requests h.selects h.handled no_pins
    | handled k =>
      have hbuild := h.handled request hold k hphase
      obtain ⟨hselector, hmember⟩ := h.selects request hold k hbuild
      have hselects : ∀ r ∈ s.selects.set j { request with phase := .done }, ∀ k',
          r.build = some k' →
            r.selectorID = (s.builds k').profile ∧ r.memberID = pinOf (s.builds k') r.member := by
        intro r hr k' hk'
        obtain hr | rfl := List.mem_or_eq_of_mem_set hr
        · exact h.selects r hr k' hk'
        · exact h.selects request hold k' hk'
      have hhandled : ∀ r ∈ s.selects.set j { request with phase := .done }, ∀ k',
          r.phase = .handled k' → r.build = some k' := by
        intro r hr k' hk'
        obtain hr | rfl := List.mem_or_eq_of_mem_set hr
        · exact h.handled r hr k' hk'
        · cases hk'
      simp only [hphase]
      split
      · refine h.requests hselects hhandled fun p hp => ?_
        obtain rfl := List.mem_singleton.mp hp
        exact ⟨hselector, hmember⟩
      · exact h.requests hselects hhandled no_pins

end AutoSelectorMonitor

end Throned.Stats
