import Throned.Analysis.MonitorSteps

/-!
# What the poll keeps

A reply passes through four phases; what it names is settled when its tags are mapped.
-/

set_option autoImplicit false

namespace Throned.Stats

open Throned.Library

namespace AutoSelectorMonitor

variable {s : AutoSelectorMonitor} {a : MonitorAudit}

/-- The poll goes on. -/
theorem Kept.polls (h : Kept s a) {phase : PollPhase}
    (hmapped : ∀ next build, phase.Mapped next build →
      (∃ k, next.about = some k) ∧ ∀ k, build = some k → RightView (s.builds k) next)
    (htimed : ∀ next usable build now, phase = .timed next usable build now →
      0 < now ∧ now ≤ s.now)
    (hpending : ∀ next, phase.Deciding next → ∃ d, RightDecision s a next d) :
    Kept { s with poll := phase } a where
  right := ⟨h.right.writes, h.right.pins, h.right.view, h.right.emissions, h.right.apart⟩
  clock := h.clock
  backoff := h.backoff
  set := h.set
  active := h.active
  mapped := hmapped
  timed := htimed
  persists := h.persists
  selects := h.selects
  handled := h.handled
  exhausted := h.exhausted
  pending next hnext := by
    obtain ⟨d, hd⟩ := hpending next hnext
    exact ⟨d, hd.congr rfl rfl le_rfl rfl rfl⟩
  emitted := h.emitted
  first := h.first

theorem Kept.rests (h : Kept s a) {phase : PollPhase} (hquiet : phase.quiet = true) :
    Kept { s with poll := phase } a := by
  refine h.polls ?_ ?_ ?_
  · rintro next build (⟨usable, rfl⟩ | ⟨usable, now, rfl⟩)
    · cases hquiet
    · cases hquiet
  · rintro next usable build now rfl
    cases hquiet
  · rintro next (⟨now, rfl⟩ | rfl | rfl)
    · cases hquiet
    · cases hquiet
    · cases hquiet

theorem Kept.idle (h : Kept s a) : Kept { s with poll := .idle } a := h.rests rfl

theorem Kept.Loop (h : Kept s a) : Kept s.Loop a := by
  unfold AutoSelectorMonitor.Loop
  split
  · split
    · exact h.rests rfl
    · exact h
  · exact h

theorem Kept.coreReplies (h : Kept s a) (reply : Option (List GroupStatus)) :
    Kept (s.coreReplies reply) a := by
  unfold AutoSelectorMonitor.coreReplies
  split
  · split
    · exact h.rests rfl
    · exact h.idle
  · exact h

theorem Kept.findGroup (h : Kept s a) : Kept s.findGroup a := by
  unfold AutoSelectorMonitor.findGroup
  split
  · split
    · exact h.idle
    · split
      · exact h.rests rfl
      · exact h.idle
  · exact h

/-- The tags are read as the build that is set has them. -/
theorem Kept.rightView (h : Kept s a) (about : ℕ) (status : GroupStatus) {k : ℕ}
    (hk : s.build = some k) : RightView (s.builds k) (s.nextView about status) := by
  obtain ⟨hmap, hprofile⟩ := h.set k hk
  have hmembers : RightMembers (s.builds k) (s.nextView about status).members := by
    intro m hm
    obtain ⟨member, -, rfl⟩ := List.mem_map.mp hm
    rw [← hmap]
    rfl
  refine ⟨hprofile, hmembers, ?_⟩
  unfold nextView
  dsimp only
  cases hlast : ((status.members.map (s.memberView status.pinned)).filter
      (·.selected)).getLast? with
  | none => exact .inl rfl
  | some m =>
    obtain ⟨hm, hselected⟩ := List.mem_filter.mp (List.mem_of_getLast? hlast)
    exact .inr ⟨m, hm, hselected, hmembers m hm⟩

theorem Kept.mapMembers (h : Kept s a) : Kept s.mapMembers a := by
  unfold AutoSelectorMonitor.mapMembers
  split
  · rename_i about status _
    refine h.polls ?_ ?_ ?_
    · rintro _ _ (⟨_, ⟨⟩⟩ | ⟨_, _, ⟨⟩⟩)
      exact ⟨⟨about, rfl⟩, fun k hk => h.rightView about status hk⟩
    · rintro _ _ _ _ ⟨⟩
    · rintro _ (⟨_, ⟨⟩⟩ | ⟨⟨⟩⟩ | ⟨⟨⟩⟩)
  · exact h

theorem Kept.readClock (h : Kept s a) : Kept s.readClock a := by
  unfold AutoSelectorMonitor.readClock
  split
  · rename_i next usable build hpoll
    refine h.polls ?_ ?_ ?_
    · rintro _ _ (⟨_, ⟨⟩⟩ | ⟨_, _, ⟨⟩⟩)
      exact h.mapped next build (.inl ⟨usable, hpoll⟩)
    · rintro _ _ _ _ ⟨⟩
      exact ⟨h.clock, le_rfl⟩
    · rintro _ (⟨_, ⟨⟩⟩ | ⟨⟨⟩⟩ | ⟨⟨⟩⟩)
  · exact h

/-! ## Exhaustion -/

/-- The period that is open after a report began with a dead report, and went on with them. -/
theorem Kept.deadSince (h : Kept s a) {k : ℕ} (hk : s.build = some k) {next : AutoSelectorView}
    (habout : next.about = some k) (usable : ℕ) (now : ℤ)
    (hopen : s.exhaustedAfter next usable now ≠ 0) :
    DeadSince k (s.exhaustedAfter next usable now)
      (.report next.about now (everythingDead next usable) next.suspended :: a.heard) := by
  unfold exhaustedAfter at hopen ⊢
  cases hdead : everythingDead next usable with
  | false =>
    rw [hdead] at hopen
    exact absurd rfl hopen
  | true =>
    have hsuspended : next.suspended = false := by
      simp only [everythingDead, Bool.and_eq_true, Bool.not_eq_true'] at hdead
      exact hdead.1.2
    rw [habout, hsuspended, if_neg (by decide)]
    split
    · exact deadSince_now k now a.heard
    · rename_i hbefore
      obtain ⟨k', hk', hsince⟩ := h.exhausted hbefore
      obtain rfl : k = k' := Option.some.inj (hk.symm.trans hk')
      exact hsince.cons now

/-- Why a rebuild is due. -/
theorem fires_iff {since now : ℤ} : s.fires since now = true ↔
    (since ≠ 0 ∧ since + kPoolExhaustedGraceSecs * 1000 ≤ now) ∧
      (s.lastRebuildRequest = 0 ∨ s.lastRebuildRequest + s.rebuildBackoffSecs * 1000 ≤ now) := by
  simp only [fires, Bool.and_eq_true, Bool.or_eq_true, decide_eq_true_eq]
  constructor
  · rintro ⟨⟨hopen, hgrace⟩, hbackoff⟩
    exact ⟨⟨hopen, by omega⟩, hbackoff.imp_right fun _ => by omega⟩
  · rintro ⟨⟨hopen, hgrace⟩, hbackoff⟩
    exact ⟨⟨hopen, by omega⟩, hbackoff.imp_right fun _ => by omega⟩

/-- All emissions lie a backoff before a rebuild that is due. -/
theorem Kept.emissions_before (h : Kept s a) {since now : ℤ} (hfire : s.fires since now = true) :
    ∀ e ∈ a.emissions, e.decision.decidedAt + s.rebuildBackoffSecs * 1000 ≤ now := by
  intro e he
  obtain hnone | hbackoff := (fires_iff.mp hfire).2
  · exact absurd (h.first hnone ▸ he) List.not_mem_nil
  · have hbefore := h.emitted e he
    omega

theorem observe_publish {next : AutoSelectorView} {usable : ℕ} {now : ℤ} {build : Option ℕ}
    (hpoll : s.poll = .timed next usable build now) (hactive : s.active = true) :
    let heard := .report next.about now (everythingDead next usable) next.suspended :: a.heard
    s.observe a .publish =
      { a with
        heard
        decision :=
          (if s.fires (s.exhaustedAfter next usable now) now then
            some ⟨now, s.rebuildBackoffSecs, heard⟩
          else none).or a.decision } := by
  simp [observe, latencyWrite, pinWrite, hears, decides, emits, hpoll, hactive]

theorem Kept.publish (h : Kept s a) (hsound : Sound (s, a) .publish) :
    Kept s.publish (s.observe a .publish) := by
  cases hpoll : s.poll with
  | idle | asking | replied | found | mapped | published | persisting | confirming =>
    simp only [AutoSelectorMonitor.publish, observe, latencyWrite, pinWrite, hears, decides, emits,
      hpoll, Option.toList_none, List.append_nil, List.nil_append, Option.none_or]
    exact h
  | timed next usable build now =>
    cases hactive : s.active with
    | false =>
      simp only [AutoSelectorMonitor.publish, observe, latencyWrite, pinWrite, hears, decides,
        emits, hpoll, hactive, Bool.false_eq_true, false_and, if_false, if_true,
        Option.toList_none, List.append_nil, List.nil_append, Option.none_or]
      exact hactive ▸ h.idle
    | true =>
      rw [observe_publish hpoll hactive]
      dsimp only [Sound] at hsound
      rw [hpoll] at hsound
      obtain ⟨hbuild, hset⟩ := hsound hactive
      obtain ⟨⟨k, habout⟩, hright⟩ := h.mapped next build (.inr ⟨usable, now, hpoll⟩)
      obtain ⟨hpositive, hpast⟩ := h.timed next usable build now hpoll
      have hview := hright k (hbuild.trans habout)
      have hbackoff : ∀ secs : ℤ, 0 ≤ secs → 0 ≤ if usable > 0 then 0 else secs := by
        intro secs hsecs
        split
        · exact le_rfl
        · exact hsecs
      have hnext : 0 ≤ if s.rebuildBackoffSecs = 0 then kRebuildBackoffMinSecs
          else min (s.rebuildBackoffSecs * 2) kRebuildBackoffMaxSecs := by
        have := h.backoff
        unfold kRebuildBackoffMinSecs kRebuildBackoffMaxSecs
        omega
      have hdead := h.deadSince (hset.trans habout) habout usable now
      simp only [AutoSelectorMonitor.publish, hpoll, hactive, Bool.true_eq_false, if_false]
      generalize s.exhaustedAfter next usable now = since at hdead ⊢
      cases hfire : s.fires since now with
      | false =>
        simp only [Bool.false_eq_true, if_false, Option.none_or]
        exact
          { right :=
              { writes := h.right.writes
                pins := h.right.pins
                view := fun _ => ⟨k, habout, hview.profile, hview.members, hview.selected⟩
                emissions := h.right.emissions
                apart := h.right.apart }
            clock := h.clock
            backoff := hbackoff _ h.backoff
            set := h.set
            active := fun _ => h.active hactive
            mapped := by rintro _ _ (⟨_, ⟨⟩⟩ | ⟨_, _, ⟨⟩⟩)
            timed := by rintro _ _ _ _ ⟨⟩
            persists := h.persists
            selects := h.selects
            handled := h.handled
            exhausted := fun hopen => ⟨k, hset.trans habout, hdead hopen⟩
            pending := by rintro _ (⟨_, ⟨⟩⟩ | ⟨⟨⟩⟩ | ⟨⟨⟩⟩)
            emitted := h.emitted
            first := h.first }
      | true =>
        have hbefore := h.emissions_before hfire
        obtain ⟨⟨hopen, hgrace⟩, -⟩ := fires_iff.mp hfire
        simp only [if_true, Option.some_or]
        exact
          { right :=
              { writes := h.right.writes
                pins := h.right.pins
                view := fun _ => ⟨k, habout, hview.profile, hview.members, hview.selected⟩
                emissions := h.right.emissions
                apart := h.right.apart }
            clock := h.clock
            backoff := hbackoff _ hnext
            set := h.set
            active := fun _ => h.active hactive
            mapped := by rintro _ _ (⟨_, ⟨⟩⟩ | ⟨_, _, ⟨⟩⟩)
            timed := by rintro _ _ _ _ ⟨⟩
            persists := h.persists
            selects := h.selects
            handled := h.handled
            exhausted := fun hagain => absurd rfl hagain
            pending := by
              rintro _ (⟨_, ⟨⟩⟩ | ⟨⟨⟩⟩ | ⟨⟨⟩⟩)
              exact ⟨_, rfl, rfl, hpositive.ne', hpast,
                ⟨k, hview.profile, (hdead hopen).exhausted hgrace⟩, hbefore⟩
            emitted := fun e he => by
              have := hbefore e he
              have := h.backoff
              dsimp only
              omega
            first := fun hnever => absurd hnever hpositive.ne' }

/-! ## After the publication -/

theorem Kept.afterHealth (h : Kept s a) {next : AutoSelectorView} {fire : Bool}
    (hpending : fire = true → ∃ d, RightDecision s a next d) :
    Kept (s.afterHealth next fire) a := by
  unfold AutoSelectorMonitor.afterHealth
  cases fire with
  | false => exact h.idle
  | true =>
    refine h.polls ?_ ?_ ?_
    · rintro _ _ (⟨_, ⟨⟩⟩ | ⟨_, _, ⟨⟩⟩)
    · rintro _ _ _ _ ⟨⟩
    · rintro _ (⟨_, ⟨⟩⟩ | ⟨⟨⟩⟩ | ⟨⟨⟩⟩)
      exact hpending rfl

theorem Kept.healthDue (h : Kept s a) : Kept s.healthDue a := by
  unfold AutoSelectorMonitor.healthDue
  split
  · rename_i next now fire hpoll
    split
    · refine h.polls ?_ ?_ ?_
      · rintro _ _ (⟨_, ⟨⟩⟩ | ⟨_, _, ⟨⟩⟩)
      · rintro _ _ _ _ ⟨⟩
      · rintro _ (⟨_, ⟨⟩⟩ | ⟨⟨⟩⟩ | ⟨⟨⟩⟩)
        exact h.pending next (.inl ⟨now, hpoll⟩)
    · refine h.afterHealth ?_
      rintro rfl
      exact h.pending next (.inl ⟨now, hpoll⟩)
  · exact h

theorem RightDecision.persistCopies {next : AutoSelectorView} {d : Decision}
    (h : RightDecision s a next d) : RightDecision s.persistCopies a next d := by
  unfold AutoSelectorMonitor.persistCopies
  split
  · exact h
  · exact h.congr rfl rfl le_rfl rfl rfl

theorem Kept.pollPersists (h : Kept s a) : Kept s.pollPersists a := by
  unfold AutoSelectorMonitor.pollPersists
  split
  · rename_i next fire hpoll
    refine h.persistCopies.afterHealth ?_
    rintro rfl
    obtain ⟨d, hd⟩ := h.pending next (.inr (.inl hpoll))
    exact ⟨d, hd.persistCopies⟩
  · exact h

theorem Kept.confirm (h : Kept s a) (interfaceOK nameEmpty : Bool) :
    Kept (s.confirm interfaceOK nameEmpty) (s.observe a (.confirm interfaceOK nameEmpty)) := by
  cases hpoll : s.poll with
  | idle | asking | replied | found | mapped | timed | published | persisting =>
    simp only [AutoSelectorMonitor.confirm, observe, latencyWrite, pinWrite, hears, decides, emits,
      hpoll, Option.toList_none, List.append_nil, List.nil_append, Option.none_or]
    exact h
  | confirming next =>
    obtain ⟨d, hd⟩ := h.pending next (.inr (.inr hpoll))
    simp only [AutoSelectorMonitor.confirm, observe, latencyWrite, pinWrite, hears, decides, emits,
      hpoll, Option.toList_none, List.append_nil, List.nil_append, Option.none_or, hd.decision,
      Option.map_some]
    split
    · simp only [Option.toList_none, List.append_nil]
      exact hd.decision ▸ h.idle
    · have hemission : ∀ e ∈ [Emission.mk next.profileID s.now d],
          e = ⟨next.profileID, s.now, d⟩ := fun e he => List.mem_singleton.mp he
      refine
        { right :=
            { writes := h.right.writes
              pins := h.right.pins
              view := h.right.view
              emissions := fun e he => ?_
              apart := ?_ }
          clock := h.clock
          backoff := h.backoff
          set := h.set
          active := h.active
          mapped := by rintro _ _ (⟨_, ⟨⟩⟩ | ⟨_, _, ⟨⟩⟩)
          timed := by rintro _ _ _ _ ⟨⟩
          persists := h.persists
          selects := h.selects
          handled := h.handled
          exhausted := h.exhausted
          pending := by rintro _ (⟨_, ⟨⟩⟩ | ⟨⟨⟩⟩ | ⟨⟨⟩⟩)
          emitted := fun e he => ?_
          first := fun hnever => absurd (hd.last.trans hnever) hd.known }
      · obtain he | he := List.mem_append.mp he
        · exact h.right.emissions e he
        · obtain rfl := hemission e he
          exact ⟨hd.past, hd.exhausted⟩
      · refine List.pairwise_append.mpr ⟨h.right.apart, List.pairwise_singleton _ _,
          fun e he e' he' => ?_⟩
        obtain rfl := hemission e' he'
        exact hd.apart e he
      · obtain he | he := List.mem_append.mp he
        · exact h.emitted e he
        · obtain rfl := hemission e he
          exact hd.last.le

end AutoSelectorMonitor

end Throned.Stats
