import Throned.Analysis.ResumeWatch

/-!
# The runs of the crash-loop guard

Between its saves the process may die at any moment.  As long as each boot can read the file
back, the record agrees with the deaths in a row, so that a profile that dies each time is
resumed at most `kStrikesToSuppress` times.
-/

set_option autoImplicit false

namespace Throned.Headless

open Throned.Library

/-- The program, and what is watched of it. -/
structure Watched where
  runtime : Runtime
  watch : Watch

namespace Watched

def step (x : Watched) (e : Runtime.Event) : Option Watched :=
  (x.runtime.step e).map fun s => ⟨s, x.watch.step e⟩

/-- A boot finds no file that is too large. -/
def BootFits (x : Watched) (e : Runtime.Event) : Prop :=
  e = .boot → ∀ f, x.runtime.disk = some f → f.size ≤ kResumeGuardMaxBytes

/-- The steps that meet a condition, one after another. -/
inductive Run (p : Watched → Runtime.Event → Prop) : Watched → List Runtime.Event → Watched → Prop
  | nil (x : Watched) : Run p x [] x
  | cons {x y z : Watched} {e : Runtime.Event} {es : List Runtime.Event} (hp : p x e)
      (hstep : x.step e = some y) (hrun : Run p y es z) : Run p x (e :: es) z

end Watched

/-- The deaths in a row that a file tells of. -/
def Watch.ofRecord (g : ResumeGuard) : Watch :=
  ⟨g.profile, g.strikes.toNat + (if g.armed then 1 else 0), false⟩

/-- The runs from any file, of steps that meet a condition. -/
def resumes (p : Watched → Runtime.Event → Prop) : System Watched where
  init x := x.runtime.phase = .off ∧ x.watch = .ofRecord (.load x.runtime.disk)
  step x y := ∃ e, p x e ∧ x.step e = some y

/-! ## The record and the deaths -/

/-- **While the process runs, the record has the deaths in a row**; a record without a profile
stands for no deaths of the profile that was decided on but not saved. -/
def Counts (g : ResumeGuard) (w : Watch) : Prop :=
  (g.profile = w.profile ∧ g.strikes = min (w.deaths : Int) kStrikesToSuppress ∧ g.armed = w.isOpen) ∨
    (g.profile = -1 ∧ 0 ≤ w.profile ∧ w.deaths = 0 ∧ w.isOpen = false)

/-- What a file has before `settlePrevious`: an armed record stands for one death more. -/
def Owes (g : ResumeGuard) (w : Watch) : Prop :=
  w.isOpen = false ∧
    ((g.profile = w.profile ∧
        min (g.strikes + if g.armed then 1 else 0) kStrikesToSuppress =
          min (w.deaths : Int) kStrikesToSuppress) ∨
      (g.profile = -1 ∧ 0 ≤ w.profile ∧ w.deaths = 0))

theorem Owes.congr {g g' : ResumeGuard} {w : Watch} (h : Owes g w) (hprofile : g'.profile = g.profile)
    (hstrikes : g'.strikes = g.strikes) (harmed : g'.armed = g.armed) : Owes g' w := by
  unfold Owes at h ⊢
  rw [hprofile, hstrikes, harmed]
  exact h

namespace Runtime

/-- The file is the last save, or that of no profile while one without strikes is decided on. -/
def Kept (s : Runtime) : Prop :=
  ∃ g : ResumeGuard, s.disk = some g.file ∧ g.Bounded ∧
    (g.Same s.guard ∨
      (g.profile = -1 ∧ 0 ≤ s.guard.profile ∧ s.guard.strikes = 0 ∧ s.guard.armed = false))

structure Settled (s : Runtime) (w : Watch) : Prop where
  phase : s.phase = .settled
  bounded : s.guard.Bounded
  counts : Counts s.guard w
  kept : s.Kept

variable {s : Runtime} {w w' : Watch} {g : ResumeGuard}

theorem settled_save (hphase : s.phase = .settled) (hbounded : s.guard.Bounded)
    (hcounts : Counts s.guard w) : s.save.Settled w :=
  ⟨hphase, hbounded, hcounts, s.guard, rfl, hbounded, Or.inl ⟨rfl, rfl, rfl, rfl, rfl⟩⟩

/-- A step that leaves the record and the file alone. -/
theorem Settled.quiet (h : s.Settled w) (hcounts : Counts s.guard w') (suppressed : Bool) :
    Settled { s with guard := { s.guard with suppressed } } w' := by
  obtain ⟨g, hdisk, hg, hsame⟩ := h.kept
  refine ⟨h.phase, ⟨h.bounded.1, h.bounded.2, h.bounded.3, h.bounded.4, h.bounded.5⟩, hcounts, g,
    hdisk, hg, ?_⟩
  rcases hsame with hsame | hnone
  · exact Or.inl ⟨hsame.1, hsame.2, hsame.3, hsame.4, hsame.5⟩
  · exact Or.inr hnone

theorem Settled.same (h : s.Settled w) (hcounts : Counts s.guard w') : s.Settled w' :=
  ⟨h.phase, h.bounded, hcounts, h.kept⟩

/-- A window that is closed without a death. -/
theorem counts_close (h : Counts g w) :
    Counts g.disarmed w.close := by
  rcases h with ⟨hprofile, hstrikes, -⟩ | ⟨hprofile, hw, hdeaths, -⟩
  · exact Or.inl ⟨hprofile, hstrikes, rfl⟩
  · exact Or.inr ⟨hprofile, hw, hdeaths, rfl⟩

theorem counts_armed (hg : g.Bounded) (h : Counts g w) : g.armed = w.isOpen := by
  rcases h with ⟨-, -, harmed⟩ | ⟨hprofile, -, -, hopen⟩
  · exact harmed
  · cases harmed : g.armed with
    | false => exact hopen.symm
    | true =>
      have := hg.armed harmed
      omega

theorem bounded_disarmed (hg : g.Bounded) :
    g.disarmed.Bounded :=
  ⟨hg.profile, hg.strikes, nofun, fun _ => rfl, hg.unstable⟩

theorem bounded_struck (hg : g.Bounded) :
    g.struck.Bounded := by
  refine ⟨hg.profile, ?_, nofun, fun _ => rfl, hg.unstable⟩
  have := hg.strikes
  simp only [ResumeGuard.struck, kStrikesToSuppress] at this ⊢
  omega

/-- **A death in the window is one strike.** -/
theorem counts_struck (hg : g.Bounded) (h : Counts g w) (harmed : g.armed = true) :
    Counts g.struck w.death := by
  have hopen : w.isOpen = true := (counts_armed hg h).symm.trans harmed
  rcases h with ⟨hprofile, hstrikes, -⟩ | ⟨-, -, -, hclosed⟩
  · refine Or.inl ⟨?_, ?_, ?_⟩
    · rw [Watch.death, if_pos hopen]
      exact hprofile
    · simp only [ResumeGuard.struck, hstrikes, Watch.death, if_pos hopen, Watch.close, kStrikesToSuppress]
      omega
    · rw [Watch.death, if_pos hopen]
      rfl
  · rw [hopen] at hclosed
    cases hclosed

theorem death_of_not_open (h : w.isOpen = false) : w.death = w := by
  rw [Watch.death, if_neg (by rw [h]; exact Bool.false_ne_true)]

theorem close_of_not_open (h : w.isOpen = false) : w.close = w := by
  obtain ⟨profile, deaths, isOpen⟩ := w
  cases h
  rfl

/-! ## The operations -/

theorem settled_decideResume (h : s.Settled w) (candidateId : Int) :
    (s.decideResume candidateId).1.Settled (w.follow candidateId) := by
  have hbounded := h.bounded
  unfold decideResume
  simp only
  split
  · rename_i hneg
    rw [Watch.follow, if_pos (Or.inl hneg)]
    exact h.quiet h.counts false
  · rename_i hpos
    have hcandidate : 0 ≤ candidateId := by omega
    have hfresh : ResumeGuard.Bounded
        { s.guard.disarmed with suppressed := false, profile := candidateId, strikes := 0 } :=
      ⟨show -1 ≤ candidateId by omega, by simp [kStrikesToSuppress], nofun, fun _ => rfl,
        hbounded.unstable⟩
    split
    · rename_i hother
      have hcounts : Counts
          { s.guard.disarmed with suppressed := false, profile := candidateId, strikes := 0 }
          (w.follow candidateId) := by
        rcases h.counts with ⟨hprofile, -, -⟩ | ⟨hprofile, hw, hdeaths, hopen⟩
        · rw [Watch.follow, if_neg (by rintro (h | h) <;> omega)]
          exact Or.inl ⟨rfl, rfl, rfl⟩
        · unfold Watch.follow
          split
          · rename_i hsame
            exact Or.inl ⟨hsame.resolve_left hpos, by simp [hdeaths, kStrikesToSuppress],
              hopen.symm⟩
          · exact Or.inl ⟨rfl, rfl, rfl⟩
      split
      · exact settled_save h.phase hfresh hcounts
      · rename_i hnorecord
        obtain ⟨g, hdisk, hg, hsame⟩ := h.kept
        refine ⟨h.phase, hfresh, hcounts, g, hdisk, hg, Or.inr ⟨?_, hcandidate, rfl, rfl⟩⟩
        have hprofile := hbounded.profile
        rcases hsame with hsame | hnone
        · have := hsame.profile
          omega
        · exact hnone.1
    · rename_i hsame
      have hfollow : Counts s.guard (w.follow candidateId) := by
        rcases h.counts with hc | hc
        · rw [Watch.follow, if_pos (Or.inr (by simp only [ne_eq, not_not] at hsame; omega))]
          exact Or.inl hc
        · have := hc.1
          simp only [ne_eq, not_not] at hsame
          omega
      split
      · exact h.quiet hfollow true
      · exact h.quiet hfollow false

theorem settled_arm (h : s.Settled w) (profileId now : Int) :
    (s.arm profileId now).Settled (w.step (.arm profileId now)) := by
  have hbounded := h.bounded
  unfold arm
  simp only [Watch.step]
  split
  · exact h
  · rename_i hpos
    have hid : 0 ≤ profileId := by omega
    refine settled_save h.phase ?_ ?_
    · simp only
      split
      · exact ⟨show -1 ≤ profileId by omega, by simp [kStrikesToSuppress], fun _ => hid, (by rintro ⟨⟩),
          hbounded.unstable⟩
      · rename_i hsame
        have hprofile : 0 ≤ s.guard.profile := by omega
        exact ⟨hbounded.profile, hbounded.strikes, fun _ => hprofile, (by rintro ⟨⟩), hbounded.unstable⟩
    · rcases h.counts with ⟨hprofile, hstrikes, -⟩ | ⟨hprofile, hw, hdeaths, -⟩
      · unfold Watch.follow
        by_cases hsame : profileId = w.profile
        · rw [if_neg (by omega), if_pos (Or.inr hsame)]
          exact Or.inl ⟨hprofile, hstrikes, rfl⟩
        · rw [if_pos (by omega), if_neg (by rintro (h | h) <;> omega)]
          exact Or.inl ⟨rfl, rfl, rfl⟩
      · rw [if_pos (by omega)]
        unfold Watch.follow
        split
        · rename_i hsame
          exact Or.inl ⟨hsame.resolve_left hpos, by simp [hdeaths, kStrikesToSuppress], rfl⟩
        · exact Or.inl ⟨rfl, rfl, rfl⟩

theorem settled_disarm (h : s.Settled w) : s.disarm.Settled w.close := by
  unfold disarm
  split
  · exact settled_save h.phase (bounded_disarmed h.bounded) (counts_close h.counts)
  · rename_i harmed
    have hopen := counts_armed h.bounded h.counts
    rw [close_of_not_open (hopen.symm.trans (Bool.eq_false_of_not_eq_true harmed))]
    exact h

theorem settled_strike (h : s.Settled w) : s.strike.Settled w.death := by
  unfold strike
  split
  · rename_i harmed
    exact settled_save h.phase (bounded_struck h.bounded) (counts_struck h.bounded h.counts harmed)
  · rename_i harmed
    have hopen := counts_armed h.bounded h.counts
    rw [death_of_not_open (hopen.symm.trans (Bool.eq_false_of_not_eq_true harmed))]
    exact h

theorem settled_survived (h : s.Settled w) (profileId : Int) :
    (s.survived profileId).Settled (w.step (.survived profileId)) := by
  have hbounded := h.bounded
  simp only [survived, Watch.step]
  rcases h.counts with hc | hc
  · obtain ⟨hprofile, hstrikes, harmed⟩ := hc
    rw [← hprofile]
    split
    · exact h
    · split
      · rename_i hnone
        exact h.same (Or.inl ⟨hprofile, hnone.1, hnone.2.1⟩)
      · exact settled_save h.phase
          ⟨hbounded.profile, by simp [kStrikesToSuppress], nofun, fun _ => rfl, hbounded.unstable⟩
          (Or.inl ⟨hprofile, rfl, rfl⟩)
  · obtain ⟨hprofile, hw, hdeaths, hopen⟩ := hc
    rw [if_pos (by omega)]
    split
    · exact h
    · exact h.same (Or.inr ⟨hprofile, hw, rfl, rfl⟩)

theorem settled_noteExit (h : s.Settled w) (code : Int) (reason : Text) (now : Int) :
    (s.noteExit code reason now).Settled (w.step (.noteExit code reason now)) := by
  have hbounded := h.bounded
  simp only [noteExit, Watch.step]
  split
  · exact settled_save h.phase ⟨hbounded.1, hbounded.2, nofun, fun _ => rfl, hbounded.5⟩
      (counts_close h.counts)
  · exact settled_save h.phase ⟨hbounded.1, hbounded.2, hbounded.3, hbounded.4, hbounded.5⟩ h.counts

theorem settled_markStable (h : s.Settled w) : s.markStable.Settled w := by
  have hbounded := h.bounded
  unfold markStable
  split
  · exact h
  · exact settled_save h.phase ⟨hbounded.1, hbounded.2, hbounded.3, hbounded.4,
      by simp [kResumeGuardMaxUnstableBoots]⟩ h.counts

theorem settled_liftSuppression (h : s.Settled w) (startedProfileId : Int) :
    (s.liftSuppression startedProfileId).Settled w := by
  unfold liftSuppression
  split
  · exact h.quiet h.counts false
  · exact h

theorem settled_settlePrevious (hbounded : s.guard.Bounded) (h : Owes s.guard w) :
    s.settlePrevious.Settled w := by
  obtain ⟨hopen, howes⟩ := h
  have hopened : s.guard.openBoot.Bounded := by
    refine ⟨hbounded.1, hbounded.2, hbounded.3, hbounded.4, ?_⟩
    have hunstable := hbounded.unstable
    simp only [ResumeGuard.openBoot, kResumeGuardMaxUnstableBoots] at hunstable ⊢
    split <;> omega
  have hrange := hopened.strikes
  have harmed : s.guard.openBoot.armed = s.guard.armed := rfl
  have hstrikes : s.guard.openBoot.strikes = s.guard.strikes := rfl
  simp only [kStrikesToSuppress] at hrange howes
  unfold settlePrevious
  simp only
  split
  · rename_i hg
    refine settled_save rfl (bounded_struck hopened) ?_
    rcases howes with ⟨hsame, hdeaths⟩ | ⟨hnone, -, -⟩
    · rw [if_pos (harmed.symm.trans hg)] at hdeaths
      refine Or.inl ⟨hsame, ?_, hopen.symm⟩
      simp only [ResumeGuard.struck, hstrikes, kStrikesToSuppress]
      omega
    · have := hbounded.armed (harmed.symm.trans hg)
      omega
  · rename_i hg
    have hg : s.guard.armed = false := Bool.eq_false_of_not_eq_true hg
    refine settled_save rfl hopened ?_
    rcases howes with ⟨hsame, hdeaths⟩ | ⟨hnone, hw, hdeaths⟩
    · rw [if_neg (by rw [hg]; rintro ⟨⟩)] at hdeaths
      refine Or.inl ⟨hsame, ?_, hg.trans hopen.symm⟩
      simp only [hstrikes, kStrikesToSuppress]
      omega
    · exact Or.inr ⟨hnone, hw, hdeaths, hopen⟩

end Runtime

/-! ## The invariant -/

namespace Watched

variable {x y : Watched} {e : Runtime.Event}

/-- What a file owes, if the next boot can read it. -/
def FileOwes (disk : Option DiskFile) (w : Watch) : Prop :=
  (∀ f, disk = some f → f.size ≤ kResumeGuardMaxBytes) → Owes (.load disk) w

structure Inv (x : Watched) : Prop where
  off : x.runtime.phase = .off → FileOwes x.runtime.disk x.watch
  loaded : x.runtime.phase = .loaded →
    FileOwes x.runtime.disk x.watch ∧ x.runtime.guard.Bounded ∧ Owes x.runtime.guard x.watch
  settled : x.runtime.phase = .settled → x.runtime.Settled x.watch

theorem inv_of_settled {s : Runtime} {w : Watch} (h : s.Settled w) : Inv ⟨s, w⟩ := by
  have hphase := h.phase
  refine ⟨fun hoff => ?_, fun hloaded => ?_, fun _ => h⟩
  · rw [hphase] at hoff
    cases hoff
  · rw [hphase] at hloaded
    cases hloaded

theorem owes_ofRecord {g : ResumeGuard} (hg : g.Bounded) : Owes g (.ofRecord g) := by
  have hrange := hg.strikes
  refine ⟨rfl, Or.inl ⟨rfl, ?_⟩⟩
  unfold Watch.ofRecord
  simp only
  split <;> (push_cast; congr 1; omega)

/-- **A death of the process leaves a file that owes it.** -/
theorem fileOwes_die {s : Runtime} {w : Watch} (h : s.Settled w) : FileOwes s.disk w.death := by
  intro hfits
  obtain ⟨g, hdisk, hg, hsame⟩ := h.kept
  rw [hdisk, ResumeGuard.load_file hg (hfits _ hdisk)]
  refine ⟨?_, ?_⟩
  · unfold Watch.death
    split
    · rfl
    · rename_i hopen
      exact Bool.eq_false_of_not_eq_true hopen
  · have hrange := h.bounded.strikes
    simp only [kStrikesToSuppress] at hrange ⊢
    rcases h.counts with ⟨hprofile, hstrikes, harmed⟩ | ⟨hprofile, hw, hdeaths, hopen⟩
    · simp only [kStrikesToSuppress] at hstrikes
      rcases hsame with hsame | ⟨hnone, hpos, hzero, hdisarmed⟩
      · left
        have hprofile' := hsame.profile
        have hstrikes' := hsame.strikes
        have harmed' := hsame.armed
        unfold Watch.death
        by_cases hopen : w.isOpen = true
        · rw [if_pos hopen, if_pos (by rw [harmed', harmed, hopen])]
          refine ⟨hprofile'.trans hprofile, ?_⟩
          push_cast
          omega
        · rw [if_neg hopen, if_neg (by rw [harmed', harmed]; exact hopen)]
          refine ⟨hprofile'.trans hprofile, ?_⟩
          omega
      · right
        rw [Runtime.death_of_not_open (harmed.symm.trans hdisarmed)]
        refine ⟨hnone, hprofile ▸ hpos, ?_⟩
        omega
    · rw [Runtime.death_of_not_open hopen]
      right
      rcases hsame with hsame | ⟨hnone, -, -, -⟩
      · exact ⟨hsame.profile.trans hprofile, hw, hdeaths⟩
      · exact ⟨hnone, hw, hdeaths⟩

theorem inv_boot (h : x.Inv) (hphase : x.runtime.phase = .off) (hfits : x.BootFits .boot) :
    Inv ⟨x.runtime.boot, x.watch⟩ := by
  have hfile := h.off hphase
  have hbounded := ResumeGuard.bounded_load x.runtime.disk
  have howes : Owes (.load x.runtime.disk) x.watch := hfile (hfits rfl)
  unfold Runtime.boot
  simp only
  split
  · exact ⟨nofun, fun _ => ⟨hfile, hbounded, howes⟩, nofun⟩
  · refine ⟨nofun, fun _ => ⟨fun hsize => ?_, hbounded, howes⟩, nofun⟩
    simp only [Runtime.save] at hsize ⊢
    rw [ResumeGuard.load_file hbounded (hsize _ rfl)]
    exact howes.congr rfl rfl rfl

theorem inv_step (h : x.Inv) (hfits : x.BootFits e) (hstep : x.step e = some y) : y.Inv := by
  obtain ⟨s, hs, rfl⟩ := Option.map_eq_some_iff.mp hstep
  obtain ⟨runtime, w⟩ := x
  unfold Runtime.step at hs
  cases hphase : runtime.phase with
  | off =>
    cases e <;> simp only [hphase, reduceCtorEq] at hs
    obtain rfl := Option.some.inj hs
    exact inv_boot h hphase hfits
  | loaded =>
    obtain ⟨hfile, hbounded, howes⟩ := h.loaded hphase
    cases e <;> simp only [hphase, reduceCtorEq] at hs
    case settlePrevious =>
      obtain rfl := Option.some.inj hs
      exact inv_of_settled (Runtime.settled_settlePrevious hbounded howes)
    case die =>
      obtain rfl := Option.some.inj hs
      refine ⟨fun _ => ?_, nofun, nofun⟩
      simp only [Watch.step, Runtime.death_of_not_open howes.1]
      exact hfile
  | settled =>
    have hsettled := h.settled hphase
    cases e <;> simp only [hphase, reduceCtorEq] at hs <;> obtain rfl := Option.some.inj hs
    case decideResume candidateId =>
      exact inv_of_settled (Runtime.settled_decideResume hsettled candidateId)
    case arm profileId now => exact inv_of_settled (Runtime.settled_arm hsettled profileId now)
    case disarm => exact inv_of_settled (Runtime.settled_disarm hsettled)
    case strike => exact inv_of_settled (Runtime.settled_strike hsettled)
    case survived profileId =>
      exact inv_of_settled (Runtime.settled_survived hsettled profileId)
    case noteExit code reason now =>
      exact inv_of_settled (Runtime.settled_noteExit hsettled code reason now)
    case markStable => exact inv_of_settled (Runtime.settled_markStable hsettled)
    case liftSuppression startedProfileId =>
      exact inv_of_settled (Runtime.settled_liftSuppression hsettled startedProfileId)
    case die => exact ⟨fun _ => @fileOwes_die runtime w hsettled, nofun, nofun⟩

theorem inv_of_reachable (h : (resumes BootFits).Reachable x) : x.Inv := by
  refine System.Reachable.invariant ?_ ?_ h
  · rintro ⟨s, w⟩ ⟨hphase, hw⟩
    refine ⟨fun _ _ => ?_, fun hloaded => ?_, fun hsettled => ?_⟩
    · simp only at hw
      rw [hw]
      exact owes_ofRecord (ResumeGuard.bounded_load _)
    · exact absurd (hphase.symm.trans hloaded) nofun
    · exact absurd (hphase.symm.trans hsettled) nofun
  · rintro x y - hinv ⟨e, hfits, hstep⟩
    exact inv_step hinv hfits hstep

end Watched

end Throned.Headless
