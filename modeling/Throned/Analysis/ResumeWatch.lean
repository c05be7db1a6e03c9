import Throned.Library.Transition
import Throned.Model.ResumeGuard

/-!
# What the crash-loop guard keeps count of

A resume opens a window, and a crash of the process or of the core inside it is a death.  The
guard has the number of deaths in a row of the profile of its record, up to the number that
suppresses it, whatever the process did between two saves.
-/

set_option autoImplicit false

namespace Throned.Headless

open Throned.Library

/-! ## Deaths in a window -/

/-- The profile that is watched, its deaths in a row, and whether its window is open. -/
structure Watch where
  profile : Int
  deaths : ℕ
  isOpen : Bool
  deriving DecidableEq, Repr

namespace Watch

def close (w : Watch) : Watch := { w with isOpen := false }

def death (w : Watch) : Watch := if w.isOpen then { w.close with deaths := w.deaths + 1 } else w

/-- Another profile starts with no deaths. -/
def follow (w : Watch) (profile : Int) : Watch :=
  if profile < 0 ∨ profile = w.profile then w else ⟨profile, 0, false⟩

def step (w : Watch) : Runtime.Event → Watch
  | .decideResume candidateId => w.follow candidateId
  | .arm profileId _ => if profileId < 0 then w else { w.follow profileId with isOpen := true }
  | .disarm => w.close
  | .strike => w.death
  | .survived profileId =>
    if profileId < 0 ∨ profileId ≠ w.profile then w else { w.close with deaths := 0 }
  | .noteExit code _ _ =>
    if code ≠ ExitCode.CoreGaveUp ∧ code ≠ ExitCode.Stuck then w.close else w
  | .die => w.death
  | _ => w

end Watch

/-! ## What a file keeps of a record -/

namespace ResumeGuard

/-- The values that a constructor and the operations leave. -/
structure Bounded (g : ResumeGuard) : Prop where
  profile : -1 ≤ g.profile
  strikes : 0 ≤ g.strikes ∧ g.strikes ≤ kStrikesToSuppress
  armed : g.armed = true → 0 ≤ g.profile
  armedAt : g.armed = false → g.armedAt = 0
  unstable : 0 ≤ g.unstableBoots ∧ g.unstableBoots ≤ kResumeGuardMaxUnstableBoots

/-- The parts of a record that are written. -/
structure Same (g g' : ResumeGuard) : Prop where
  profile : g.profile = g'.profile
  strikes : g.strikes = g'.strikes
  armed : g.armed = g'.armed
  bootOpen : g.bootOpen = g'.bootOpen
  unstable : g.unstableBoots = g'.unstableBoots

theorem bounded_load (disk : Option DiskFile) : (load disk).Bounded := by
  have hempty : Bounded {} := by
    constructor <;> decide
  unfold load
  split
  · split
    · exact hempty
    · rename_i root _
      refine ⟨?_, ?_, ?_, ?_, ?_⟩
      · simp only
        split <;> omega
      · simp only [kStrikesToSuppress]
        omega
      · intro harmed
        simp only [Bool.and_eq_true, decide_eq_true_eq] at harmed
        exact harmed.1
      · intro harmed
        simp only at harmed ⊢
        rw [harmed]
        rfl
      · simp only [kResumeGuardMaxUnstableBoots]
        omega
  · exact hempty

theorem load_of_fits {size : ℕ} {root : StateFile} (hsize : size ≤ kResumeGuardMaxBytes)
    (hversion : root.version = kResumeGuardVersion) (hprofile : -1 ≤ root.profile) :
    load (some ⟨size, some root⟩) =
      { profile := root.profile
        strikes := max 0 (min root.strikes kStrikesToSuppress)
        armed := decide (0 ≤ root.profile) && root.armed
        armedAt := if decide (0 ≤ root.profile) && root.armed then root.armed_at else 0
        bootOpen := root.bootOpen
        unstableBoots := max 0 (min root.unstable kResumeGuardMaxUnstableBoots)
        previousExit := root.last_exit } := by
  have hread : ¬ (kResumeGuardMaxBytes < size ∨ root.version ≠ kResumeGuardVersion) :=
    fun h => h.elim (Nat.not_lt.mpr hsize) fun hne => hne hversion
  have hprofile' : (if root.profile < 0 then -1 else root.profile) = root.profile := by
    split <;> omega
  unfold load
  simp only
  rw [if_neg hread, hprofile']

/-- **Loading what `save` wrote gives the record back.** -/
theorem load_file {g : ResumeGuard} (h : g.Bounded) (hfits : g.file.size ≤ kResumeGuardMaxBytes) :
    load (some g.file) =
      { g with suppressed := false, previousExit := g.lastExit, lastExit := none } := by
  obtain ⟨hprofile, hstrikes, harmed, harmedAt, hunstable⟩ := h
  have hstrikes' : max 0 (min g.strikes kStrikesToSuppress) = g.strikes := by omega
  have hunstable' : max 0 (min g.unstableBoots kResumeGuardMaxUnstableBoots) = g.unstableBoots := by
    omega
  have hroot := load_of_fits hfits (show g.root.version = _ from rfl) hprofile
  unfold file at hroot ⊢
  rw [hroot]
  simp only [root, hstrikes', hunstable']
  rcases Bool.eq_false_or_eq_true g.armed with hg | hg
  · simp [hg, harmed hg]
  · simp [hg, harmedAt hg]

end ResumeGuard

end Throned.Headless
