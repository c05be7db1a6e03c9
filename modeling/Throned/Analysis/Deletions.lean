import Throned.Analysis.GroupSteps

/-!
# Deleted rows stay deleted

Over any interleaving of the calls a deleted profile does not come back and no profile
outlives its group, as long as every step is regular.
-/

set_option autoImplicit false

namespace Throned.Database

open Throned.Library

/-- The runs in which every step is regular: the counters answer, and no row is deleted that
the lookup of its call has missed. -/
def regularRepos : System Repos where
  init := Repos.Opened
  step s t := ∃ event : Repos.Event, event.Regular s ∧ t = s.step event

/-- **Whatever happens after a deletion, the row is not back, and no profile is in a deleted
group.** -/
def DeletionsLast (S : System Repos) : Prop :=
  ∀ s t u, S.Reachable s → Relation.ReflTransGen S.step s t → Relation.ReflTransGen S.step t u →
    (∀ id, (s.profileRows id).isSome → t.profileRows id = none → u.profileRows id = none) ∧
    ∀ gid, (s.groupRows gid).isSome → t.groupRows gid = none →
      ∀ id, u.profileRows id ≠ some gid

namespace Repos

variable {s t u : Repos}

theorem orderly_opened (h : Opened s) : ProfileSide.Orderly s.profileSide := by
  have hcalls : s.profileSide.calls = [] := h.calls
  have hnone : ∀ id, ¬ s.profileSide.reserved id := by
    rintro id ⟨c, hc, -⟩
    rw [hcalls] at hc
    cases hc
  have hobject : ∀ profile p, s.profileSide.object profile ≠ some p := by
    intro profile p hp
    rw [ProfileSide.object, show s.profileSide.profiles = [] from h.profiles] at hp
    cases hp
  refine ⟨h.counted, fun id hid => ⟨h.numbered id hid, hnone id⟩,
    fun profile p hp => absurd hp (hobject profile p), fun id hid => absurd hid (hnone id), ?_,
    fun _ _ profile p _ hp => absurd hp (hobject profile p),
    fun profile _ _ p hp => absurd hp (hobject profile p), ?_, ?_, ?_⟩
  · intro j k c d id hj
    rw [hcalls] at hj
    cases hj
  · intro j k c d profile hj
    rw [hcalls] at hj
    cases hj
  · intro c hc
    rw [hcalls] at hc
    cases hc
  · intro c hc
    rw [hcalls] at hc
    cases hc

theorem grouped_opened (h : Opened s) : Grouped s := by
  refine ⟨h.grouped, h.groupsNumbered, ?_⟩
  rw [h.groups]
  nofun

/-- What holds in the reachable states of the regular runs. -/
theorem invariant_of_reachable (h : regularRepos.Reachable s) :
    ProfileSide.Orderly s.profileSide ∧ Grouped s := by
  refine System.Reachable.invariant
    (fun s (hs : Opened s) => And.intro (orderly_opened hs) (grouped_opened hs)) ?_ h
  rintro s t - ⟨horderly, hgrouped⟩ ⟨event, hregular, rfl⟩
  exact ⟨(follows_step horderly hregular).orderly, (groups_step hgrouped hregular).1⟩

/-- What a regular run does to the ids and to the groups. -/
theorem advances_of_run (hs : regularRepos.Reachable s)
    (hrun : Relation.ReflTransGen regularRepos.step s t) :
    ProfileSide.Advances s.profileSide t.profileSide ∧ GroupsAdvance s t := by
  induction hrun with
  | refl => exact ⟨ProfileSide.Advances.refl _, (GroupsGrow.refl s).advance⟩
  | tail hrun hstep ih =>
    obtain ⟨event, hregular, rfl⟩ := hstep
    obtain ⟨horderly, hgrouped⟩ := invariant_of_reachable (hs.run hrun)
    exact ⟨ih.1.trans (follows_step horderly hregular).advances,
      ih.2.trans (groups_step hgrouped hregular).2⟩

/-- A deleted group, as long as its tombstone tells. -/
def GroupGone (s : Repos) (gid : Int) : Prop :=
  gid ≤ s.group_last_id ∧ s.groupTombstones gid = true ∧ s.groupRows gid = none

theorem GroupGone.advance {gid : Int} (h : s.GroupGone gid) (hst : GroupsAdvance s t) :
    t.GroupGone gid := by
  obtain ⟨hle, htomb, hrow⟩ := h
  refine ⟨hle.trans hst.last, hst.tombstones gid htomb, ?_⟩
  rw [← Option.not_isSome_iff_eq_none]
  intro hsome
  rcases hst.written gid hsome with hold | hfalse | hlt
  · rw [hrow] at hold
    cases hold
  · rw [htomb] at hfalse
    cases hfalse
  · exact absurd hle (not_le.mpr hlt)

end Repos

/-- **In the regular runs deletions last.** -/
theorem deletionsLast_regularRepos {s t u : Repos} (hs : regularRepos.Reachable s)
    (hst : Relation.ReflTransGen regularRepos.step s t)
    (htu : Relation.ReflTransGen regularRepos.step t u) :
    (∀ id, (s.profileRows id).isSome → t.profileRows id = none → u.profileRows id = none) ∧
      ∀ gid, (s.groupRows gid).isSome → t.groupRows gid = none →
        ∀ id, u.profileRows id ≠ some gid := by
  have ht : regularRepos.Reachable t := hs.run hst
  have hu : regularRepos.Reachable u := ht.run htu
  obtain ⟨hids, hgroups⟩ := Repos.advances_of_run hs hst
  obtain ⟨hids', hgroups'⟩ := Repos.advances_of_run ht htu
  obtain ⟨horderly, hgrouped⟩ := Repos.invariant_of_reachable hs
  constructor
  · intro id hrow hnone
    rcases horderly.row_or_gone hrow hids with hstill | hgone
    · rw [show t.profileSide.rows id = none from hnone] at hstill
      cases hstill
    · exact (hgone.advance hids').2.2
  · intro gid hrow hnone id hid
    have hgone : t.GroupGone gid := by
      refine ⟨(hgrouped.numbered gid hrow).trans hgroups.last, ?_, hnone⟩
      rcases hgroups.deleted gid hrow with hstill | htomb
      · rw [hnone] at hstill
        cases hstill
      · exact htomb
    have hsome := (Repos.invariant_of_reachable hu).2.grouped id gid hid
    rw [(hgone.advance hgroups').2.2] at hsome
    cases hsome

namespace Repos

/-- A database with one profile in one group. -/
def oneProfile : Repos :=
  { profileRows := fun id => if id = 1 then some 0 else none
    groupRows := fun gid => if gid = 0 then some [1] else none
    profile_last_id := 1
    group_last_id := 0
    identityMap := fun _ => none
    tombstones := fun _ => false
    memMap := fun _ => none
    groupTombstones := fun _ => false
    profiles := []
    groups := []
    calls := [] }

theorem opened_oneProfile : Opened oneProfile := by
  refine ⟨?_, ?_, ?_, by decide, rfl, rfl, rfl, rfl, rfl, rfl, rfl⟩
  · intro id gid h
    simp only [oneProfile] at h ⊢
    split at h
    · rw [← Option.some.inj h]
      rfl
    · cases h
  · intro id h
    simp only [oneProfile] at h ⊢
    split at h
    · omega
    · cases h
  · intro gid h
    simp only [oneProfile] at h ⊢
    split at h
    · omega
    · cases h

/-- `BatchDeleteProfiles` of the profile, after another thread has got it. -/
def regularDeletion : List Event :=
  [.getProfile 1 .allOk, .batchDeleteProfiles [1] true (-1), .advance 0 .allOk, .advance 0 .allOk]

/-- The events are regular where they happen. -/
def RegularFrom : Repos → List Event → Prop
  | _, [] => True
  | s, event :: events => event.Regular s ∧ RegularFrom (s.step event) events

theorem run_regular {s : Repos} {events : List Event} (h : RegularFrom s events) :
    Relation.ReflTransGen regularRepos.step s (events.foldl step s) := by
  induction events generalizing s with
  | nil => exact .refl
  | cons event events ih => exact .head ⟨event, h.1, rfl⟩ (ih h.2)

theorem regularFrom_regularDeletion : RegularFrom oneProfile regularDeletion := by
  refine ⟨trivial, trivial, ?_, ?_, trivial⟩
  · intro call hcall
    cases hcall
    exact trivial
  · intro call hcall
    cases hcall
    exact fun _ id hid _ => hid

/-- The other thread's save does not bring the row back. -/
theorem deletionsLast_regularRepos_deleted :
    ((regularDeletion ++ [Event.save 0 true]).foldl step oneProfile).profileRows 1 = none := by
  rw [List.foldl_append]
  exact (deletionsLast_regularRepos (System.Reachable.init opened_oneProfile)
    (run_regular regularFrom_regularDeletion)
    (run_regular (show RegularFrom _ [Event.save 0 true] from ⟨trivial, trivial⟩))).1 1 rfl rfl

/-- `BatchDeleteProfiles` of the profile: its read fails, and before it deletes the row another
thread gets the profile. -/
def missedDeletion : List Event :=
  [.batchDeleteProfiles [1] true (-1), .advance 0 { reads := fun _ => false, writes := fun _ => true },
    .getProfile 1 .allOk, .advance 0 .allOk]

theorem run_foldl (s : Repos) (events : List Event) :
    Relation.ReflTransGen repos.step s (events.foldl step s) := by
  induction events generalizing s with
  | nil => exact .refl
  | cons event events ih => exact .head ⟨event, rfl⟩ (ih _)

end Repos

open Repos in
/-- The other thread then saves the profile, and the deleted row is back. -/
theorem not_deletionsLast_missed : ¬ DeletionsLast repos := by
  intro h
  have hrow := (h oneProfile (missedDeletion.foldl step oneProfile)
    ([.save 0 true].foldl step (missedDeletion.foldl step oneProfile))
    (System.Reachable.init opened_oneProfile) (run_foldl _ _) (run_foldl _ _)).1 1 rfl rfl
  cases hrow

end Throned.Database
