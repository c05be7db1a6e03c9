import Throned.Analysis.ImportIds
import Throned.Analysis.PlanSoundness
import Throned.Analysis.RefreshSteps

/-!
# The listing a refresh leaves

A refresh replaces the listing by the order of the plan and only then deletes what is
stale.  So the listing fits the rows at the end exactly if the old members were all read,
the inserted rows that stay were all written, and the delete did not fail.
-/

set_option autoImplicit false

namespace Throned.Subscription

open Throned.Library

/-- The running profile that a delete leaves alone. -/
def Running (input : RefreshInput) (db : RefreshDb) (call : DeleteCall) (id : Int) : Prop :=
  id = db.started_id call ∧ input.allow_stopping_active_profile = false

instance (input : RefreshInput) (db : RefreshDb) (call : DeleteCall) (id : Int) :
    Decidable (Running input db call id) := by
  unfold Running
  infer_instance

/-! ## Applying a plan -/

/-- A stale id that is not deleted. -/
def Spared (input : RefreshInput) (db : RefreshDb) (working : List Int) (id : Int) : Prop :=
  id ∈ working ∨ Running input db .stale id

theorem mem_trimmed_stale {input : RefreshInput} {db : RefreshDb} {working stale : List Int}
    {id : Int} : id ∈ trimmed input db .stale (stale.filter fun id => id ∉ working) ↔
      id ∈ stale ∧ ¬Spared input db working id := by
  rw [mem_trimmed, List.mem_filter, decide_eq_true_eq, and_assoc, Spared, not_or]
  rfl

/-- The listing, the rows and the deleted ids once a plan has been applied. -/
structure Applied (input : RefreshInput) (db : RefreshDb) (stickyIds working : List Int)
    (plan : ReconcilePlan) (s s' : GroupState) : Prop where
  nodup : s'.profiles.Nodup
  profiles : ∀ id, id ∈ s'.profiles ↔ id ∈ plan.order ∨ id ∈ stickyIds ∨
    (id ∈ plan.stale ∧ Spared input db working id)
  rows : ∀ id, id ∈ s'.rows ↔ id ∈ s.rows ∧
    ¬(db.deletes .stale = true ∧ id ∈ plan.stale ∧ ¬Spared input db working id)
  deleted : ∀ id, id ∈ s'.deleted ↔ id ∈ s.deleted ∨
    (id ∈ s.rows ∧ db.deletes .stale = true ∧ id ∈ plan.stale ∧ ¬Spared input db working id)

/-- **What applying a plan does.** -/
theorem applyPlan_spec (input : RefreshInput) (db : RefreshDb) (sticky : List (ℕ × Int))
    (result : UpdateOutcome) (old : List OldEntry) (working : List Int) (plan : ReconcilePlan)
    (s : GroupState) (horder : plan.order.Nodup) (hsticky : (sticky.map Prod.snd).Nodup)
    (hstale : ∀ id ∈ plan.order, id ∉ plan.stale)
    (hapart : ∀ id ∈ sticky.map Prod.snd, id ∉ plan.order ∧ id ∉ plan.stale) :
    Applied input db (sticky.map Prod.snd) working plan s
      (applyPlan input db sticky result old working plan s).2 := by
  generalize hlisted : sticky.foldl insertSticky plan.order = listed
  have hperm : listed.Perm (sticky.map Prod.snd ++ plan.order) := by
    rw [← hlisted]
    exact perm_foldl_insertSticky sticky plan.order
  have hlistedNodup : listed.Nodup := by
    rw [hperm.nodup_iff]
    exact hsticky.append horder fun id hid hid' => (hapart id hid).1 hid'
  have hmem : ∀ id, id ∈ listed ↔ id ∈ sticky.map Prod.snd ∨ id ∈ plan.order := by
    intro id
    rw [hperm.mem_iff, List.mem_append]
  generalize hstaleIds : plan.stale.filter (fun id => id ∉ working) = staleIds
  have hmemStale : ∀ id, id ∈ staleIds ↔ id ∈ plan.stale ∧ id ∉ working := by
    intro id
    rw [← hstaleIds, List.mem_filter, decide_eq_true_eq]
  have hspec := deleteProfiles_spec input db .stale staleIds { s with profiles := listed }
  have hhanded : ∀ id, id ∈ trimmed input db .stale staleIds ↔
      id ∈ plan.stale ∧ ¬Spared input db working id := by
    intro id
    rw [← hstaleIds, mem_trimmed_stale]
  have hkept : ∀ id, id ∈ (deleteProfiles input db .stale staleIds
      { s with profiles := listed }).1.kept ++ plan.stale.filter (fun id => id ∈ working) ↔
      id ∈ plan.stale ∧ Spared input db working id := by
    intro id
    rw [List.mem_append, hspec.kept, hmemStale, hhanded, List.mem_filter, decide_eq_true_eq, Spared]
    by_cases hworking : id ∈ working <;> by_cases hrunning : Running input db .stale id <;>
      simp [hworking, hrunning]
  -- the state after the delete, before the survivors are restored
  generalize hafter : deleteProfiles input db .stale staleIds { s with profiles := listed } = after
    at hspec hkept
  have hprofiles : after.2.profiles = listed := by
    cases hok : after.1.ok with
    | false => rw [hspec.failed hok]
    | true =>
      rcases (hspec.removed hok).profiles with hsame | hfilter
      · exact hsame
      · rw [hfilter, List.filter_eq_self]
        intro id hid
        rw [decide_eq_true_eq, hhanded]
        rcases (hmem id).mp hid with hsel | hord
        · exact fun hgone => (hapart id hsel).2 hgone.1
        · exact fun hgone => hstale id hord hgone.1
  have hgone : ∀ id, (after.1.ok = true ∧ id ∈ trimmed input db .stale staleIds) ↔
      (db.deletes .stale = true ∧ id ∈ plan.stale ∧ ¬Spared input db working id) := by
    intro id
    rw [hspec.ok, hhanded]
    constructor
    · rintro ⟨hdeletes | hnil, hid⟩
      · exact ⟨hdeletes, hid⟩
      · have hmemHanded := (hhanded id).mpr hid
        rw [hnil] at hmemHanded
        cases hmemHanded
    · exact fun ⟨hdeletes, hid⟩ => ⟨.inl hdeletes, hid⟩
  have hstate : (applyPlan input db sticky result old working plan s).2 =
      { after.2 with
        profiles := List.foldl (restore s.profiles) after.2.profiles
          (after.1.kept ++ plan.stale.filter fun id => id ∈ working) } := by
    unfold applyPlan
    simp only [hlisted, hstaleIds, hafter]
  rw [hstate]
  refine ⟨?_, fun id => ?_, fun id => ?_, fun id => ?_⟩
  · rw [hprofiles]
    exact nodup_foldl_restore _ _ _ hlistedNodup
  · rw [hprofiles, mem_foldl_restore, hmem, hkept, or_comm (a := id ∈ List.map _ _), or_assoc]
  · rw [← hgone]
    cases hok : after.1.ok with
    | false => simp [hspec.failed hok]
    | true => simp [(hspec.removed hok).rows]
  · rw [← hgone]
    cases hok : after.1.ok with
    | false => simp [hspec.failed hok]
    | true => simp [(hspec.removed hok).deleted]

/-- Which rows applying a plan leaves, whatever was listed. -/
theorem mem_rows_applyPlan (input : RefreshInput) (db : RefreshDb) (sticky : List (ℕ × Int))
    (result : UpdateOutcome) (old : List OldEntry) (working : List Int) (plan : ReconcilePlan)
    (s : GroupState) (id : Int) :
    id ∈ (applyPlan input db sticky result old working plan s).2.rows ↔ id ∈ s.rows ∧
      ¬(db.deletes .stale = true ∧ id ∈ plan.stale ∧ ¬Spared input db working id) := by
  generalize hafter : deleteProfiles input db .stale (plan.stale.filter fun id => id ∉ working)
    { s with profiles := sticky.foldl insertSticky plan.order } = after
  have hspec := deleteProfiles_spec input db .stale (plan.stale.filter fun id => id ∉ working)
    { s with profiles := sticky.foldl insertSticky plan.order }
  rw [hafter] at hspec
  have hstate : (applyPlan input db sticky result old working plan s).2.rows = after.2.rows := by
    unfold applyPlan
    simp only [hafter]
  have hgone : id ∈ plan.stale ∧ ¬Spared input db working id ↔
      id ∈ trimmed input db .stale (plan.stale.filter fun id => id ∉ working) :=
    mem_trimmed_stale.symm
  rw [hstate, hgone]
  cases hok : after.1.ok with
  | false =>
    have hdeletes : ¬(db.deletes .stale = true ∨ _) := fun hor => by
      have := hspec.ok.mpr hor
      rw [hok] at this
      cases this
    rw [hspec.failed hok]
    simp only [not_or] at hdeletes
    simp [hdeletes.1]
  | true =>
    rw [(hspec.removed hok).rows, List.mem_filter, decide_eq_true_eq]
    rcases hspec.ok.mp hok with hdeletes | hnil
    · simp [hdeletes]
    · rw [hnil]
      simp

end Throned.Subscription
