import Mathlib.Data.List.InsertIdx
import Throned.Model.Refresh

/-!
# The steps of a refresh

What each operation does to the rows and to the listing of the group.
-/

set_option autoImplicit false

namespace Throned.Subscription

/-! ## Lists -/

theorem mem_addProfileBatch {id : Int} (added : List Int) : ∀ profiles : List Int,
    id ∈ addProfileBatch profiles added ↔ id ∈ profiles ∨ id ∈ added := by
  unfold addProfileBatch
  induction added with
  | nil => simp
  | cons new added ih =>
    intro profiles
    rw [List.foldl_cons, ih, List.mem_cons]
    split
    · rename_i hmem
      constructor
      · exact fun h => h.imp_right .inr
      · rintro (h | rfl | h)
        · exact .inl h
        · exact .inl hmem
        · exact .inr h
    · rw [List.mem_append, List.mem_singleton, or_assoc]

theorem nodup_addProfileBatch (added : List Int) : ∀ profiles : List Int,
    profiles.Nodup → (addProfileBatch profiles added).Nodup := by
  unfold addProfileBatch
  induction added with
  | nil => exact fun _ h => h
  | cons new added ih =>
    intro profiles h
    rw [List.foldl_cons]
    apply ih
    split
    · exact h
    · rename_i hnew
      exact h.append (List.nodup_singleton _) (by simpa using hnew)

theorem perm_insertSticky (profiles : List Int) (x : ℕ × Int) :
    (insertSticky profiles x).Perm (x.2 :: profiles) :=
  List.perm_insertIdx _ _ (Nat.min_le_right _ _)

theorem perm_foldl_insertSticky (sticky : List (ℕ × Int)) : ∀ profiles : List Int,
    (sticky.foldl insertSticky profiles).Perm (sticky.map Prod.snd ++ profiles) := by
  induction sticky with
  | nil => exact fun _ => List.Perm.refl _
  | cons x sticky ih =>
    intro profiles
    rw [List.foldl_cons, List.map_cons]
    refine (ih _).trans (((perm_insertSticky profiles x).append_left _).trans ?_)
    exact List.perm_middle

theorem perm_restore (previousOrder : List Int) {profiles : List Int} {id : Int}
    (h : id ∉ profiles) : (restore previousOrder profiles id).Perm (id :: profiles) := by
  unfold restore
  rw [if_neg h]
  cases previousOrder.idxOf? id with
  | none => exact List.perm_insertIdx _ _ (Nat.le_refl _)
  | some position => exact List.perm_insertIdx _ _ (Nat.min_le_right _ _)

theorem mem_foldl_restore (previousOrder ids : List Int) {id : Int} : ∀ profiles : List Int,
    id ∈ ids.foldl (restore previousOrder) profiles ↔ id ∈ profiles ∨ id ∈ ids := by
  induction ids with
  | nil => simp
  | cons kept ids ih =>
    intro profiles
    rw [List.foldl_cons, ih, List.mem_cons]
    by_cases hmem : kept ∈ profiles
    · have hsame : restore previousOrder profiles kept = profiles := if_pos hmem
      rw [hsame]
      constructor
      · exact fun h => h.imp_right .inr
      · rintro (h | rfl | h)
        · exact .inl h
        · exact .inl hmem
        · exact .inr h
    · rw [(perm_restore previousOrder hmem).mem_iff, List.mem_cons]
      constructor
      · rintro ((rfl | h) | h)
        · exact .inr (.inl rfl)
        · exact .inl h
        · exact .inr (.inr h)
      · rintro (h | rfl | h)
        · exact .inl (.inr h)
        · exact .inl (.inl rfl)
        · exact .inr h

theorem nodup_foldl_restore (previousOrder ids : List Int) : ∀ profiles : List Int,
    profiles.Nodup → (ids.foldl (restore previousOrder) profiles).Nodup := by
  induction ids with
  | nil => exact fun _ h => h
  | cons kept ids ih =>
    intro profiles h
    rw [List.foldl_cons]
    apply ih
    by_cases hmem : kept ∈ profiles
    · rwa [show restore previousOrder profiles kept = profiles from if_pos hmem]
    · rw [(perm_restore previousOrder hmem).nodup_iff]
      exact List.nodup_cons.mpr ⟨hmem, h⟩

/-! ## Deleting -/

/-- The rows with some ids are gone, and perhaps their places in the listing. -/
structure Removed (ids : List Int) (s s' : GroupState) : Prop where
  rows : s'.rows = s.rows.filter fun id => id ∉ ids
  profiles : s'.profiles = s.profiles ∨ s'.profiles = s.profiles.filter fun id => id ∉ ids
  deleted : s'.deleted = s.deleted ++ s.rows.filter fun id => id ∈ ids

theorem Removed.nil (s : GroupState) : Removed [] s s :=
  ⟨by simp, .inl rfl, by simp⟩

theorem mem_trimmed {input : RefreshInput} {db : RefreshDb} {call : DeleteCall} {ids : List Int}
    {id : Int} : id ∈ trimmed input db call ids ↔
      id ∈ ids ∧ ¬(id = db.started_id call ∧ input.allow_stopping_active_profile = false) := by
  unfold trimmed
  split
  · rename_i h
    rw [List.mem_filter, decide_eq_true_eq]
    constructor
    · exact fun hmem => ⟨hmem.1, fun hrunning => hmem.2 hrunning.1⟩
    · exact fun hmem => ⟨hmem.1, fun heq => hmem.2 ⟨heq, h.2⟩⟩
  · rename_i h
    constructor
    · exact fun hmem => ⟨hmem, fun hrunning => h ⟨hrunning.1 ▸ hmem, hrunning.2⟩⟩
    · exact fun hmem => hmem.1

/-- What a delete that fails leaves, and what one that succeeds does. -/
structure DeleteSpec (db : RefreshDb) (call : DeleteCall) (handed : List Int) (ids : List Int)
    (s : GroupState) (r : DeleteOutcome × GroupState) : Prop where
  deleted : r.1.deleted = handed
  kept : ∀ id, id ∈ r.1.kept ↔ id ∈ ids ∧ id ∉ handed
  ok : r.1.ok = true ↔ db.deletes call = true ∨ handed = []
  removed : r.1.ok = true → Removed handed s r.2
  failed : r.1.ok = false → r.2 = s

/-- **A delete removes all the rows it was handed or nothing.** -/
theorem deleteProfiles_spec (input : RefreshInput) (db : RefreshDb) (call : DeleteCall)
    (ids : List Int) (s : GroupState) :
    DeleteSpec db call (trimmed input db call ids) ids s (deleteProfiles input db call ids s) := by
  have hkept : ∀ id, (id ∈ ids.filter fun id => id ∉ trimmed input db call ids) ↔
      id ∈ ids ∧ id ∉ trimmed input db call ids := by
    intro id
    rw [List.mem_filter, decide_eq_true_eq]
  unfold deleteProfiles BatchDeleteProfiles
  by_cases hnil : trimmed input db call ids = []
  · rw [if_pos hnil]
    refine ⟨rfl, hkept, by simp [hnil], fun _ => ?_, nofun⟩
    rw [hnil]
    exact Removed.nil s
  · rw [if_neg hnil]
    cases hdeletes : db.deletes call with
    | false => exact ⟨rfl, hkept, by simp [hdeletes, hnil], nofun, fun _ => rfl⟩
    | true =>
      refine ⟨rfl, hkept, by simp [hdeletes], fun _ => ⟨rfl, ?_, rfl⟩, nofun⟩
      simp only [Bool.true_eq_false, ↓reduceIte]
      split
      · exact .inl rfl
      · exact .inr rfl

/-! ## The listing against the rows -/

/-- Every row is listed once, and what is listed is a row or was deleted. -/
structure ListsRows (s : GroupState) : Prop where
  rows : ∀ id ∈ s.rows, s.profiles.count id = 1
  listed : ∀ id ∈ s.profiles, id ∉ s.deleted → id ∈ s.rows

theorem listsRows_iff {s : GroupState} (hnodup : s.profiles.Nodup) :
    ListsRows s ↔ (∀ id ∈ s.rows, id ∈ s.profiles) ∧
      ∀ id ∈ s.profiles, id ∉ s.deleted → id ∈ s.rows := by
  constructor
  · intro h
    refine ⟨fun id hid => ?_, h.listed⟩
    apply List.count_pos_iff.mp
    rw [h.rows id hid]
    exact Nat.one_pos
  · rintro ⟨hrows, hlisted⟩
    exact ⟨fun id hid => List.count_eq_one_of_mem hnodup (hrows id hid), hlisted⟩

/-- Deleting listed rows neither makes nor mends an orphan. -/
theorem Removed.listsRows_iff {ids : List Int} {s s' : GroupState} (h : Removed ids s s')
    (hnodup : s.profiles.Nodup) (hrows : ∀ id ∈ ids, id ∈ s.rows)
    (hlisted : ∀ id ∈ ids, id ∈ s.profiles) :
    s'.profiles.Nodup ∧ (ListsRows s' ↔ ListsRows s) := by
  have hnodup' : s'.profiles.Nodup := by
    rcases h.profiles with hsame | hfilter
    · rwa [hsame]
    · rw [hfilter]
      exact hnodup.filter _
  have hmem : ∀ id, id ∉ ids → (id ∈ s'.profiles ↔ id ∈ s.profiles) := by
    intro id hid
    rcases h.profiles with hsame | hfilter
    · rw [hsame]
    · rw [hfilter, List.mem_filter, decide_eq_true_eq, and_iff_left hid]
  have hsub : ∀ id ∈ s'.profiles, id ∈ s.profiles := by
    intro id hid
    rcases h.profiles with hsame | hfilter
    · rwa [hsame] at hid
    · rw [hfilter] at hid
      exact (List.mem_filter.mp hid).1
  have hrow : ∀ id, id ∈ s'.rows ↔ id ∈ s.rows ∧ id ∉ ids := by
    intro id
    rw [h.rows, List.mem_filter, decide_eq_true_eq]
  have hdeleted : ∀ id, id ∈ s'.deleted ↔ id ∈ s.deleted ∨ id ∈ ids := by
    intro id
    rw [h.deleted, List.mem_append, List.mem_filter, decide_eq_true_eq]
    constructor
    · exact fun hid => hid.imp_right And.right
    · exact fun hid => hid.imp_right fun hin => ⟨hrows id hin, hin⟩
  refine ⟨hnodup', ?_⟩
  rw [Throned.Subscription.listsRows_iff hnodup', Throned.Subscription.listsRows_iff hnodup]
  constructor
  · rintro ⟨hall, hlist⟩
    constructor
    · intro id hid
      by_cases hin : id ∈ ids
      · exact hlisted id hin
      · exact (hmem id hin).mp (hall id ((hrow id).mpr ⟨hid, hin⟩))
    · intro id hid hnot
      by_cases hin : id ∈ ids
      · exact hrows id hin
      · refine ((hrow id).mp (hlist id ((hmem id hin).mpr hid) ?_)).1
        rw [hdeleted]
        exact fun hor => hor.elim hnot hin
  · rintro ⟨hall, hlist⟩
    constructor
    · intro id hid
      obtain ⟨hid, hin⟩ := (hrow id).mp hid
      exact (hmem id hin).mpr (hall id hid)
    · intro id hid hnot
      rw [hdeleted, not_or] at hnot
      exact (hrow id).mpr ⟨hlist id (hsub id hid) hnot.1, hnot.2⟩

theorem listsRows_resort (input : RefreshInput) (s : GroupState) :
    ListsRows (s.Resort input) ↔ ListsRows s := by
  have hperm : (s.Resort input).profiles.Perm s.profiles := by
    unfold GroupState.Resort
    split
    · exact List.mergeSort_perm _ _
    · exact List.Perm.refl _
  have hrows : (s.Resort input).rows = s.rows ∧ (s.Resort input).deleted = s.deleted := by
    unfold GroupState.Resort
    split <;> exact ⟨rfl, rfl⟩
  constructor
  · intro h
    refine ⟨fun id hid => ?_, fun id hid hnot => ?_⟩
    · rw [← hperm.count_eq]
      exact h.rows id (hrows.1 ▸ hid)
    · rw [← hrows.1]
      exact h.listed id (hperm.mem_iff.mpr hid) (hrows.2 ▸ hnot)
  · intro h
    refine ⟨fun id hid => ?_, fun id hid hnot => ?_⟩
    · rw [hperm.count_eq]
      exact h.rows id (hrows.1 ▸ hid)
    · rw [hrows.1]
      exact h.listed id (hperm.mem_iff.mp hid) (hrows.2 ▸ hnot)

/-- **The end of a refresh keeps the listing as good as it was.** -/
theorem listsRows_finishRefresh (input : RefreshInput) (db : RefreshDb) (sticky : List (ℕ × Int))
    (progress : RefreshProgress) {s : GroupState} (hnodup : s.profiles.Nodup) :
    ListsRows (finishRefresh input db sticky progress s).2 ↔ ListsRows s := by
  unfold finishRefresh removeFlagged
  simp only
  rw [listsRows_resort]
  split
  · rfl
  · generalize hdoomed : (forEachProfile db .flagged s (members sticky s)).filter input.flags = doomed
    have hspec := deleteProfiles_spec input db .flagged doomed s
    have hread : ∀ id ∈ doomed, id ∈ s.profiles ∧ id ∈ s.rows := by
      intro id hid
      rw [← hdoomed] at hid
      have hread := (List.mem_filter.mp hid).1
      unfold forEachProfile members at hread
      obtain ⟨hmember, hrow⟩ := List.mem_filter.mp hread
      rw [Bool.and_eq_true, decide_eq_true_eq] at hrow
      exact ⟨(List.mem_filter.mp hmember).1, hrow.2⟩
    cases hok : (deleteProfiles input db .flagged doomed s).1.ok with
    | false => rw [hspec.failed hok]
    | true =>
      refine ((hspec.removed hok).listsRows_iff hnodup ?_ ?_).2
      · exact fun id hid => (hread id (mem_trimmed.mp hid).1).2
      · exact fun id hid => (hread id (mem_trimmed.mp hid).1).1

end Throned.Subscription
