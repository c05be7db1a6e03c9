import Throned.Analysis.RefreshListing

/-!
# When a refresh leaves no orphans

A group whose listing fits its rows is refreshed.  Every answer of the database is allowed
but one: the id counter hands out ids that are in use nowhere.
-/

set_option autoImplicit false

namespace Throned.Subscription

open Throned.Library

/-- A group before a refresh. -/
structure StartsListed (s : GroupState) : Prop where
  nodup : s.profiles.Nodup
  listed : ∀ id, id ∈ s.profiles ↔ id ∈ s.rows
  ids : ∀ id ∈ s.rows, 0 ≤ id
  deleted : s.deleted = []

/-! ## The condition -/

/-- The members that outlive the clearing. -/
def survivors (input : RefreshInput) (db : RefreshDb) (s : GroupState) : List Int :=
  (s.profiles.filter fun id => id ∉ db.selectorIds).filter fun id =>
    !input.sub_clear || (input.keep_working && db.reads .working id && input.isWorking id) ||
      decide (Running input db .clear id)

/-- Whether the refresh gets past the checks and the clearing. -/
def goesOn (input : RefreshInput) (db : RefreshDb) (s : GroupState) : Bool :=
  !input.urlChanged && !input.arrivals.isEmpty && input.parseComplete &&
    (!input.sub_clear || db.deletes .clear ||
      (s.profiles.all fun id => decide (id ∈ db.selectorIds) || decide (id ∈ survivors input db s)))

/-- The import against the surviving members. -/
def importOf (input : RefreshInput) (db : RefreshDb) (members : List Int) : ImportSink :=
  ImportSink.importAll db.inserts (some (.ofOld (members.map (oldEntry input)))) input.arrivals

/-- The plan against the surviving members. -/
def planOf (input : RefreshInput) (db : RefreshDb) (members : List Int) : ReconcilePlan :=
  let sink := importOf input db members
  reconcile (members.map (oldEntry input)) sink.entries (sink.index.getD (.ofOld []))

/-- The members that `keep_working` keeps. -/
def workingOf (input : RefreshInput) (members : List Int) : List Int :=
  if input.keep_working then members.filter input.isWorking else []

/-- **What the database has to get right.** -/
structure KeepsRowsListed (input : RefreshInput) (db : RefreshDb) (s : GroupState) : Prop where
  /-- The read of the old members misses none. -/
  read : ∀ id ∈ survivors input db s, db.reads .old id = true
  /-- An inserted row that stays reached the table. -/
  written : ∀ id ∈ insertedIds (importOf input db (survivors input db s)).entries,
    id ∉ (planOf input db (survivors input db s)).stale ∨ Running input db .stale id →
      db.written id = true
  /-- The stale rows are deleted, unless none is to be. -/
  deleted : db.deletes .stale = true ∨ ∀ id ∈ (planOf input db (survivors input db s)).stale,
    id ∈ survivors input db s ∨ db.written id = true →
      Spared input db (workingOf input (survivors input db s)) id

/-! ## Up to the diff -/

/-- The state a refresh compares the document with. -/
structure Diffing (input : RefreshInput) (db : RefreshDb) (s : GroupState) (sticky : List (ℕ × Int))
    (s₁ : GroupState) : Prop where
  nodup : s₁.profiles.Nodup
  members : (members sticky s₁).filter (fun id => id ∈ s₁.rows) = survivors input db s
  stickyNodup : (sticky.map Prod.snd).Nodup
  stickyRows : ∀ id ∈ sticky.map Prod.snd, id ∈ s₁.rows ∧ id ∉ survivors input db s
  listed : ∀ id ∈ s₁.rows, id ∈ s₁.profiles
  rows : ∀ id ∈ s₁.profiles, id ∉ s₁.deleted → id ∈ s₁.rows
  used : ∀ id, id ∈ s₁.rows ∨ id ∈ s₁.profiles ∨ id ∈ s₁.deleted → id ∈ s.rows
  alive : ∀ id ∈ s₁.rows, id ∉ s₁.deleted

section Clear

variable {input : RefreshInput} {db : RefreshDb} {s : GroupState}

theorem map_snd_stickyOf (db : RefreshDb) (s : GroupState) :
    (stickyOf db s).map Prod.snd = s.profiles.filter fun id => id ∈ db.selectorIds := by
  unfold stickyOf
  rw [List.map_map, show Prod.snd ∘ (Prod.swap : Int × ℕ → ℕ × Int) = Prod.fst from rfl]
  conv_rhs => rw [← List.zipIdx_map_fst 0 s.profiles, List.filter_map]
  rfl

theorem members_stickyOf (db : RefreshDb) (s : GroupState) :
    members (stickyOf db s) s = s.profiles.filter fun id => id ∉ db.selectorIds := by
  unfold members
  rw [map_snd_stickyOf]
  apply List.filter_congr
  intro id hid
  rw [decide_eq_decide, List.mem_filter, decide_eq_true_eq, and_iff_right hid]

/-- What happens to the members when the servers are cleared. -/
theorem mem_trimmed_doomed (hstart : StartsListed s) (hclear : input.sub_clear = true) {id : Int} :
    id ∈ trimmed input db .clear (doomedMembers input db (stickyOf db s) s) ↔
      id ∈ s.profiles ∧ id ∉ db.selectorIds ∧ id ∉ survivors input db s := by
  have hdoomed : id ∈ doomedMembers input db (stickyOf db s) s ↔
      (id ∈ s.profiles ∧ id ∉ db.selectorIds) ∧
        ¬(input.keep_working = true ∧ db.reads .working id = true ∧ input.isWorking id = true) := by
    unfold doomedMembers
    rw [members_stickyOf]
    cases hkeep : input.keep_working with
    | false => simp
    | true =>
      simp only [↓reduceIte, List.mem_filter, forEachProfile, Bool.and_eq_true, decide_eq_true_eq,
        true_and]
      constructor
      · rintro ⟨hmem, hnot⟩
        exact ⟨hmem, fun h => hnot ⟨⟨hmem, h.1, (hstart.listed id).mp hmem.1⟩, h.2⟩⟩
      · rintro ⟨hmem, hnot⟩
        exact ⟨hmem, fun h => hnot ⟨h.1.2.1, h.2⟩⟩
  rw [mem_trimmed, hdoomed]
  unfold survivors
  simp only [hclear, List.mem_filter, decide_eq_true_eq, Bool.not_true, Bool.false_or,
    Bool.or_eq_true, Bool.and_eq_true, and_assoc]
  unfold Running
  tauto

theorem survivors_of_keep (hclear : input.sub_clear = false) :
    survivors input db s = s.profiles.filter fun id => id ∉ db.selectorIds := by
  unfold survivors
  rw [hclear]
  simp

theorem mem_survivors {id : Int} (hid : id ∈ survivors input db s) :
    id ∈ s.profiles ∧ id ∉ db.selectorIds := by
  have hmem := (List.mem_filter.mp hid).1
  rwa [List.mem_filter, decide_eq_true_eq] at hmem

theorem nodup_sticky (hstart : StartsListed s) : ((stickyOf db s).map Prod.snd).Nodup := by
  rw [map_snd_stickyOf]
  exact hstart.nodup.filter _

theorem sticky_not_survivor {id : Int} (hid : id ∈ (stickyOf db s).map Prod.snd) :
    id ∈ s.profiles ∧ id ∉ survivors input db s := by
  rw [map_snd_stickyOf, List.mem_filter, decide_eq_true_eq] at hid
  exact ⟨hid.1, fun hmem => (mem_survivors hmem).2 hid.2⟩

/-- Nothing is cleared. -/
theorem diffing_of_keep (hstart : StartsListed s) (hclear : input.sub_clear = false) :
    Diffing input db s (stickyOf db s) s where
  nodup := hstart.nodup
  members := by
    rw [members_stickyOf, survivors_of_keep hclear, List.filter_eq_self]
    intro id hid
    exact decide_eq_true ((hstart.listed id).mp (List.mem_filter.mp hid).1)
  stickyNodup := nodup_sticky hstart
  stickyRows id hid :=
    ⟨(hstart.listed id).mp (@sticky_not_survivor input _ _ _ hid).1, (sticky_not_survivor hid).2⟩
  listed id hid := (hstart.listed id).mpr hid
  rows id hid _ := (hstart.listed id).mp hid
  used := by
    rintro id (hid | hid | hid)
    · exact hid
    · exact (hstart.listed id).mp hid
    · rw [hstart.deleted] at hid
      cases hid
  alive id _ := by
    rw [hstart.deleted]
    exact List.not_mem_nil

/-- The servers are cleared. -/
theorem diffing_of_clear (hstart : StartsListed s) (hclear : input.sub_clear = true)
    {s₁ : GroupState}
    (hremoved : Removed (trimmed input db .clear (doomedMembers input db (stickyOf db s) s)) s s₁) :
    Diffing input db s (stickyOf db s) s₁ := by
  have hdoomed := fun id => @mem_trimmed_doomed _ db _ hstart hclear id
  have hrows : ∀ id, id ∈ s₁.rows ↔ id ∈ s.rows ∧
      (id ∈ db.selectorIds ∨ id ∈ survivors input db s) := by
    intro id
    rw [hremoved.rows, List.mem_filter, decide_eq_true_eq, hdoomed, ← hstart.listed]
    tauto
  have hdeleted : ∀ id, id ∈ s₁.deleted ↔ id ∈ s.rows ∧ id ∉ db.selectorIds ∧
      id ∉ survivors input db s := by
    intro id
    rw [hremoved.deleted, hstart.deleted, List.nil_append, List.mem_filter, decide_eq_true_eq,
      hdoomed, ← hstart.listed]
    tauto
  have hprofiles : ∀ id, (id ∈ s₁.rows → id ∈ s₁.profiles) ∧ (id ∈ s₁.profiles → id ∈ s.profiles) := by
    intro id
    rcases hremoved.profiles with hsame | hfilter
    · rw [hsame, hrows, ← hstart.listed]
      exact ⟨And.left, fun h => h⟩
    · rw [hfilter, List.mem_filter, decide_eq_true_eq, hdoomed, hrows, ← hstart.listed]
      tauto
  have hnodup : s₁.profiles.Nodup := by
    rcases hremoved.profiles with hsame | hfilter
    · rw [hsame]
      exact hstart.nodup
    · rw [hfilter]
      exact hstart.nodup.filter _
  refine ⟨hnodup, ?_, nodup_sticky hstart, ?_, fun id => (hprofiles id).1, ?_, ?_, ?_⟩
  · have hkept : ∀ profiles : List Int, (∀ id ∈ profiles, id ∈ s.profiles) →
        ((profiles.filter fun id => id ∉ (stickyOf db s).map Prod.snd).filter fun id => id ∈ s₁.rows) =
          profiles.filter fun id => id ∈ survivors input db s := by
      intro profiles hsub
      rw [List.filter_filter]
      apply List.filter_congr
      intro id hid
      rw [← Bool.decide_and, decide_eq_decide, hrows, ← hstart.listed, map_snd_stickyOf,
        List.mem_filter, decide_eq_true_eq]
      have := hsub id hid
      have hsurvivor := fun h : id ∈ survivors input db s => (mem_survivors h).2
      tauto
    unfold members
    rw [hkept _ fun id => (hprofiles id).2]
    have hself : s.profiles.filter (fun id => id ∈ survivors input db s) = survivors input db s := by
      conv_rhs => unfold survivors
      rw [List.filter_filter]
      apply List.filter_congr
      intro id hid
      rw [Bool.eq_iff_iff, decide_eq_true_eq]
      unfold survivors
      rw [List.mem_filter, List.mem_filter, and_assoc, and_iff_right hid, Bool.and_eq_true, and_comm]
    rcases hremoved.profiles with hsame | hfilter
    · rw [hsame, hself]
    · rw [hfilter, List.filter_filter, ← hself]
      apply List.filter_congr
      intro id hid
      rw [← Bool.decide_and, decide_eq_decide, hself, hdoomed]
      tauto
  · intro id hid
    obtain ⟨hmem, hnot⟩ := @sticky_not_survivor input _ _ _ hid
    rw [map_snd_stickyOf, List.mem_filter, decide_eq_true_eq] at hid
    exact ⟨(hrows id).mpr ⟨(hstart.listed id).mp hmem, .inl hid.2⟩, hnot⟩
  · intro id hid hnot
    have hrow := (hstart.listed id).mp ((hprofiles id).2 hid)
    rw [hdeleted] at hnot
    rw [hrows]
    tauto
  · rintro id (hid | hid | hid)
    · exact ((hrows id).mp hid).1
    · exact (hstart.listed id).mp ((hprofiles id).2 hid)
    · exact ((hdeleted id).mp hid).1
  · intro id hid hgone
    rw [hrows] at hid
    rw [hdeleted] at hgone
    tauto

end Clear

end Throned.Subscription
