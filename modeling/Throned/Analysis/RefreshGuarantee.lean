import Throned.Analysis.RefreshOrphans

/-!
# Orphans after a refresh

The plan parts the members that were read, so a row can be lost from the listing in three
ways only: it was not read, it was inserted in the listing alone, or its delete failed.
-/

set_option autoImplicit false

namespace Throned.Subscription

open Throned.Library

/-! ## The diff -/

/-- The import and the plan over the members that were read. -/
structure Planned (input : RefreshInput) (db : RefreshDb) (read : List Int) (inserted : List Int)
    (plan : ReconcilePlan) : Prop where
  orderNodup : plan.order.Nodup
  orderNotStale : ∀ id ∈ plan.order, id ∉ plan.stale
  order : ∀ id ∈ plan.order, id ∈ read ∨ id ∈ inserted
  stale : ∀ id ∈ plan.stale, id ∈ read ∨ id ∈ inserted
  placed : ∀ id, id ∈ read ∨ id ∈ inserted → id ∈ plan.order ∨ id ∈ plan.stale

theorem map_id_oldEntry (input : RefreshInput) (ids : List Int) :
    (ids.map (oldEntry input)).map (·.id) = ids := by
  rw [List.map_map]
  exact List.map_id ids

section Diff

variable {input : RefreshInput} {db : RefreshDb} {s s₁ : GroupState} {sticky : List (ℕ × Int)}
  {read : List Int}

/-- **The plan over the members that were read.** -/
theorem planned_planOf (hread : read.Nodup) (hrows : ∀ id ∈ read, id ∈ s.rows)
    (hids : ∀ id ∈ s.rows, 0 ≤ id) (hfresh : FreshAnswers s.rows db.inserts) :
    ∃ index, (importOf input db read).index = some index ∧
      planOf input db read =
        reconcile (read.map (oldEntry input)) (importOf input db read).entries index ∧
      (importOf input db read).added = insertedIds (importOf input db read).entries ∧
      (importOf input db read).entries.length = input.arrivals.length ∧
      Planned input db read (insertedIds (importOf input db read).entries) (planOf input db read) := by
  have hold := map_id_oldEntry input read
  obtain ⟨index, hindex, himported⟩ :=
    importAll_spec (read.map (oldEntry input)) db.inserts input.arrivals
  have hfreshIds : FreshIds (read.map (oldEntry input)) (importOf input db read).entries := by
    apply himported.freshIds hfresh
    rw [hold]
    exact hrows
  have hplan : planOf input db read =
      reconcile (read.map (oldEntry input)) (importOf input db read).entries index := by
    unfold planOf
    simp only
    rw [show (importOf input db read).index = some index from hindex]
    rfl
  refine ⟨index, hindex, hplan, ?_, himported.indexed.records.length_eq.symm, ?_⟩
  · unfold importOf
    rw [ImportSink.added_importAll, himported.insertedIds_eq hfresh]
  · have hsound := planSound_reconcile (by rwa [hold]) hfreshIds himported.indexed
    rw [hplan]
    refine ⟨hsound.orderNodup, hsound.orderNotStale, fun id hid => ?_, fun id hid => ?_, ?_⟩
    · have := mem_order hfreshIds himported.indexed hid
      rwa [hold] at this
    · have := mem_stale hid
      rwa [hold] at this
    · rintro id (hid | hid)
      · apply old_order_or_stale hfreshIds himported.indexed
        · rw [hold]
          exact fun id hid => hids id (hrows id hid)
        · rwa [hold]
      · exact hsound.inserted id hid

/-- **The three ways to lose a row.** -/
theorem applied_listsRows_iff (h : Diffing input db s sticky s₁) {inserted : List Int}
    {plan : ReconcilePlan} (hplan : Planned input db read inserted plan)
    (hread : ∀ id ∈ read, id ∈ survivors input db s) (hinserted : ∀ id ∈ inserted, id ∉ s.rows)
    {s₂ s₃ : GroupState}
    (hrows₂ : ∀ id, id ∈ s₂.rows ↔ id ∈ s₁.rows ∨ (id ∈ inserted ∧ db.written id = true))
    (hdeleted₂ : s₂.deleted = s₁.deleted)
    (happlied : Applied input db (sticky.map Prod.snd) (workingOf input read) plan s₂ s₃) :
    ListsRows s₃ ↔ (∀ id ∈ survivors input db s, id ∈ read) ∧
      (∀ id ∈ inserted, id ∉ plan.stale ∨ Running input db .stale id → db.written id = true) ∧
      (db.deletes .stale = true ∨ ∀ id ∈ plan.stale, id ∈ read ∨ db.written id = true →
        Spared input db (workingOf input read) id) := by
  have hrow₁ : ∀ id ∈ survivors input db s, id ∈ s₁.rows := by
    intro id hid
    rw [← h.members, List.mem_filter, decide_eq_true_eq] at hid
    exact hid.2
  have hnew : ∀ id ∈ inserted, id ∉ s₁.rows ∧ id ∉ s₁.deleted := fun id hid =>
    ⟨fun hrow => hinserted id hid (h.used id (.inl hrow)),
      fun hgone => hinserted id hid (h.used id (.inr (.inr hgone)))⟩
  have hsplit : ∀ id ∈ s₁.rows, id ∈ sticky.map Prod.snd ∨ id ∈ survivors input db s := by
    intro id hid
    by_cases hsel : id ∈ sticky.map Prod.snd
    · exact .inl hsel
    · right
      rw [← h.members, List.mem_filter, decide_eq_true_eq]
      refine ⟨List.mem_filter.mpr ⟨h.listed id hid, decide_eq_true hsel⟩, hid⟩
  have hselApart : ∀ id ∈ sticky.map Prod.snd, id ∉ plan.order ∧ id ∉ plan.stale := by
    intro id hid
    obtain ⟨hrow, hnot⟩ := h.stickyRows id hid
    have houtside : ¬(id ∈ read ∨ id ∈ inserted) := fun hor =>
      hor.elim (fun hmem => hnot (hread id hmem)) fun hmem => (hnew id hmem).1 hrow
    exact ⟨fun hmem => houtside (hplan.order id hmem), fun hmem => houtside (hplan.stale id hmem)⟩
  have hworking : ∀ id ∈ workingOf input read, id ∈ read := by
    intro id hid
    unfold workingOf at hid
    split at hid
    · exact (List.mem_filter.mp hid).1
    · cases hid
  rw [listsRows_iff happlied.nodup]
  constructor
  · rintro ⟨hall, hlist⟩
    refine ⟨fun id hid => ?_, fun id hid hstays => ?_, ?_⟩
    · -- an unread member is in neither part of the plan
      by_contra hnot
      have hoff : ¬(id ∈ read ∨ id ∈ inserted) := fun hor =>
        hor.elim hnot fun hmem => (hnew id hmem).1 (hrow₁ id hid)
      have hlisted := hall id ((happlied.rows id).mpr
        ⟨(hrows₂ id).mpr (.inl (hrow₁ id hid)), fun hgone => hoff (hplan.stale id hgone.2.1)⟩)
      rcases (happlied.profiles id).mp hlisted with hord | hsel | ⟨hst, -⟩
      · exact hoff (hplan.order id hord)
      · exact (h.stickyRows id hsel).2 hid
      · exact hoff (hplan.stale id hst)
    · have hkept : ¬(id ∈ plan.stale ∧ ¬Spared input db (workingOf input read) id) := by
        rintro ⟨hst, hnot⟩
        rcases hstays with hfree | hrunning
        · exact hfree hst
        · exact hnot (.inr hrunning)
      have hlisted : id ∈ s₃.profiles := by
        rw [happlied.profiles]
        rcases hplan.placed id (.inr hid) with hord | hst
        · exact .inl hord
        · right; right
          refine ⟨hst, ?_⟩
          by_contra hnot
          exact hkept ⟨hst, hnot⟩
      have halive : id ∉ s₃.deleted := by
        rw [happlied.deleted, hdeleted₂, not_or]
        exact ⟨(hnew id hid).2, fun hgone => hkept ⟨hgone.2.2.1, hgone.2.2.2⟩⟩
      have hrow := ((happlied.rows id).mp (hlist id hlisted halive)).1
      rw [hrows₂] at hrow
      exact hrow.elim (fun hold => absurd hold (hnew id hid).1) And.right
    · -- a stale row that a failed delete leaves is listed nowhere
      by_contra hfails
      rw [not_or] at hfails
      obtain ⟨hdeletes, hleft⟩ := hfails
      push Not at hleft
      obtain ⟨id, hst, hrow, hnot⟩ := hleft
      have hrow₂ : id ∈ s₂.rows := by
        rw [hrows₂]
        rcases hrow with hmem | hwritten
        · exact .inl (hrow₁ id (hread id hmem))
        · exact (hplan.stale id hst).imp (fun hmem => hrow₁ id (hread id hmem)) fun hmem => ⟨hmem, hwritten⟩
      have hlisted := hall id ((happlied.rows id).mpr ⟨hrow₂, fun hgone => hdeletes hgone.1⟩)
      rcases (happlied.profiles id).mp hlisted with hord | hsel | ⟨-, hspared⟩
      · exact hplan.orderNotStale id hord hst
      · exact (hselApart id hsel).2 hst
      · exact hnot hspared
  · rintro ⟨hreadAll, hwritten, hdeletes⟩
    constructor
    · intro id hid
      obtain ⟨hrow, hstays⟩ := (happlied.rows id).mp hid
      rw [happlied.profiles]
      have hplaced : (id ∈ read ∨ id ∈ inserted) → (id ∈ read ∨ db.written id = true) →
          id ∈ plan.order ∨ id ∈ sticky.map Prod.snd ∨
            (id ∈ plan.stale ∧ Spared input db (workingOf input read) id) := by
        intro hmem hreal
        rcases hplan.placed id hmem with hord | hst
        · exact .inl hord
        · right; right
          refine ⟨hst, ?_⟩
          by_contra hnot
          rcases hdeletes with hok | hnone
          · exact hstays ⟨hok, hst, hnot⟩
          · exact hnot (hnone id hst hreal)
      rcases (hrows₂ id).mp hrow with hold | ⟨hins, hw⟩
      · rcases hsplit id hold with hsel | hsurvivor
        · exact .inr (.inl hsel)
        · exact hplaced (.inl (hreadAll id hsurvivor)) (.inl (hreadAll id hsurvivor))
      · exact hplaced (.inr hins) (.inr hw)
    · intro id hid _
      rw [happlied.rows, hrows₂]
      rcases (happlied.profiles id).mp hid with hord | hsel | ⟨hst, hspared⟩
      · have hfree := hplan.orderNotStale id hord
        refine ⟨?_, fun hgone => hfree hgone.2.1⟩
        exact (hplan.order id hord).imp (fun hmem => hrow₁ id (hread id hmem))
          fun hmem => ⟨hmem, hwritten id hmem (.inl hfree)⟩
      · exact ⟨.inl (h.stickyRows id hsel).1, fun hgone => (hselApart id hsel).2 hgone.2.1⟩
      · refine ⟨?_, fun hgone => hgone.2.2 hspared⟩
        rcases hplan.stale id hst with hmem | hins
        · exact .inl (hrow₁ id (hread id hmem))
        · right
          refine ⟨hins, hwritten id hins (.inr ?_)⟩
          rcases hspared with hwork | hrunning
          · exact absurd (hrow₁ id (hread id (hworking id hwork))) (hnew id hins).1
          · exact hrunning

/-- The condition over the members that were read is the condition over all of them. -/
theorem keepsRowsListed_iff
    (hread : read = (survivors input db s).filter fun id => db.reads .old id) :
    KeepsRowsListed input db s ↔ (∀ id ∈ survivors input db s, id ∈ read) ∧
      (∀ id ∈ insertedIds (importOf input db read).entries,
        id ∉ (planOf input db read).stale ∨ Running input db .stale id → db.written id = true) ∧
      (db.deletes .stale = true ∨ ∀ id ∈ (planOf input db read).stale,
        id ∈ read ∨ db.written id = true → Spared input db (workingOf input read) id) := by
  have hmem : ∀ id, id ∈ read ↔ id ∈ survivors input db s ∧ db.reads .old id = true := by
    intro id
    rw [hread, List.mem_filter]
  constructor
  · intro h
    have hall : read = survivors input db s := by
      rw [hread, List.filter_eq_self]
      exact h.read
    rw [hall]
    exact ⟨fun _ hid => hid, h.written, h.deleted⟩
  · rintro ⟨hreadAll, hwritten, hdeletes⟩
    have hreads : ∀ id ∈ survivors input db s, db.reads .old id = true := fun id hid =>
      ((hmem id).mp (hreadAll id hid)).2
    have hall : read = survivors input db s := by
      rw [hread, List.filter_eq_self]
      exact hreads
    rw [hall] at hwritten hdeletes
    exact ⟨hreads, hwritten, hdeletes⟩

/-- The refresh of a group that keeps members. -/
theorem refreshMembers_diff (hstart : StartsListed s) (hfresh : FreshAnswers s.rows db.inserts)
    (harrivals : input.arrivals ≠ []) (h : Diffing input db s sticky s₁) (result : UpdateOutcome) :
    ListsRows (refreshMembers input db sticky false result s₁).2 ↔ KeepsRowsListed input db s := by
  generalize hread : forEachProfile db .old s₁ (members sticky s₁) = read
  have hreadEq : read = (survivors input db s).filter fun id => db.reads .old id := by
    rw [← hread, ← h.members]
    unfold forEachProfile
    rw [List.filter_filter]
  have hsurvivors : ∀ id ∈ read, id ∈ survivors input db s := by
    intro id hid
    rw [hreadEq] at hid
    exact (List.mem_filter.mp hid).1
  have hnodup : read.Nodup := by
    rw [← hread]
    exact (h.nodup.filter _).filter _
  have hrows : ∀ id ∈ read, id ∈ s.rows := fun id hid =>
    (hstart.listed id).mp (mem_survivors (hsurvivors id hid)).1
  obtain ⟨index, hindex, hplan, hadded, hlength, hplanned⟩ :=
    @planned_planOf input _ _ _ hnodup hrows hstart.ids hfresh
  have hinserted : ∀ id ∈ insertedIds (importOf input db read).entries, id ∉ s.rows := by
    intro id hid
    rw [← hadded] at hid
    unfold importOf at hid
    rw [ImportSink.added_importAll] at hid
    exact (hfresh.of_mem hid).2
  have hentries : (importOf input db read).entries ≠ [] := by
    intro hnil
    rw [hnil, List.length_nil] at hlength
    exact harrivals (List.length_eq_zero_iff.mp hlength.symm)
  have hapart : ∀ id ∈ sticky.map Prod.snd,
      id ∉ (planOf input db read).order ∧ id ∉ (planOf input db read).stale := by
    intro id hid
    obtain ⟨hrow, hnot⟩ := h.stickyRows id hid
    have houtside : ¬(id ∈ read ∨ id ∈ insertedIds (importOf input db read).entries) := fun hor =>
      hor.elim (fun hmem => hnot (hsurvivors id hmem)) fun hmem =>
        hinserted id hmem (h.used id (.inl hrow))
    exact ⟨fun hmem => houtside (hplanned.order id hmem),
      fun hmem => houtside (hplanned.stale id hmem)⟩
  have happlied := applyPlan_spec input db sticky result (read.map (oldEntry input))
    (workingOf input read) (planOf input db read) (s₁.insertAll db (importOf input db read).added)
    hplanned.orderNodup h.stickyNodup hplanned.orderNotStale hapart
  have hrows₂ : ∀ id, id ∈ (s₁.insertAll db (importOf input db read).added).rows ↔ id ∈ s₁.rows ∨
      (id ∈ insertedIds (importOf input db read).entries ∧ db.written id = true) := by
    intro id
    unfold GroupState.insertAll
    rw [List.mem_append, List.mem_filter, hadded]
  have hiff := applied_listsRows_iff h hplanned hsurvivors hinserted hrows₂ rfl happlied
  rw [keepsRowsListed_iff hreadEq, ← hiff, ← listsRows_finishRefresh input db sticky
    (applyPlan input db sticky result (read.map (oldEntry input)) (workingOf input read)
      (planOf input db read) (s₁.insertAll db (importOf input db read).added)).1 happlied.nodup]
  unfold refreshMembers
  simp only [Bool.false_eq_true, ↓reduceIte, hread]
  rw [show ImportSink.importAll db.inserts (some (.ofOld (read.map (oldEntry input)))) input.arrivals =
    importOf input db read from rfl, if_neg fun hempty => hentries hempty.1, hindex]
  simp only [← hplan]
  rfl

/-- The refresh of a group that has been cleared. -/
theorem refreshMembers_cleared (hfresh : FreshAnswers s.rows db.inserts)
    (h : Diffing input db s sticky s₁) (hcleared : members sticky s₁ = []) (result : UpdateOutcome) :
    ListsRows (refreshMembers input db sticky true result s₁).2 ↔ KeepsRowsListed input db s := by
  have hnone : survivors input db s = [] := by
    rw [← h.members, hcleared]
    rfl
  obtain ⟨index, hindex, himported⟩ := importAll_spec [] db.inserts input.arrivals
  have hinserted : insertedIds (importOf input db []).entries =
      assignedIds db.inserts input.arrivals.length := by
    unfold importOf
    rw [show ([] : List Int).map (oldEntry input) = [] from rfl, himported.insertedIds_eq hfresh,
      ImportSink.length_newAt_eq himported.indexed.all_new]
  have hstale : (planOf input db []).stale = [] := by
    have hfreshIds : FreshIds [] (importOf input db []).entries := himported.freshIds hfresh nofun
    apply List.eq_nil_iff_forall_not_mem.mpr
    intro id hid
    unfold planOf at hid
    simp only at hid
    rw [show (importOf input db []).index = some index from hindex, Option.getD_some,
      show ([] : List Int).map (oldEntry input) = [] from rfl, stale_reconcile, List.mem_append] at hid
    rcases hid with hold | hcarrier
    · cases hold
    · obtain ⟨oldId, hgot⟩ := Option.isSome_iff_exists.mp (mem_carriers.mp hcarrier).2
      obtain ⟨-, -, -, -, oldEntry, hmem, -⟩ :=
        (paired hfreshIds).update_sound ((paired hfreshIds).supersededBy_iff.mp hgot)
      cases hmem
  have hadded := @ImportSink.added_importAll_none db.inserts input.arrivals
  have hlists : ListsRows (s₁.insertAll db (assignedIds db.inserts input.arrivals.length)) ↔
      ∀ id ∈ assignedIds db.inserts input.arrivals.length, db.written id = true := by
    rw [listsRows_iff (nodup_addProfileBatch _ _ h.nodup)]
    unfold GroupState.insertAll
    simp only [mem_addProfileBatch, List.mem_append, List.mem_filter]
    constructor
    · rintro ⟨-, hlist⟩ id hid
      have hunused := (hfresh.of_mem hid).2
      have hrow := hlist id (.inr hid) fun hgone => hunused (h.used id (.inr (.inr hgone)))
      exact hrow.elim (fun hold => absurd (h.used id (.inl hold)) hunused) And.right
    · intro hwritten
      refine ⟨fun id hid => hid.imp (h.listed id) And.left, ?_⟩
      rintro id (hid | hid) halive
      · exact .inl (h.rows id hid halive)
      · exact .inr ⟨hid, hwritten id hid⟩
  have hkeeps : KeepsRowsListed input db s ↔
      ∀ id ∈ assignedIds db.inserts input.arrivals.length, db.written id = true := by
    constructor
    · intro hkeep id hid
      apply hkeep.written id
      · rw [hnone, hinserted]
        exact hid
      · rw [hnone, hstale]
        exact .inl List.not_mem_nil
    · intro hwritten
      refine ⟨?_, ?_, .inr ?_⟩
      · rw [hnone]
        exact nofun
      · rw [hnone, hinserted]
        exact fun id hid _ => hwritten id hid
      · rw [hnone, hstale]
        exact nofun
  have hnodup := nodup_addProfileBatch (assignedIds db.inserts input.arrivals.length) s₁.profiles h.nodup
  rw [hkeeps, ← hlists]
  unfold refreshMembers
  simp only [↓reduceIte, List.map_nil, ne_eq, not_true_eq_false, and_false, hadded]
  rw [ImportSink.index_importAll_none]
  exact listsRows_finishRefresh input db sticky _ hnodup

end Diff

/-! ## The whole refresh -/

/-- A group that nothing happened to. -/
theorem StartsListed.listsRows {s : GroupState} (h : StartsListed s) : ListsRows s :=
  (listsRows_iff h.nodup).mpr
    ⟨fun id hid => (h.listed id).mpr hid, fun id hid _ => (h.listed id).mp hid⟩

/-- **When a refresh leaves the listing and the rows in agreement.** -/
theorem applyRefresh_listsRows_iff (input : RefreshInput) (db : RefreshDb) (s : GroupState)
    (hstart : StartsListed s) (hfresh : FreshAnswers s.rows db.inserts) :
    ListsRows (applyRefresh input db s).2 ↔
      (goesOn input db s = true → KeepsRowsListed input db s) := by
  unfold applyRefresh goesOn
  cases hurl : input.urlChanged with
  | true => simp [hstart.listsRows]
  | false =>
    by_cases harrivals : input.arrivals = []
    · simp [harrivals, hstart.listsRows]
    · have hsome : input.arrivals.isEmpty = false := by simpa using harrivals
      cases hparse : input.parseComplete with
      | false => simp [harrivals, hstart.listsRows]
      | true =>
        simp only [Bool.false_eq_true, ↓reduceIte, harrivals, Bool.true_eq_false, hsome,
          Bool.not_false, Bool.true_and]
        cases hclear : input.sub_clear with
        | false =>
          simp only [Bool.false_eq_true, ↓reduceIte, Bool.not_false, Bool.true_or, true_implies]
          exact refreshMembers_diff hstart hfresh harrivals (diffing_of_keep hstart hclear) _
        | true =>
          have hspec := deleteProfiles_spec input db .clear
            (doomedMembers input db (stickyOf db s) s) s
          have hhanded : trimmed input db .clear (doomedMembers input db (stickyOf db s) s) = [] ↔
              (s.profiles.all fun id => decide (id ∈ db.selectorIds) ||
                decide (id ∈ survivors input db s)) = true := by
            rw [List.eq_nil_iff_forall_not_mem, List.all_eq_true]
            simp only [mem_trimmed_doomed hstart hclear, Bool.or_eq_true, decide_eq_true_eq]
            constructor
            · intro h id hid
              have := h id
              tauto
            · intro h id
              have := h id
              tauto
          have hok := hspec.ok
          rw [hhanded, ← Bool.or_eq_true] at hok
          simp only [↓reduceIte, Bool.not_true, Bool.false_or]
          cases hdone : (deleteProfiles input db .clear
            (doomedMembers input db (stickyOf db s) s) s).1.ok with
          | false =>
            rw [hdone] at hok
            simp only [↓reduceIte, hspec.failed hdone]
            refine ⟨fun _ hyes => absurd (hok.mpr hyes) Bool.false_ne_true, fun _ => hstart.listsRows⟩
          | true =>
            have hdiff := diffing_of_clear hstart hclear (hspec.removed hdone)
            rw [hok.mp hdone]
            simp only [Bool.true_eq_false, ↓reduceIte, true_implies]
            cases hempty : (members (stickyOf db s) (deleteProfiles input db .clear
              (doomedMembers input db (stickyOf db s) s) s).2).isEmpty with
            | true => exact refreshMembers_cleared hfresh hdiff (List.isEmpty_iff.mp hempty) _
            | false => exact refreshMembers_diff hstart hfresh harrivals hdiff _

/-! ## A delete that fails -/

/-- A subscription whose only server was replaced by another one. -/
def replacedServer : RefreshInput :=
  { urlChanged := false, parseComplete := true, arrivals := [⟨[2], [20], []⟩], sub_clear := false
    keep_working := false, allow_stopping_active_profile := false
    keysOf := fun _ => ⟨[1], [10]⟩, displayOf := fun _ => [], isWorking := fun _ => false
    flags := fun _ => false, keepsSorted := false, less := fun _ _ => false }

/-- A database that only fails to delete. -/
def undeletingDb : RefreshDb :=
  { selectorIds := [], reads := fun _ _ => true
    inserts := fun chunk => if chunk = 0 then some 10 else none
    written := fun _ => true, deletes := fun _ => false, started_id := fun _ => -1 }

def oneServer : GroupState := { rows := [1], profiles := [1], deleted := [] }

theorem startsListed_oneServer : StartsListed oneServer :=
  ⟨List.nodup_singleton 1, fun _ => Iff.rfl, fun id hid => by simp_all [oneServer], rfl⟩

theorem freshAnswers_oneServer : FreshAnswers oneServer.rows undeletingDb.inserts := by
  have hfirst : ∀ chunk firstId, undeletingDb.inserts chunk = some firstId →
      chunk = 0 ∧ firstId = 10 := by
    intro chunk firstId hanswer
    unfold undeletingDb at hanswer
    simp only at hanswer
    split at hanswer
    · exact ⟨‹_›, (Option.some.inj hanswer).symm⟩
    · cases hanswer
  refine ⟨fun chunk firstId hanswer => ?_, fun chunk firstId hanswer i _ => ?_,
    fun chunk other firstId otherId hanswer hother hne => ?_⟩
  · rw [(hfirst chunk firstId hanswer).2]
    decide
  · rw [(hfirst chunk firstId hanswer).2, show oneServer.rows = [1] from rfl, List.mem_singleton]
    omega
  · exact absurd ((hfirst chunk firstId hanswer).1.trans (hfirst other otherId hother).1.symm) hne

theorem applyRefresh_listsRows_iff_sample :
    ListsRows (applyRefresh replacedServer undeletingDb oneServer).2 ↔
      (goesOn replacedServer undeletingDb oneServer = true →
        KeepsRowsListed replacedServer undeletingDb oneServer) :=
  applyRefresh_listsRows_iff replacedServer undeletingDb oneServer startsListed_oneServer
    freshAnswers_oneServer

/-- **A failed delete leaves a row that nothing lists.** -/
theorem not_listsRows_undeleted :
    ¬ ∀ (input : RefreshInput) (db : RefreshDb) (s : GroupState), StartsListed s →
      FreshAnswers s.rows db.inserts → ListsRows (applyRefresh input db s).2 := by
  intro hall
  have hlists := hall replacedServer undeletingDb oneServer startsListed_oneServer freshAnswers_oneServer
  exact absurd (hlists.rows 1 (by decide)) (by decide)

end Throned.Subscription
