import Throned.Analysis.ProfileSteps

/-!
# The rows of the groups, step by step

A group that was deleted does not come back, and a row of a profile never outlives the row of
its group.
-/

set_option autoImplicit false

namespace Throned.Database.Repos

/-- **Every row of a profile is in a group that has a row**, and the groups have ids that the
counter gave out. -/
structure Grouped (s : Repos) : Prop where
  grouped : ∀ id gid, s.profileRows id = some gid → (s.groupRows gid).isSome
  numbered : ∀ gid, (s.groupRows gid).isSome → gid ≤ s.group_last_id
  objects : ∀ g ∈ s.groups, g.id ≤ s.group_last_id

/-! ## The sections that delete no group -/

/-- What a section other than that of `DeleteGroup` may do: it writes the row of a group that
it has an object of, and that was not deleted, or of a new one, and rows of profiles into
groups that are there. -/
structure GroupsGrow (s t : Repos) : Prop where
  last : s.group_last_id ≤ t.group_last_id
  tombstones : t.groupTombstones = s.groupTombstones
  kept : ∀ gid, (s.groupRows gid).isSome → (t.groupRows gid).isSome
  written : ∀ gid, (t.groupRows gid).isSome → (s.groupRows gid).isSome ∨
    (s.groupTombstones gid = false ∧ ∃ g ∈ s.groups, g.id = gid) ∨
    (s.group_last_id < gid ∧ gid ≤ t.group_last_id)
  objects : ∀ g ∈ t.groups, (∃ g₀ ∈ s.groups, g₀.id = g.id) ∨ (s.groupRows g.id).isSome ∨
    (s.group_last_id < g.id ∧ g.id ≤ t.group_last_id)
  rows : ∀ id gid, t.profileRows id = some gid →
    s.profileRows id = some gid ∨ (t.groupRows gid).isSome

variable {s t u : Repos}

/-- A section that leaves the groups alone. -/
theorem GroupsGrow.of_eq (hlast : t.group_last_id = s.group_last_id)
    (htombstones : t.groupTombstones = s.groupTombstones) (hrows : t.groupRows = s.groupRows)
    (hgroups : t.groups = s.groups)
    (hprofiles : ∀ id gid, t.profileRows id = some gid →
      s.profileRows id = some gid ∨ (s.groupRows gid).isSome) : GroupsGrow s t := by
  refine ⟨le_of_eq hlast.symm, htombstones, ?_, ?_, ?_, ?_⟩
  · intro gid h
    rwa [hrows]
  · intro gid h
    rw [hrows] at h
    exact Or.inl h
  · intro g hg
    rw [hgroups] at hg
    exact Or.inl ⟨g, hg, rfl⟩
  · rw [hrows]
    exact hprofiles

theorem GroupsGrow.refl (s : Repos) : GroupsGrow s s :=
  GroupsGrow.of_eq rfl rfl rfl rfl fun _ _ => Or.inl

theorem GroupsGrow.trans (hst : GroupsGrow s t) (htu : GroupsGrow t u) : GroupsGrow s u := by
  have hnew : ∀ gid, t.group_last_id < gid ∧ gid ≤ u.group_last_id →
      s.group_last_id < gid ∧ gid ≤ u.group_last_id :=
    fun gid h => ⟨lt_of_le_of_lt hst.last h.1, h.2⟩
  have hgrown : ∀ gid, s.group_last_id < gid ∧ gid ≤ t.group_last_id →
      s.group_last_id < gid ∧ gid ≤ u.group_last_id :=
    fun gid h => ⟨h.1, h.2.trans htu.last⟩
  refine ⟨hst.last.trans htu.last, htu.tombstones.trans hst.tombstones,
    fun gid h => htu.kept gid (hst.kept gid h), ?_, ?_, ?_⟩
  · intro gid h
    rcases htu.written gid h with h | ⟨htomb, g, hg, rfl⟩ | h
    · rcases hst.written gid h with h | h | h
      · exact Or.inl h
      · exact Or.inr (Or.inl h)
      · exact Or.inr (Or.inr (hgrown gid h))
    · rw [hst.tombstones] at htomb
      rcases hst.objects g hg with h | h | h
      · exact Or.inr (Or.inl ⟨htomb, h⟩)
      · exact Or.inl h
      · exact Or.inr (Or.inr (hgrown g.id h))
    · exact Or.inr (Or.inr (hnew gid h))
  · intro g hg
    rcases htu.objects g hg with ⟨g₀, hg₀, heq⟩ | h | h
    · rcases hst.objects g₀ hg₀ with h | h | h
      · rw [heq] at h
        exact Or.inl h
      · rw [heq] at h
        exact Or.inr (Or.inl h)
      · rw [heq] at h
        exact Or.inr (Or.inr (hgrown g.id h))
    · rcases hst.written g.id h with h | ⟨-, h⟩ | h
      · exact Or.inr (Or.inl h)
      · exact Or.inl h
      · exact Or.inr (Or.inr (hgrown g.id h))
    · exact Or.inr (Or.inr (hnew g.id h))
  · intro id gid h
    rcases htu.rows id gid h with h | h
    · rcases hst.rows id gid h with h | h
      · exact Or.inl h
      · exact Or.inr (htu.kept gid h)
    · exact Or.inr h

theorem GroupsGrow.foldl {β : Type} (f : Repos → β → Repos)
    (hf : ∀ s b, GroupsGrow s (f s b)) (l : List β) (s : Repos) :
    GroupsGrow s (l.foldl f s) := by
  induction l generalizing s with
  | nil => exact GroupsGrow.refl s
  | cons b l ih => exact (hf s b).trans (ih (f s b))

/-- The row of a group that is there, or may be written, is written. -/
theorem isSome_update_iff {table : Int → Option (List Int)} {gid gid' : Int}
    {listing : List Int} :
    (Function.update table gid (some listing) gid').isSome ↔
      (table gid').isSome ∨ gid' = gid := by
  by_cases heq : gid' = gid
  · subst heq
    simp
  · rw [Function.update_of_ne heq]
    simp [heq]

theorem loadGroup_grow {id : Int} {listing : List Int} (write : Bool)
    (hrow : s.groupRows id = some listing) : GroupsGrow s (s.loadGroup id listing write) := by
  have hsome : (s.groupRows id).isSome := by
    rw [hrow]
    rfl
  have hrows : ∀ gid, ((s.loadGroup id listing write).groupRows gid).isSome ↔
      (s.groupRows gid).isSome := by
    intro gid
    unfold loadGroup
    simp only
    split
    · rw [isSome_update_iff]
      exact ⟨fun h => h.elim (fun h => h) fun h => h ▸ hsome, Or.inl⟩
    · exact Iff.rfl
  refine ⟨le_rfl, rfl, fun gid => (hrows gid).mpr, fun gid h => Or.inl ((hrows gid).mp h), ?_,
    fun _ _ => Or.inl⟩
  intro g hg
  rcases List.mem_append.mp hg with hg | hg
  · exact Or.inl ⟨g, hg, rfl⟩
  · rw [List.mem_singleton.mp hg]
    exact Or.inr (Or.inl hsome)

theorem GetGroup_grow (s : Repos) (id : Int) (db : DbAnswers) :
    GroupsGrow s (s.GetGroup id db).1 := by
  unfold GetGroup
  cases s.memMap id with
  | some group => exact GroupsGrow.refl s
  | none =>
    cases hrow : s.groupRows id with
    | none => exact GroupsGrow.refl s
    | some listing =>
      simp only
      split
      · exact loadGroup_grow _ hrow
      · exact GroupsGrow.refl s

theorem GetGroup_fst_grow {id : Int} {db : DbAnswers} {group : Option ℕ}
    (h : s.GetGroup id db = (t, group)) : GroupsGrow s t := by
  have := GetGroup_grow s id db
  rw [h] at this
  exact this

/-- A deleted group is not written back. -/
theorem saveGroup_grow (s : Repos) (group : ℕ) (write : Bool) :
    GroupsGrow s (s.saveGroup group write).1 := by
  unfold saveGroup
  cases hget : s.groups[group]? with
  | none => exact GroupsGrow.refl s
  | some g =>
    have hmem : g ∈ s.groups := List.mem_of_getElem? hget
    simp only
    split
    · exact GroupsGrow.refl s
    · split
      · exact GroupsGrow.refl s
      · rename_i htomb
        refine ⟨le_rfl, rfl, ?_, ?_, fun g hg => Or.inl ⟨g, hg, rfl⟩, fun _ _ => Or.inl⟩
        · intro gid h
          simp only
          split
          · exact isSome_update_iff.mpr (Or.inl h)
          · exact h
        · intro gid h
          simp only at h
          split at h
          · rcases isSome_update_iff.mp h with h | rfl
            · exact Or.inl h
            · exact Or.inr (Or.inl ⟨Bool.eq_false_of_not_eq_true htomb, g, hmem, rfl⟩)
          · exact Or.inl h

theorem editGroup_grow (s : Repos) (group : ℕ) (edit : List Int → List Int) :
    GroupsGrow s (s.editGroup group edit) := by
  unfold editGroup
  cases hget : s.groups[group]? with
  | none => exact GroupsGrow.refl s
  | some g =>
    refine ⟨le_rfl, rfl, fun _ => id, fun _ => Or.inl, ?_, fun _ _ => Or.inl⟩
    intro g' hg'
    rcases List.mem_or_eq_of_mem_set hg' with hg' | rfl
    · exact Or.inl ⟨g', hg', rfl⟩
    · exact Or.inl ⟨g, List.mem_of_getElem? hget, rfl⟩

theorem AddGroup_grow (s : Repos) {db : DbAnswers} (hcounter : db.writes 0 = true) :
    GroupsGrow s (s.AddGroup db) := by
  unfold AddGroup
  simp only [if_pos hcounter]
  have hnew : s.group_last_id < s.group_last_id + 1 := Int.lt_succ _
  refine ⟨le_of_lt hnew, rfl, ?_, ?_, ?_, fun _ _ => Or.inl⟩
  · intro gid h
    simp only
    split
    · exact isSome_update_iff.mpr (Or.inl h)
    · exact h
  · intro gid h
    simp only at h
    split at h
    · rcases isSome_update_iff.mp h with h | rfl
      · exact Or.inl h
      · exact Or.inr (Or.inr ⟨hnew, le_rfl⟩)
    · exact Or.inl h
  · intro g hg
    rcases List.mem_append.mp hg with hg | hg
    · exact Or.inl ⟨g, hg, rfl⟩
    · rw [List.mem_singleton.mp hg]
      exact Or.inr (Or.inr ⟨hnew, le_rfl⟩)

/-! ## The rows of the profiles -/

theorem writeRows_eq_some {table : Int → Option Int} {rows : List Profile} {id gid : Int}
    (h : writeRows table rows id = some gid) :
    table id = some gid ∨ ∃ row ∈ rows, row.gid = gid := by
  unfold writeRows at h
  induction rows generalizing table with
  | nil => exact Or.inl h
  | cons row rows ih =>
    rw [List.foldl_cons] at h
    rcases ih h with h | ⟨row', hrow', rfl⟩
    · by_cases heq : id = row.id
      · rw [heq, Function.update_self] at h
        exact Or.inr ⟨row, List.mem_cons_self, Option.some.inj h⟩
      · rw [Function.update_of_ne heq] at h
        exact Or.inl h
    · exact Or.inr ⟨row', List.mem_cons_of_mem _ hrow', rfl⟩

/-- A statement writes rows only where their groups are there. -/
theorem writeRows_grow (s : Repos) (p : Prop) [Decidable p] (rows : List Profile)
    (hp : p → ∀ row ∈ rows, (s.groupRows row.gid).isSome) :
    GroupsGrow s
      { s with profileRows := if p then writeRows s.profileRows rows else s.profileRows } := by
  refine GroupsGrow.of_eq rfl rfl rfl rfl fun id gid h => ?_
  simp only at h
  split at h
  · rename_i hp'
    rcases writeRows_eq_some h with h | ⟨row, hrow, rfl⟩
    · exact Or.inl h
    · exact Or.inr (hp hp' row hrow)
  · exact Or.inl h

theorem saveToDatabase_groups (s : Repos) (p : Profile) (write : Bool) :
    GroupsGrow s (s.saveToDatabase p write) :=
  writeRows_grow s _ [p] fun h row hrow => by
    rw [List.mem_singleton.mp hrow]
    exact h.2

theorem execBatchInsertProfiles_groups (s : Repos) (rows : List Profile) (writes : ℕ → Bool) :
    GroupsGrow s (s.execBatchInsertProfiles rows writes) :=
  GroupsGrow.foldl _ (fun s _ => writeRows_grow s _ _ fun h row hrow => (h.2.1 row hrow).1) _ s

theorem execBatchReplaceProfiles_groups (s : Repos) (rows : List Profile) (writes : ℕ → Bool) :
    GroupsGrow s (s.execBatchReplaceProfiles rows writes) :=
  GroupsGrow.foldl _ (fun s _ => writeRows_grow s _ _ fun h => h.2) _ s

theorem Save_groups (s : Repos) (profile : ℕ) (write : Bool) :
    GroupsGrow s (s.Save profile write).1 := by
  unfold Save
  cases s.object profile with
  | none => exact GroupsGrow.refl s
  | some p =>
    simp only
    split
    · exact GroupsGrow.refl s
    · split
      · exact GroupsGrow.refl s
      · exact (saveToDatabase_groups s p write).trans
          (GroupsGrow.of_eq rfl rfl rfl rfl fun _ _ => Or.inl)

theorem insertBatch_groups (s : Repos) (toAdd : List ℕ) (firstId gid : Int)
    (writes : ℕ → Bool) : GroupsGrow s (s.insertBatch toAdd firstId gid writes) := by
  have hassign : GroupsGrow s (s.assignIds toAdd firstId gid) := by
    unfold assignIds
    refine GroupsGrow.foldl _ (fun s _ => ?_) _ s
    exact GroupsGrow.of_eq rfl rfl rfl rfl fun _ _ => Or.inl
  exact hassign.trans (execBatchInsertProfiles_groups _ _ _)

theorem saveRows_groups (s : Repos) (rows : List Profile) (valid : List ℕ)
    (writes : ℕ → Bool) : GroupsGrow s (s.saveRows rows valid writes) := by
  refine (execBatchReplaceProfiles_groups s _ writes).trans
    (GroupsGrow.foldl _ (fun s profile => ?_) _ _)
  cases s.object profile with
  | none => exact GroupsGrow.refl s
  | some p =>
    simp only
    split
    · exact GroupsGrow.refl s
    · exact GroupsGrow.of_eq rfl rfl rfl rfl fun _ _ => Or.inl

theorem GetProfileBatch_groups (s : Repos) (ids : List Int) (reads : ℕ → Bool) :
    GroupsGrow s (s.GetProfileBatch ids reads).1 := by
  have hforget : GroupsGrow s { s with
      identityMap := fun id =>
        if id ∈ ids.filter fun id => (s.mapped id).isNone then none else s.identityMap id } :=
    GroupsGrow.of_eq rfl rfl rfl rfl fun _ _ => Or.inl
  unfold GetProfileBatch
  refine hforget.trans (GroupsGrow.foldl _ (fun s _ => ?_) _ _)
  exact GroupsGrow.of_eq rfl rfl rfl rfl fun _ _ => Or.inl

theorem batchDelete_groups (s : Repos) (ids existing : List Int) :
    GroupsGrow s (s.batchDelete ids existing) := by
  refine GroupsGrow.of_eq rfl rfl rfl rfl fun id gid h => ?_
  simp only [batchDelete, forget] at h
  split at h
  · cases h
  · exact Or.inl h

/-! ## The calls -/

variable {db : DbAnswers} {call : Call}

/-- A call that is not about to delete a group. -/
theorem resume_groups (s : Repos) (db : DbAnswers)
    (hcall : ∀ id listed found, call ≠ .groupDelete id listed found) :
    GroupsGrow s (s.resume db call).1 := by
  cases call with
  | addInsert profile newId =>
    simp only [resume]
    cases s.object profile with
    | none => exact GroupsGrow.refl s
    | some p =>
      simp only
      cases hget : s.GetGroup p.gid db with
      | mk t group =>
        have hgrow := GetGroup_fst_grow hget
        cases group with
        | none => exact hgrow
        | some group =>
          have hmap : GroupsGrow t { t with
              identityMap := Function.update t.identityMap newId (some profile) } :=
            GroupsGrow.of_eq rfl rfl rfl rfl fun _ _ => Or.inl
          exact (hgrow.trans hmap).trans (saveToDatabase_groups _ p _)
  | addFind profile =>
    simp only [resume]
    cases s.object profile with
    | none => exact GroupsGrow.refl s
    | some p =>
      simp only
      cases hget : s.GetGroup p.gid db with
      | mk t group => cases group <;> exact GetGroup_fst_grow hget
  | addList profile group =>
    simp only [resume]
    cases s.object profile with
    | none => exact GroupsGrow.refl s
    | some p => exact editGroup_grow s group _
  | addSave group => exact saveGroup_grow s group _
  | batchFind profiles gid =>
    simp only [resume]
    cases hget : s.GetGroup gid db with
    | mk t group => cases group <;> exact GetGroup_fst_grow hget
  | batchRange toAdd gid group =>
    simp only [resume]
    split
    · exact GroupsGrow.of_eq rfl rfl rfl rfl fun _ _ => Or.inl
    · exact GroupsGrow.refl s
  | batchInsert toAdd gid group firstId =>
    simp only [resume]
    cases hget : s.GetGroup gid db with
    | mk t found =>
      have hgrow := GetGroup_fst_grow hget
      cases found with
      | none => exact hgrow
      | some found =>
        exact ((hgrow.trans (insertBatch_groups t toAdd firstId gid _)).trans
          (editGroup_grow _ _ _)).trans (saveGroup_grow _ _ _)
  | saveBatchRows profiles => exact GroupsGrow.refl s
  | saveBatchWrite rows valid => exact saveRows_groups s rows valid _
  | deleteRead ids => exact GetProfileBatch_groups s ids _
  | deleteRows ids existing groupIDs =>
    simp only [resume]
    split
    · exact batchDelete_groups s ids existing
    · exact GroupsGrow.refl s
  | unlist ids groupIDs =>
    cases groupIDs with
    | nil => exact GroupsGrow.refl s
    | cons gid groupIDs =>
      simp only [resume]
      cases hget : s.GetGroup gid db with
      | mk t group => cases group <;> exact GetGroup_fst_grow hget
  | unlistFrom ids group groupIDs => exact editGroup_grow s group _
  | unlistSave ids group groupIDs => exact saveGroup_grow s group _
  | groupFind id =>
    simp only [resume]
    cases hget : s.GetGroup id db with
    | mk t group => cases group <;> exact GetGroup_fst_grow hget
  | groupDelete id listed found => exact absurd rfl (hcall id listed found)
  | finished result => exact GroupsGrow.refl s

theorem advance_groupRows {k : ℕ} (hcall : s.calls[k]? = some call) :
    GroupsGrow (s.resume db call).1 (s.advance k db) := by
  unfold advance
  rw [hcall]
  exact GroupsGrow.of_eq rfl rfl rfl rfl fun _ _ => Or.inl

/-! ## What happens to a group -/

/-- What a step may do with the groups: the row of a deleted group is not written again. -/
structure GroupsAdvance (s t : Repos) : Prop where
  last : s.group_last_id ≤ t.group_last_id
  tombstones : ∀ gid, s.groupTombstones gid = true → t.groupTombstones gid = true
  written : ∀ gid, (t.groupRows gid).isSome → (s.groupRows gid).isSome ∨
    s.groupTombstones gid = false ∨ s.group_last_id < gid
  deleted : ∀ gid, (s.groupRows gid).isSome →
    (t.groupRows gid).isSome ∨ t.groupTombstones gid = true

theorem GroupsGrow.advance (h : GroupsGrow s t) : GroupsAdvance s t :=
  ⟨h.last, fun _ hgid => h.tombstones ▸ hgid,
    fun gid hgid => (h.written gid hgid).imp id (Or.imp And.left And.left),
    fun gid hgid => Or.inl (h.kept gid hgid)⟩

theorem GroupsAdvance.trans (hst : GroupsAdvance s t) (htu : GroupsAdvance t u) :
    GroupsAdvance s u := by
  refine ⟨hst.last.trans htu.last, fun gid h => htu.tombstones gid (hst.tombstones gid h), ?_, ?_⟩
  · intro gid h
    rcases htu.written gid h with h | htomb | hlt
    · exact hst.written gid h
    · refine Or.inr (Or.inl (Bool.eq_false_of_not_eq_true fun hs => ?_))
      rw [hst.tombstones gid hs] at htomb
      cases htomb
    · exact Or.inr (Or.inr (lt_of_le_of_lt hst.last hlt))
  · intro gid h
    rcases hst.deleted gid h with h | h
    · exact htu.deleted gid h
    · exact Or.inr (htu.tombstones gid h)

theorem GroupsGrow.grouped (h : GroupsGrow s t) (hs : Grouped s) : Grouped t := by
  refine ⟨?_, ?_, ?_⟩
  · intro id gid hrow
    rcases h.rows id gid hrow with hrow | hgroup
    · exact h.kept gid (hs.grouped id gid hrow)
    · exact hgroup
  · intro gid hgid
    rcases h.written gid hgid with hold | ⟨-, g, hg, rfl⟩ | hnew
    · exact (hs.numbered gid hold).trans h.last
    · exact (hs.objects g hg).trans h.last
    · exact hnew.2
  · intro g hg
    rcases h.objects g hg with ⟨g₀, hg₀, heq⟩ | hrow | hnew
    · exact heq ▸ (hs.objects g₀ hg₀).trans h.last
    · exact (hs.numbered g.id hrow).trans h.last
    · exact hnew.2

/-- The section of `DeleteGroup`, on a group it has found. -/
theorem deleteGroup_follows (hs : Grouped s) {gid : Int} (listed : List Int) {found : Bool}
    (hfound : (s.groupRows gid).isSome → found = true) :
    Grouped (s.deleteGroup gid listed found) ∧
      GroupsAdvance s (s.deleteGroup gid listed found) := by
  have hrow : ∀ gid', gid' ≠ gid →
      (s.deleteGroup gid listed found).groupRows gid' = s.groupRows gid' :=
    fun gid' hne => Function.update_of_ne hne _ _
  have hself : (s.deleteGroup gid listed found).groupRows gid = none := Function.update_self _ _ _
  have hback : ∀ gid', ((s.deleteGroup gid listed found).groupRows gid').isSome →
      (s.groupRows gid').isSome := by
    intro gid' h
    by_cases heq : gid' = gid
    · rw [heq, hself] at h
      cases h
    · rw [hrow gid' heq] at h
      exact h
  refine ⟨⟨?_, fun gid' h => hs.numbered gid' (hback gid' h), hs.objects⟩, le_rfl, ?_,
    fun gid' h => Or.inl (hback gid' h), ?_⟩
  · intro id gid' h
    simp only [deleteGroup, forget] at h
    split at h
    · cases h
    · rename_i hkept
      have hne : gid' ≠ gid := by
        rintro rfl
        exact hkept (decide_eq_true (Or.inr h))
      rw [hrow gid' hne]
      exact hs.grouped id gid' h
  · intro gid' h
    exact decide_eq_true (Or.inr h)
  · intro gid' h
    by_cases heq : gid' = gid
    · rw [heq] at h
      exact Or.inr (decide_eq_true (Or.inl ⟨hfound h, heq⟩))
    · rw [hrow gid' heq]
      exact Or.inl h

/-- **Every regular step keeps the rows in groups, and deleted groups deleted.** -/
theorem groups_step (hs : Grouped s) {event : Event} (hregular : event.Regular s) :
    Grouped (s.step event) ∧ GroupsAdvance s (s.step event) := by
  have key : ∀ t, GroupsGrow s t → Grouped t ∧ GroupsAdvance s t :=
    fun t h => ⟨h.grouped hs, h.advance⟩
  cases event with
  | newProfile => exact key _ (GroupsGrow.of_eq rfl rfl rfl rfl fun _ _ => Or.inl)
  | getProfile id db =>
    refine key _ ?_
    simp only [step, GetProfile]
    cases s.mapped id with
    | some p => exact GroupsGrow.refl s
    | none =>
      cases s.profileRows id with
      | none => exact GroupsGrow.of_eq rfl rfl rfl rfl fun _ _ => Or.inl
      | some gid =>
        simp only
        split <;> exact GroupsGrow.of_eq rfl rfl rfl rfl fun _ _ => Or.inl
  | moveProfile profile gid =>
    refine key _ ?_
    simp only [step, moveProfile]
    split
    · exact GroupsGrow.refl s
    · cases s.object profile with
      | none => exact GroupsGrow.refl s
      | some p => exact GroupsGrow.of_eq rfl rfl rfl rfl fun _ _ => Or.inl
  | release profile =>
    refine key _ ?_
    simp only [step]
    split
    · exact GroupsGrow.refl s
    · exact GroupsGrow.of_eq rfl rfl rfl rfl fun _ _ => Or.inl
  | addGroup db => exact key _ (AddGroup_grow s hregular)
  | getGroup id db => exact key _ (GetGroup_grow s id db)
  | editGroup group edit => exact key _ (editGroup_grow s group edit)
  | saveGroup group write => exact key _ (saveGroup_grow s group write)
  | addProfile profile gid current_group write =>
    refine key _ ?_
    simp only [step, AddProfile]
    split
    · exact GroupsGrow.refl s
    · cases s.object profile with
      | none => exact GroupsGrow.refl s
      | some p =>
        simp only
        split <;> exact GroupsGrow.of_eq rfl rfl rfl rfl fun _ _ => Or.inl
  | addProfileBatch profiles gid current_group =>
    refine key _ ?_
    simp only [step]
    split
    · exact GroupsGrow.refl s
    · exact GroupsGrow.of_eq rfl rfl rfl rfl fun _ _ => Or.inl
  | save profile write =>
    refine key _ ?_
    simp only [step]
    split
    · exact GroupsGrow.refl s
    · exact Save_groups s profile write
  | saveBatch profiles =>
    refine key _ ?_
    simp only [step]
    split
    · exact GroupsGrow.refl s
    · exact GroupsGrow.of_eq rfl rfl rfl rfl fun _ _ => Or.inl
  | batchDeleteProfiles ids stopRunningProfile started_id =>
    exact key _ (GroupsGrow.of_eq rfl rfl rfl rfl fun _ _ => Or.inl)
  | deleteGroup id => exact key _ (GroupsGrow.of_eq rfl rfl rfl rfl fun _ _ => Or.inl)
  | advance k db =>
    simp only [step]
    cases hcall : s.calls[k]? with
    | none =>
      unfold advance
      rw [hcall]
      exact key _ (GroupsGrow.refl s)
    | some call =>
      by_cases hdelete : ∃ id listed found, call = .groupDelete id listed found
      · obtain ⟨id, listed, found, rfl⟩ := hdelete
        have hfound := hregular _ hcall
        have hafter := @advance_groupRows _ db _ _ hcall
        simp only [resume] at hafter
        split at hafter
        · rename_i hwrite
          obtain ⟨hgrouped, hadvance⟩ := deleteGroup_follows hs listed (hfound hwrite)
          exact ⟨hafter.grouped hgrouped, hadvance.trans hafter.advance⟩
        · exact key _ hafter
      · refine key _ ((resume_groups s db ?_).trans (advance_groupRows hcall))
        rintro id listed found rfl
        exact hdelete ⟨id, listed, found, rfl⟩

end Throned.Database.Repos
