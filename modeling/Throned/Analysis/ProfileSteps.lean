import Throned.Analysis.ProfileIds

/-!
# The ids of the profiles, step by step

Every step of the repositories keeps the ids orderly, as long as the counters answer and no
row is deleted that its call has not found.
-/

set_option autoImplicit false

namespace Throned.Database

open Throned.Library

/-! ## The regular steps -/

/-- **A deletion takes no row that its own lookup missed, and the counter could be moved.** -/
def Call.Regular (s : Repos) (db : DbAnswers) : Call → Prop
  | .batchRange _ _ _ => db.writes 0 = true
  | .deleteRows ids existing _ =>
    db.writes 0 = true → ∀ id ∈ ids, (s.profileRows id).isSome → id ∈ existing
  | .groupDelete id _ found => db.writes 0 = true → (s.groupRows id).isSome → found = true
  | _ => True

def Repos.Event.Regular (s : Repos) : Repos.Event → Prop
  | .addProfile _ _ _ write => write = true
  | .addGroup db => db.writes 0 = true
  | .advance k db => ∀ call, s.calls[k]? = some call → call.Regular s db
  | _ => True

namespace Repos

variable {s : Repos}

/-! ## The sections that leave the profiles alone -/

@[simp] theorem loadGroup_profileSide (s : Repos) (id : Int) (listing : List Int) (write : Bool) :
    (s.loadGroup id listing write).profileSide = s.profileSide := rfl

@[simp] theorem GetGroup_profileSide (s : Repos) (id : Int) (db : DbAnswers) :
    (s.GetGroup id db).1.profileSide = s.profileSide := by
  unfold GetGroup
  cases s.memMap id with
  | some group => rfl
  | none =>
    cases s.groupRows id with
    | none => rfl
    | some listing =>
      simp only
      split <;> rfl

@[simp] theorem saveGroup_profileSide (s : Repos) (group : ℕ) (write : Bool) :
    (s.saveGroup group write).1.profileSide = s.profileSide := by
  unfold saveGroup
  cases s.groups[group]? with
  | none => rfl
  | some g =>
    simp only
    split
    · rfl
    · split <;> rfl

@[simp] theorem AddGroup_profileSide (s : Repos) (db : DbAnswers) :
    (s.AddGroup db).profileSide = s.profileSide := rfl

@[simp] theorem editGroup_profileSide (s : Repos) (group : ℕ) (edit : List Int → List Int) :
    (s.editGroup group edit).profileSide = s.profileSide := by
  unfold editGroup
  cases s.groups[group]? <;> rfl

theorem GetGroup_fst_profileSide {s t : Repos} {id : Int} {db : DbAnswers} {group : Option ℕ}
    (h : s.GetGroup id db = (t, group)) : t.profileSide = s.profileSide := by
  have := GetGroup_profileSide s id db
  rw [h] at this
  exact this

/-- A fold of steps that leave the profiles alone. -/
theorem foldl_profileSide {β : Type} (f : Repos → β → Repos)
    (hf : ∀ s b, (f s b).profileSide = s.profileSide) (l : List β) (s : Repos) :
    (l.foldl f s).profileSide = s.profileSide := by
  induction l generalizing s with
  | nil => rfl
  | cons b l ih => rw [List.foldl_cons, ih, hf]

/-! ## The rows a section writes -/

theorem writeRows_isSome {table : Int → Option Int} {rows : List Profile} {id : Int} :
    (writeRows table rows id).isSome ↔ (table id).isSome ∨ ∃ row ∈ rows, row.id = id := by
  unfold writeRows
  induction rows generalizing table with
  | nil => simp
  | cons row rows ih =>
    rw [List.foldl_cons, ih]
    by_cases heq : id = row.id
    · subst heq
      simp
    · rw [Function.update_of_ne heq]
      simp [Ne.symm heq]

/-- What a list of statements may do to the table of the profiles. -/
def RowsGrow (s t : Repos) (ids : Int → Prop) : Prop :=
  (∃ rows, t.profileSide = { s.profileSide with rows := rows }) ∧
    (∀ id, (s.profileRows id).isSome → (t.profileRows id).isSome) ∧
    ∀ id, (t.profileRows id).isSome → (s.profileRows id).isSome ∨ ids id

theorem RowsGrow.refl (s : Repos) (ids : Int → Prop) : RowsGrow s s ids :=
  ⟨⟨s.profileRows, rfl⟩, fun _ h => h, fun _ h => Or.inl h⟩

theorem RowsGrow.trans {s t u : Repos} {ids : Int → Prop} (hst : RowsGrow s t ids)
    (htu : RowsGrow t u ids) : RowsGrow s u ids := by
  obtain ⟨⟨rows, ht⟩, hkeep, hnew⟩ := hst
  obtain ⟨⟨rows', hu⟩, hkeep', hnew'⟩ := htu
  refine ⟨⟨rows', ?_⟩, fun id h => hkeep' id (hkeep id h), fun id h => ?_⟩
  · rw [hu, ht]
  · rcases hnew' id h with h | h
    · exact hnew id h
    · exact Or.inr h

/-- Only the profiles count. -/
theorem RowsGrow.of_profileSide_eq {s t u : Repos} {ids : Int → Prop}
    (hside : t.profileSide = s.profileSide) (h : RowsGrow t u ids) : RowsGrow s u ids := by
  have hrows : t.profileRows = s.profileRows := congrArg ProfileSide.rows hside
  unfold RowsGrow at h ⊢
  rw [hside, hrows] at h
  exact h

/-- A section that ends without touching the profiles. -/
theorem RowsGrow.of_profileSide_eq_right {s t : Repos} {ids : Int → Prop}
    (hside : t.profileSide = s.profileSide) : RowsGrow s t ids := by
  have hrows : t.profileRows = s.profileRows := congrArg ProfileSide.rows hside
  refine ⟨⟨s.profileRows, hside⟩, fun id h => ?_, fun id h => ?_⟩
  · rw [hrows]
    exact h
  · rw [hrows] at h
    exact Or.inl h

theorem RowsGrow.foldl {β : Type} (f : Repos → β → Repos) {ids : Int → Prop}
    (hf : ∀ s b, RowsGrow s (f s b) ids) (l : List β) (s : Repos) :
    RowsGrow s (l.foldl f s) ids := by
  induction l generalizing s with
  | nil => exact RowsGrow.refl s ids
  | cons b l ih => exact (hf s b).trans (ih (f s b))

theorem mem_of_mem_chunk {α : Type} {size k : ℕ} {rows : List α} {row : α}
    (h : row ∈ chunk size k rows) : row ∈ rows :=
  List.mem_of_mem_drop (List.mem_of_mem_take h)

/-- A table that was extended by rows, or left as it was. -/
theorem rowsGrow_ite (s : Repos) (p : Prop) [Decidable p] (rows : List Profile)
    {ids : Int → Prop} (hids : ∀ row ∈ rows, ids row.id) :
    RowsGrow s
      { s with profileRows := if p then writeRows s.profileRows rows else s.profileRows } ids := by
  by_cases hp : p
  · rw [if_pos hp]
    refine ⟨⟨_, rfl⟩, fun id h => writeRows_isSome.mpr (Or.inl h), fun id h => ?_⟩
    rcases writeRows_isSome.mp h with h | ⟨row, hrow, rfl⟩
    · exact Or.inl h
    · exact Or.inr (hids row hrow)
  · rw [if_neg hp]
    exact RowsGrow.refl s ids

theorem execBatchInsertProfiles_grow (s : Repos) {rows : List Profile} (writes : ℕ → Bool)
    {ids : Int → Prop} (hids : ∀ row ∈ rows, ids row.id) :
    RowsGrow s (s.execBatchInsertProfiles rows writes) ids :=
  RowsGrow.foldl _ (fun s _ => rowsGrow_ite s _ _ fun row hrow => hids row (mem_of_mem_chunk hrow))
    _ s

theorem execBatchReplaceProfiles_grow (s : Repos) {rows : List Profile} (writes : ℕ → Bool)
    {ids : Int → Prop} (hids : ∀ row ∈ rows, ids row.id) :
    RowsGrow s (s.execBatchReplaceProfiles rows writes) ids :=
  RowsGrow.foldl _ (fun s _ => rowsGrow_ite s _ _ fun row hrow => hids row (mem_of_mem_chunk hrow))
    _ s

theorem saveToDatabase_grow (s : Repos) (p : Profile) (write : Bool) :
    RowsGrow s (s.saveToDatabase p write) fun id => id = p.id :=
  rowsGrow_ite s _ [p] (by simp)

/-! ## The objects a section makes -/

/-- The objects that got ids, and the others. -/
theorem object_assignIds {s : Repos} {toAdd : List ℕ} {firstId gid : Int} {profile : ℕ}
    {p : Profile} (h : (s.assignIds toAdd firstId gid).object profile = some p) :
    ((firstId ≤ p.id ∧ p.id < firstId + toAdd.length) ∧ profile ∈ toAdd) ∨
      (profile ∉ toAdd ∧ s.object profile = some p) := by
  -- the induction is over the part of the list that is left, from its first index on
  have key : ∀ (l : List ℕ) (i : ℕ) (s : Repos),
      ((l.zipIdx i).foldl (fun s entry =>
        { s with
          profiles := s.profiles.set entry.1 (some ⟨firstId + entry.2, gid⟩)
          identityMap :=
            Function.update s.identityMap (firstId + entry.2) (some entry.1) }) s).object profile =
        some p →
      ((firstId + i ≤ p.id ∧ p.id < firstId + i + l.length) ∧ profile ∈ l) ∨
        (profile ∉ l ∧ s.object profile = some p) := by
    intro l
    induction l with
    | nil =>
      intro i s h
      exact Or.inr ⟨List.not_mem_nil, h⟩
    | cons x l ih =>
      intro i s h
      rw [List.zipIdx_cons, List.foldl_cons] at h
      rcases ih (i + 1) _ h with ⟨⟨hlo, hhi⟩, hmem⟩ | ⟨hnot, hobj⟩
      · left
        refine ⟨?_, List.mem_cons_of_mem x hmem⟩
        rw [List.length_cons]
        push_cast at hlo hhi ⊢
        omega
      · unfold object at hobj
        simp only at hobj
        rw [List.getElem?_set] at hobj
        split at hobj
        · rename_i heq
          left
          split at hobj
          · have hp : (⟨firstId + i, gid⟩ : Profile) = p := by simpa using hobj
            rw [← hp, List.length_cons]
            simp only
            push_cast
            exact ⟨by omega, heq ▸ List.mem_cons_self⟩
          · cases hobj
        · rename_i hne
          exact Or.inr ⟨by simp [Ne.symm hne, hnot], hobj⟩
  have := key toAdd 0 s h
  simpa using this

theorem assignIds_profileSide (s : Repos) (toAdd : List ℕ) (firstId gid : Int) :
    (s.assignIds toAdd firstId gid).profileSide =
      { s.profileSide with profiles := (s.assignIds toAdd firstId gid).profiles } := by
  unfold assignIds
  generalize toAdd.zipIdx = entries
  induction entries generalizing s with
  | nil => rfl
  | cons entry entries ih =>
    rw [List.foldl_cons, ih]
    rfl

theorem assignIds_length (s : Repos) (toAdd : List ℕ) (firstId gid : Int) :
    (s.assignIds toAdd firstId gid).profiles.length = s.profiles.length := by
  unfold assignIds
  generalize toAdd.zipIdx = entries
  induction entries generalizing s with
  | nil => rfl
  | cons entry entries ih =>
    rw [List.foldl_cons, ih]
    exact List.length_set

/-- Objects made of rows are added behind the others. -/
theorem foldl_loadProfile (loaded : List Profile) (s : Repos) :
    (loaded.foldl (fun s p => s.loadProfile p.id p.gid) s).profileSide =
      { s.profileSide with profiles := s.profiles ++ loaded.map some } := by
  induction loaded generalizing s with
  | nil => simp [profileSide]
  | cons p loaded ih =>
    rw [List.foldl_cons, ih]
    simp [profileSide, loadProfile]

theorem mem_loadProfilesByIds {missingIds : List Int} {reads : ℕ → Bool} {p : Profile}
    (h : p ∈ s.loadProfilesByIds missingIds reads) : s.profileRows p.id = some p.gid := by
  unfold loadProfilesByIds at h
  rw [List.mem_eraseDups, List.mem_flatMap] at h
  obtain ⟨k, -, hk⟩ := h
  split at hk
  · obtain ⟨id, -, hid⟩ := List.mem_filterMap.mp hk
    obtain ⟨gid, hrow, rfl⟩ := Option.map_eq_some_iff.mp hid
    exact hrow
  · cases hk

end Repos

/-! ## The calls -/

/-- A call that has drawn no id, with nothing its predecessor did not have. -/
structure Call.Below (next call : Call) : Prop where
  reserves : ∀ id, ¬ next.reserves id
  adding : next.adding ⊆ call.adding
  holding : next.holding ⊆ call.holding
  snapshot : next.snapshot = []

theorem Call.below_finished (call : Call) (result : Bool) : Call.Below (.finished result) call :=
  ⟨nofun, by simp [adding], by simp [holding, adding], rfl⟩

namespace ProfileSide

variable {a b : ProfileSide} {k : ℕ} {call next : Call}

/-- The ids stay orderly, and a step did to them what it may do. -/
structure Follows (a b : ProfileSide) : Prop where
  orderly : Orderly b
  advances : Advances a b

theorem Follows.refl (h : Orderly a) : Follows a a := ⟨h, Advances.refl a⟩

theorem Follows.settle (h : Orderly a) (hcall : a.calls[k]? = some call)
    (hbelow : next.Below call) : Follows a (a.settle k next) := by
  refine ⟨h.settle hcall hbelow.reserves hbelow.adding hbelow.holding ?_, ?_⟩
  · rw [hbelow.snapshot]
    nofun
  · exact Advances.of_rows_eq rfl rfl le_rfl fun id hid =>
      Or.inl (reserved_of_settle hbelow.reserves hid)

/-- A call ends its section with rows of its own ids, or with settled ones that were not
deleted, and the objects it was adding have got its ids. -/
theorem Follows.write (h : Orderly a) (hcall : a.calls[k]? = some call)
    (hbelow : next.Below call) {rows : Int → Option Int} {profiles : List (Option Profile)}
    (hlength : a.profiles.length ≤ profiles.length)
    (hkeep : ∀ id, (a.rows id).isSome → (rows id).isSome)
    (hnew : ∀ id, (rows id).isSome → (a.rows id).isSome ∨ call.reserves id ∨
      (a.Settled id ∧ a.tombstones id = false))
    (hprofiles : ∀ profile p, (profiles[profile]?).join = some p → a.object profile = some p ∨
      (call.reserves p.id ∧ profile ∈ call.adding ∧ next.adding = [])) :
    Follows a { a.settle k next with rows := rows, profiles := profiles } := by
  have hsettle := Follows.settle h hcall hbelow
  have hown : ∀ id, call.reserves id → (a.settle k next).Settled id := fun id hres =>
    ⟨(h.reserved id ⟨call, List.mem_of_getElem? hcall, hres⟩).2,
      h.not_reserved_settle hcall hbelow.reserves hres⟩
  have hobjects : Orderly { a.settle k next with profiles := profiles } := by
    refine hsettle.orderly.setObjects hlength fun profile p hp => ?_
    rcases hprofiles profile p hp with hold | ⟨hres, hmem, hnone⟩
    · exact Or.inl hold
    · refine Or.inr ⟨hown p.id hres, fun c hc hadding => ?_⟩
      obtain ⟨j, hj⟩ := List.mem_iff_getElem?.mp hc
      rcases getElem?_set_cases hj with ⟨-, rfl⟩ | ⟨hne, hj⟩
      · rw [hnone] at hadding
        cases hadding
      · exact hne (h.exclusive j k c call profile hj hcall hadding
          (Call.adding_subset_holding call hmem))
  refine ⟨?_, le_rfl, fun id hid => Or.inl (reserved_of_settle hbelow.reserves hid),
    fun _ hid => hid, ?_, fun id hid => Or.inl (hkeep id hid)⟩
  · refine hobjects.setRows fun id hid => ?_
    rcases hnew id hid with hold | hres | ⟨hsettled, -⟩
    · exact (h.rows id hold).settle hbelow.reserves
    · exact hown id hres
    · exact hsettled.settle hbelow.reserves
  · intro id hid
    rcases hnew id hid with hold | hres | ⟨-, htomb⟩
    · exact Or.inl hold
    · exact Or.inr (Or.inl ⟨call, List.mem_of_getElem? hcall, hres⟩)
    · exact Or.inr (Or.inr (Or.inl htomb))

/-- A call ends its section by deleting rows, all of which leave a tombstone. -/
theorem Follows.delete (h : Orderly a) (hcall : a.calls[k]? = some call)
    (hbelow : next.Below call) (deleted : Int → Prop) [DecidablePred deleted]
    (deletedIds : Int → Bool)
    (hdeleted : ∀ id, deleted id → (a.rows id).isSome → deletedIds id = true) :
    Follows a
      { a.settle k next with
        rows := fun id => if deleted id then none else a.rows id
        tombstones := fun id => deletedIds id || a.tombstones id } := by
  have hsettle := Follows.settle h hcall hbelow
  have hrows : ∀ id, (if deleted id then none else a.rows id).isSome → (a.rows id).isSome := by
    intro id hid
    split at hid
    · cases hid
    · exact hid
  have htombstones : ∀ id, a.tombstones id = true → (deletedIds id || a.tombstones id) = true := by
    intro id hid
    rw [hid, Bool.or_true]
  have hleft : ∀ id, (a.rows id).isSome →
      (if deleted id then none else a.rows id).isSome ∨ (deletedIds id || a.tombstones id) = true := by
    intro id hid
    by_cases hdel : deleted id
    · exact Or.inr (by rw [hdeleted id hdel hid, Bool.true_or])
    · left
      rw [if_neg hdel]
      exact hid
  exact ⟨hsettle.orderly.setRows fun id hid => (h.rows id (hrows id hid)).settle hbelow.reserves,
    le_rfl, fun id hid => Or.inl (reserved_of_settle hbelow.reserves hid), htombstones,
    fun id hid => Or.inl (hrows id hid), hleft⟩

end ProfileSide

namespace Repos

open ProfileSide

variable {s : Repos} {k : ℕ} {db : DbAnswers} {call : Call}

theorem advance_profileSide (hcall : s.calls[k]? = some call) :
    (s.advance k db).profileSide =
      (s.resume db call).1.profileSide.settle k (s.resume db call).2 := by
  unfold advance
  rw [hcall]
  rfl

/-- A section that leaves the profiles alone. -/
theorem follows_quiet {t : Repos} {next : Call} (h : Orderly s.profileSide)
    (hcall : s.calls[k]? = some call) (ht : t.profileSide = s.profileSide)
    (hbelow : next.Below call) : Follows s.profileSide (t.profileSide.settle k next) := by
  rw [ht]
  exact Follows.settle h hcall hbelow

/-- A section that writes rows. -/
theorem follows_grow {t : Repos} {next : Call} {ids : Int → Prop} (h : Orderly s.profileSide)
    (hcall : s.calls[k]? = some call) (hgrow : RowsGrow s t ids) (hbelow : next.Below call)
    (hids : ∀ id, ids id → call.reserves id ∨
      (s.profileSide.Settled id ∧ s.tombstones id = false)) :
    Follows s.profileSide (t.profileSide.settle k next) := by
  obtain ⟨⟨rows, ht⟩, hkeep, hnew⟩ := hgrow
  have hrows : t.profileRows = rows := congrArg ProfileSide.rows ht
  rw [hrows] at hkeep hnew
  rw [ht]
  refine Follows.write h hcall hbelow le_rfl hkeep (fun id hid => ?_) fun _ _ hp => Or.inl hp
  rcases hnew id hid with hold | hid
  · exact Or.inl hold
  · exact Or.inr (hids id hid)

theorem follows_addInsert {profile : ℕ} {newId : Int} (h : Orderly s.profileSide)
    (hcall : s.calls[k]? = some (.addInsert profile newId)) :
    Follows s.profileSide ((s.resume db (.addInsert profile newId)).1.profileSide.settle k
      (s.resume db (.addInsert profile newId)).2) := by
  simp only [resume]
  cases hobj : s.object profile with
  | none => exact follows_quiet h hcall rfl (Call.below_finished _ _)
  | some p =>
    simp only
    cases hget : s.GetGroup p.gid db with
    | mk t group =>
      have hside := GetGroup_fst_profileSide hget
      cases group with
      | none => exact follows_quiet h hcall hside (Call.below_finished _ _)
      | some group =>
        have hid : p.id = newId := h.ownId profile newId (List.mem_of_getElem? hcall) p hobj
        have hgrow := RowsGrow.of_profileSide_eq hside (saveToDatabase_grow
          { t with identityMap := Function.update t.identityMap newId (some profile) } p
          (db.writes 1))
        exact follows_grow h hcall hgrow ⟨fun _ => by simp [Call.reserves], by simp [Call.adding],
          by simp [Call.holding, Call.adding], rfl⟩ fun _ hid' => Or.inl (hid'.trans hid)

theorem follows_batchInsert {toAdd : List ℕ} {gid : Int} {group : ℕ} {firstId : Int}
    (h : Orderly s.profileSide)
    (hcall : s.calls[k]? = some (.batchInsert toAdd gid group firstId)) :
    Follows s.profileSide
      ((s.resume db (.batchInsert toAdd gid group firstId)).1.profileSide.settle k
        (s.resume db (.batchInsert toAdd gid group firstId)).2) := by
  simp only [resume]
  cases hget : s.GetGroup gid db with
  | mk t found =>
    have hside := GetGroup_fst_profileSide hget
    cases found with
    | none => exact follows_quiet h hcall hside (Call.below_finished _ _)
    | some found =>
      simp only [saveGroup_profileSide, editGroup_profileSide, insertBatch]
      -- the rows and the objects that are new have ids of the range
      have hrows : RowsGrow (t.assignIds toAdd firstId gid)
          ((t.assignIds toAdd firstId gid).execBatchInsertProfiles
            (toAdd.filterMap (t.assignIds toAdd firstId gid).object) fun k => db.writes (k + 1))
          fun id => firstId ≤ id ∧ id < firstId + toAdd.length := by
        refine execBatchInsertProfiles_grow _ _ fun row hrow => ?_
        obtain ⟨profile, hmem, hobj⟩ := List.mem_filterMap.mp hrow
        rcases object_assignIds hobj with ⟨hrange, -⟩ | ⟨hnot, -⟩
        · exact hrange
        · exact absurd hmem hnot
      obtain ⟨⟨rows, hu⟩, hkeep, hnew⟩ := hrows
      have hu_rows := congrArg ProfileSide.rows hu
      have hassign := assignIds_profileSide t toAdd firstId gid
      have hassign_rows : (t.assignIds toAdd firstId gid).profileRows = s.profileRows :=
        (congrArg ProfileSide.rows hassign).trans (congrArg ProfileSide.rows hside)
      simp only [profileSide] at hu_rows
      rw [hu_rows, hassign_rows] at hkeep hnew
      have hlength : s.profileSide.profiles.length ≤
          (t.assignIds toAdd firstId gid).profiles.length := by
        rw [assignIds_length]
        exact le_of_eq (congrArg (fun a => a.profiles.length) hside).symm
      rw [hu, hassign, hside]
      refine Follows.write h hcall (Call.below_finished _ _) hlength hkeep ?_ ?_
      · intro id hid
        rcases hnew id hid with hold | hrange
        · exact Or.inl hold
        · exact Or.inr (Or.inl hrange)
      · intro profile p hp
        rcases object_assignIds hp with ⟨hrange, hmem⟩ | ⟨-, hold⟩
        · exact Or.inr ⟨hrange, hmem, rfl⟩
        · left
          unfold Repos.object at hold
          rw [show t.profiles = s.profiles from congrArg ProfileSide.profiles hside] at hold
          exact hold

theorem follows_batchRange {toAdd : List ℕ} {gid : Int} {group : ℕ}
    (h : Orderly s.profileSide) (hcall : s.calls[k]? = some (.batchRange toAdd gid group))
    (hcounter : db.writes 0 = true) :
    Follows s.profileSide ((s.resume db (.batchRange toAdd gid group)).1.profileSide.settle k
      (s.resume db (.batchRange toAdd gid group)).2) := by
  simp only [resume]
  rw [if_pos hcounter]
  have hlast : s.profile_last_id ≤ s.profile_last_id + toAdd.length := by omega
  have hnext : ∀ id, Call.reserves (.batchInsert toAdd gid group (s.profile_last_id + 1)) id →
      s.profile_last_id < id ∧ id ≤ s.profile_last_id + toAdd.length := by
    rintro id ⟨hlo, hhi⟩
    exact ⟨by omega, by omega⟩
  refine ⟨h.draw (.batchInsert toAdd gid group (s.profile_last_id + 1))
    (s.profile_last_id + toAdd.length) s.profiles hcall (List.Subset.refl _)
    (List.Subset.refl _) rfl hlast hnext le_rfl (fun _ _ hp => Or.inl hp) nofun,
    Advances.of_rows_eq rfl rfl hlast ?_⟩
  rintro id ⟨c, hc, hid⟩
  rcases List.mem_or_eq_of_mem_set hc with hc | rfl
  · exact Or.inl ⟨c, hc, hid⟩
  · exact Or.inr (hnext id hid).1

theorem follows_saveBatchRows {profiles : List ℕ} (h : Orderly s.profileSide)
    (hcall : s.calls[k]? = some (.saveBatchRows profiles)) :
    Follows s.profileSide ((s.resume db (.saveBatchRows profiles)).1.profileSide.settle k
      (s.resume db (.saveBatchRows profiles)).2) := by
  simp only [resume]
  split
  · exact follows_quiet h hcall rfl (Call.below_finished _ _)
  · refine ⟨h.settle hcall (fun _ => by simp [Call.reserves]) (by simp [Call.adding]) ?_ ?_,
      Advances.of_rows_eq rfl rfl le_rfl fun id hid =>
        Or.inl (reserved_of_settle (fun _ => by simp [Call.reserves]) hid)⟩
    · intro profile hp
      exact List.mem_of_mem_filter hp
    · -- an object the call holds is nobody's to add
      intro row hrow
      obtain ⟨profile, hvalid, hobj⟩ := List.mem_filterMap.mp hrow
      refine ⟨h.objects profile row hobj, ?_⟩
      rintro ⟨c, hc, hid⟩
      obtain ⟨j, hj⟩ := List.mem_iff_getElem?.mp hc
      have hadding := h.own c hc profile row hid hobj
      have heq := h.exclusive j k c _ profile hj hcall hadding (List.mem_of_mem_filter hvalid)
      rw [heq] at hj
      rw [Option.some.inj (hj.symm.trans hcall)] at hid
      exact hid

theorem saveRows_grow (s : Repos) (rows : List Profile) (valid : List ℕ) (writes : ℕ → Bool) :
    RowsGrow s (s.saveRows rows valid writes)
      fun id => (∃ row ∈ rows, row.id = id) ∧ s.tombstones id = false := by
  unfold saveRows
  have hgrow := @execBatchReplaceProfiles_grow s (rows.filter fun row =>
    !s.tombstones row.id) writes (fun id => (∃ row ∈ rows, row.id = id) ∧
      s.tombstones id = false) fun row hrow => by
    rw [List.mem_filter, Bool.not_eq_true'] at hrow
    exact ⟨⟨row, hrow.1, rfl⟩, hrow.2⟩
  refine hgrow.trans ?_
  refine RowsGrow.of_profileSide_eq_right (foldl_profileSide _ (fun s profile => ?_) _ _)
  cases s.object profile with
  | none => rfl
  | some p =>
    simp only
    split <;> rfl

theorem follows_saveBatchWrite {rows : List Profile} {valid : List ℕ}
    (h : Orderly s.profileSide) (hcall : s.calls[k]? = some (.saveBatchWrite rows valid)) :
    Follows s.profileSide ((s.resume db (.saveBatchWrite rows valid)).1.profileSide.settle k
      (s.resume db (.saveBatchWrite rows valid)).2) := by
  refine follows_grow h hcall (saveRows_grow s rows valid db.writes) (Call.below_finished _ _) ?_
  rintro id ⟨⟨row, hrow, rfl⟩, htomb⟩
  exact Or.inr ⟨h.snapshots _ (List.mem_of_getElem? hcall) row hrow, htomb⟩

/-- Nobody is adding an object that was not there. -/
theorem follows_push (h : Orderly s.profileSide) {loaded : List Profile}
    (hsettled : ∀ p ∈ loaded, s.profileSide.Settled p.id) :
    Follows s.profileSide { s.profileSide with profiles := s.profiles ++ loaded.map some } := by
  refine ⟨h.setObjects ?_ fun profile p hp => ?_, Advances.of_rows_eq rfl rfl le_rfl fun _ => Or.inl⟩
  · rw [List.length_append]
    exact Nat.le_add_right _ _
  · rw [List.getElem?_append] at hp
    split at hp
    · exact Or.inl hp
    · rename_i hge
      have hmem : p ∈ loaded := by
        rw [List.getElem?_map] at hp
        cases hget : loaded[profile - s.profiles.length]? with
        | none =>
          rw [hget] at hp
          cases hp
        | some q =>
          rw [hget] at hp
          rw [← Option.some.inj hp]
          exact List.mem_of_getElem? hget
      exact Or.inr ⟨hsettled p hmem, fun c hc hadding =>
        hge (h.placed c hc profile hadding)⟩

theorem follows_deleteRead {ids : List Int} (h : Orderly s.profileSide)
    (hcall : s.calls[k]? = some (.deleteRead ids)) :
    Follows s.profileSide ((s.resume db (.deleteRead ids)).1.profileSide.settle k
      (s.resume db (.deleteRead ids)).2) := by
  simp only [resume, GetProfileBatch]
  rw [foldl_loadProfile]
  have hrows : ∀ p ∈ s.loadProfilesByIds (ids.filter fun id => (s.mapped id).isNone) db.reads,
      s.profileSide.Settled p.id := by
    intro p hp
    exact h.rows p.id (Option.isSome_of_mem (mem_loadProfilesByIds hp))
  refine ⟨?_, Advances.of_rows_eq rfl rfl le_rfl fun id hid =>
    Or.inl (reserved_of_settle (fun _ => by simp [Call.reserves]) hid)⟩
  exact (follows_push h hrows).orderly.settle hcall (fun _ => by simp [Call.reserves]) (by simp [Call.adding])
    (by simp [Call.holding, Call.adding]) nofun

theorem follows_deleteRows {ids existing groupIDs : List Int} (h : Orderly s.profileSide)
    (hcall : s.calls[k]? = some (.deleteRows ids existing groupIDs))
    (hfound : Call.Regular s db (.deleteRows ids existing groupIDs)) :
    Follows s.profileSide ((s.resume db (.deleteRows ids existing groupIDs)).1.profileSide.settle k
      (s.resume db (.deleteRows ids existing groupIDs)).2) := by
  simp only [resume]
  split
  · rename_i hwrite
    exact Follows.delete h hcall ⟨fun _ => by simp [Call.reserves], by simp [Call.adding],
      by simp [Call.holding, Call.adding], rfl⟩ (fun id => id ∈ ids) (fun id => id ∈ existing)
      fun id hmem hid => decide_eq_true (hfound hwrite id hmem hid)
  · exact follows_quiet h hcall rfl (Call.below_finished _ _)

theorem follows_groupDelete {gid : Int} {listed : List Int} {found : Bool}
    (h : Orderly s.profileSide) (hcall : s.calls[k]? = some (.groupDelete gid listed found)) :
    Follows s.profileSide ((s.resume db (.groupDelete gid listed found)).1.profileSide.settle k
      (s.resume db (.groupDelete gid listed found)).2) := by
  simp only [resume]
  split
  · exact Follows.delete h hcall (Call.below_finished _ _) _ _ fun _ hdel _ => hdel
  · exact follows_quiet h hcall rfl (Call.below_finished _ _)

/-- **Every section of a call keeps the ids orderly.** -/
theorem follows_resume (h : Orderly s.profileSide) (hcall : s.calls[k]? = some call)
    (hregular : call.Regular s db) :
    Follows s.profileSide ((s.resume db call).1.profileSide.settle k (s.resume db call).2) := by
  cases call with
  | addInsert profile newId => exact follows_addInsert h hcall
  | batchRange toAdd gid group => exact follows_batchRange h hcall hregular
  | batchInsert toAdd gid group firstId => exact follows_batchInsert h hcall
  | saveBatchRows profiles => exact follows_saveBatchRows h hcall
  | saveBatchWrite rows valid => exact follows_saveBatchWrite h hcall
  | deleteRead ids => exact follows_deleteRead h hcall
  | deleteRows ids existing groupIDs => exact follows_deleteRows h hcall hregular
  | groupDelete id listed found => exact follows_groupDelete h hcall
  | addFind profile =>
    simp only [resume]
    cases hobj : s.object profile with
    | none => exact follows_quiet h hcall rfl (Call.below_finished _ _)
    | some p =>
      simp only
      cases hget : s.GetGroup p.gid db with
      | mk t group =>
        have hside := GetGroup_fst_profileSide hget
        cases group with
        | none => exact follows_quiet h hcall hside (Call.below_finished _ _)
        | some group =>
          exact follows_quiet h hcall hside ⟨fun _ => by simp [Call.reserves], by simp [Call.adding],
            by simp [Call.holding], rfl⟩
  | addList profile group =>
    simp only [resume]
    cases hobj : s.object profile with
    | none => exact follows_quiet h hcall rfl (Call.below_finished _ _)
    | some p =>
      exact follows_quiet h hcall (editGroup_profileSide _ _ _) ⟨fun _ => by simp [Call.reserves],
        by simp [Call.adding], by simp [Call.holding, Call.adding], rfl⟩
  | addSave group =>
    exact follows_quiet h hcall (saveGroup_profileSide _ _ _) (Call.below_finished _ _)
  | batchFind profiles gid =>
    simp only [resume]
    cases hget : s.GetGroup gid db with
    | mk t group =>
      have hside := GetGroup_fst_profileSide hget
      cases group with
      | none => exact follows_quiet h hcall hside (Call.below_finished _ _)
      | some group =>
        simp only
        split
        · exact follows_quiet h hcall hside (Call.below_finished _ _)
        · have hsub : (profiles.filter fun profile => (t.object profile).any fun p => p.id < 0) ⊆
              profiles := fun profile hp => List.mem_of_mem_filter hp
          exact follows_quiet h hcall hside ⟨fun _ => by simp [Call.reserves], hsub, hsub, rfl⟩
  | unlist ids groupIDs =>
    cases groupIDs with
    | nil => exact follows_quiet h hcall rfl (Call.below_finished _ _)
    | cons gid groupIDs =>
      simp only [resume]
      cases hget : s.GetGroup gid db with
      | mk t group =>
        have hside := GetGroup_fst_profileSide hget
        cases group <;>
          exact follows_quiet h hcall hside ⟨fun _ => by simp [Call.reserves], by simp [Call.adding],
            by simp [Call.holding, Call.adding], rfl⟩
  | unlistFrom ids group groupIDs =>
    simp only [resume]
    exact follows_quiet h hcall (editGroup_profileSide _ _ _) ⟨fun _ => by simp [Call.reserves],
      by simp [Call.adding], by simp [Call.holding, Call.adding], rfl⟩
  | unlistSave ids group groupIDs =>
    simp only [resume]
    exact follows_quiet h hcall (saveGroup_profileSide _ _ _) ⟨fun _ => by simp [Call.reserves],
      by simp [Call.adding], by simp [Call.holding, Call.adding], rfl⟩
  | groupFind id =>
    simp only [resume]
    cases hget : s.GetGroup id db with
    | mk t group =>
      have hside := GetGroup_fst_profileSide hget
      cases group <;>
        exact follows_quiet h hcall hside ⟨fun _ => by simp [Call.reserves], by simp [Call.adding],
          by simp [Call.holding, Call.adding], rfl⟩
  | finished result => exact follows_quiet h hcall rfl (Call.below_finished _ _)

/-! ## The steps -/

/-- The ids of an object nobody is adding are settled. -/
theorem settled_of_not_beingAdded (h : Orderly s.profileSide) {profile : ℕ} {p : Profile}
    (hobj : s.object profile = some p) (hnot : ¬ s.beingAdded profile) :
    s.profileSide.Settled p.id := by
  refine ⟨h.objects profile p hobj, ?_⟩
  rintro ⟨c, hc, hid⟩
  exact hnot ⟨c, hc, h.own c hc profile p hid hobj⟩

theorem not_adding_of_not_held {profile : ℕ} (hnot : ¬ s.isHeld profile) :
    ∀ c ∈ s.calls, profile ∉ c.holding := fun c hc hmem => hnot ⟨c, hc, hmem⟩

theorem follows_GetProfile (h : Orderly s.profileSide) (id : Int) :
    Follows s.profileSide (s.GetProfile id db).profileSide := by
  unfold GetProfile
  cases s.mapped id with
  | some p => exact Follows.refl h
  | none =>
    cases hrow : s.profileRows id with
    | none => exact Follows.refl h
    | some gid =>
      simp only
      split
      · refine @follows_push _ h [⟨id, gid⟩] fun p hp => ?_
        rw [List.mem_singleton.mp hp]
        exact h.rows id (by rw [show s.profileSide.rows id = some gid from hrow]; rfl)
      · exact Follows.refl h

theorem follows_moveProfile (h : Orderly s.profileSide) {profile : ℕ} (gid : Int)
    (hnot : ¬ s.beingAdded profile) :
    Follows s.profileSide (s.moveProfile profile gid).profileSide := by
  unfold moveProfile
  cases hobj : s.object profile with
  | none => exact Follows.refl h
  | some p =>
    refine ⟨h.setObjects (le_of_eq List.length_set.symm) fun place q hq => ?_,
      Advances.of_rows_eq rfl rfl le_rfl fun _ => Or.inl⟩
    rw [List.getElem?_set] at hq
    split at hq
    · rename_i heq
      split at hq
      · have hq' : ({ p with gid := gid } : Profile) = q := by simpa using hq
        have hsettled := settled_of_not_beingAdded h hobj hnot
        rw [← hq', ← heq]
        exact Or.inr ⟨hsettled, fun c hc hmem => hnot ⟨c, hc, hmem⟩⟩
      · cases hq
    · exact Or.inl hq

theorem follows_release (h : Orderly s.profileSide) (profile : ℕ) :
    Follows s.profileSide { s.profileSide with profiles := s.profiles.set profile none } := by
  refine ⟨h.setObjects (le_of_eq List.length_set.symm) fun place q hq => ?_,
    Advances.of_rows_eq rfl rfl le_rfl fun _ => Or.inl⟩
  rw [List.getElem?_set] at hq
  split at hq
  · split at hq <;> cases hq
  · exact Or.inl hq

/-- A call that has drawn no id starts. -/
theorem follows_start (h : Orderly s.profileSide) {call : Call}
    (hreserves : ∀ id, ¬ call.reserves id) (hsnapshot : call.snapshot = [])
    (hplaced : ∀ profile ∈ call.adding, profile < s.profiles.length)
    (hadding : ∀ profile ∈ call.adding, ¬ s.isHeld profile)
    (hholding : ∀ profile ∈ call.holding, ¬ s.beingAdded profile) :
    Follows s.profileSide { s with calls := s.calls ++ [call] }.profileSide := by
  refine ⟨h.start hreserves hsnapshot hplaced
    (fun profile hp c hc hmem => hadding profile hp ⟨c, hc, hmem⟩)
    fun profile hp c hc hmem => hholding profile hp ⟨c, hc, hmem⟩, ?_⟩
  refine Advances.of_rows_eq rfl rfl le_rfl ?_
  rintro id ⟨c, hc, hid⟩
  rcases List.mem_append.mp hc with hc | hc
  · exact Or.inl ⟨c, hc, hid⟩
  · rw [List.mem_singleton.mp hc] at hid
    exact absurd hid (hreserves id)

/-- A call that holds no object starts. -/
theorem follows_start_plain (h : Orderly s.profileSide) {call : Call}
    (hbelow : call.Below (.finished true)) :
    Follows s.profileSide { s with calls := s.calls ++ [call] }.profileSide := by
  refine follows_start h hbelow.reserves hbelow.snapshot ?_ ?_ ?_
  · exact fun profile hp => nomatch hbelow.adding hp
  · exact fun profile hp => nomatch hbelow.adding hp
  · exact fun profile hp => nomatch hbelow.holding hp

/-- `Save` writes the row of an object nobody is adding, unless its id was deleted. -/
theorem follows_Save (h : Orderly s.profileSide) {profile : ℕ} (hnot : ¬ s.beingAdded profile)
    (write : Bool) : Follows s.profileSide (s.Save profile write).1.profileSide := by
  unfold Save
  cases hobj : s.object profile with
  | none => exact Follows.refl h
  | some p =>
    simp only
    split
    · exact Follows.refl h
    · split
      · exact Follows.refl h
      · rename_i htomb
        obtain ⟨⟨rows, ht⟩, hkeep, hnew⟩ := saveToDatabase_grow s p write
        have hrows : (s.saveToDatabase p write).profileRows = rows :=
          congrArg ProfileSide.rows ht
        rw [hrows] at hkeep hnew
        have hsettled := settled_of_not_beingAdded h hobj hnot
        show Follows s.profileSide (s.saveToDatabase p write).profileSide
        rw [ht]
        refine ⟨h.setRows fun id hid => ?_, le_rfl, fun _ => Or.inl, fun _ hid => hid,
          fun id hid => ?_, fun id hid => Or.inl (hkeep id hid)⟩
        · rcases hnew id hid with hold | rfl
          · exact h.rows id hold
          · exact hsettled
        · rcases hnew id hid with hold | rfl
          · exact Or.inl hold
          · exact Or.inr (Or.inr (Or.inl (Bool.eq_false_of_not_eq_true htomb)))

theorem lt_length_of_object {profile : ℕ} {p : Profile} (hobj : s.object profile = some p) :
    profile < s.profiles.length := by
  by_contra hge
  unfold object at hobj
  rw [List.getElem?_eq_none (Nat.le_of_not_lt hge)] at hobj
  cases hobj

theorem beingAdded.isHeld {profile : ℕ} (h : s.beingAdded profile) : s.isHeld profile := by
  obtain ⟨c, hc, hmem⟩ := h
  exact ⟨c, hc, c.adding_subset_holding hmem⟩

theorem follows_AddProfile (h : Orderly s.profileSide) {profile : ℕ} (gid current_group : Int)
    (hnot : ¬ s.isHeld profile) :
    Follows s.profileSide (s.AddProfile profile gid current_group true).profileSide := by
  unfold AddProfile
  cases hobj : s.object profile with
  | none => exact Follows.refl h
  | some p =>
    simp only
    split
    · exact follows_start_plain h (Call.below_finished _ _)
    · -- the call is taken to start before it draws its id
      have hstart := @follows_start _ h (.batchFind [profile] 0)
        (fun _ => by simp [Call.reserves]) rfl
        (by simpa [Call.adding] using lt_length_of_object hobj) (by simpa [Call.adding] using hnot)
        (by simpa [Call.holding, Call.adding] using fun hadd => hnot (beingAdded.isHeld hadd))
      have hplace : (s.calls ++ [Call.batchFind [profile] 0])[s.calls.length]? =
          some (.batchFind [profile] 0) := by simp
      have hlast : s.profile_last_id ≤ s.profile_last_id + 1 := by omega
      have hobject : ∀ place q, ((s.profiles.set profile
          (some ⟨s.profile_last_id + 1, if gid < 0 then current_group else gid⟩))[place]?).join =
            some q → (place ≠ profile ∧ s.object place = some q) ∨
            (place = profile ∧ q.id = s.profile_last_id + 1) := by
        intro place q hq
        rw [List.getElem?_set] at hq
        split at hq
        · rename_i heq
          split at hq
          · rw [← Option.some.inj hq]
            exact Or.inr ⟨heq.symm, rfl⟩
          · cases hq
        · rename_i hne
          exact Or.inl ⟨Ne.symm hne, hq⟩
      have hdraw := hstart.orderly.draw (.addInsert profile (s.profile_last_id + 1))
        (s.profile_last_id + 1) _ hplace (List.Subset.refl _) (List.Subset.refl _) rfl hlast
        (fun id hid => ⟨by rw [show id = _ from hid]; exact Int.lt_succ _, le_of_eq hid⟩)
        (le_of_eq List.length_set.symm)
        (fun place q hq => (hobject place q hq).imp And.right fun hnew =>
          ⟨by simp [Call.adding, hnew.1], by rw [hnew.2]; exact Int.lt_succ _, le_of_eq hnew.2⟩)
        (fun place newId hnext q hq => by
          obtain ⟨rfl, rfl⟩ := Call.addInsert.inj hnext
          exact ((hobject _ q hq).resolve_left fun hne => hne.1 rfl).2)
      have hcalls : (s.calls ++ [Call.batchFind [profile] 0]).set s.calls.length
          (.addInsert profile (s.profile_last_id + 1)) =
          s.calls ++ [.addInsert profile (s.profile_last_id + 1)] := by simp
      have horderly : Orderly (profileSide { s with
          profile_last_id := s.profile_last_id + 1
          profiles := s.profiles.set profile
            (some ⟨s.profile_last_id + 1, if gid < 0 then current_group else gid⟩)
          calls := s.calls ++ [.addInsert profile (s.profile_last_id + 1)] }) := by
        unfold profileSide
        rw [← hcalls]
        exact hdraw
      refine ⟨horderly, Advances.of_rows_eq rfl rfl hlast ?_⟩
      rintro id ⟨c, hc, hid⟩
      rcases List.mem_append.mp hc with hc | hc
      · exact Or.inl ⟨c, hc, hid⟩
      · rw [List.mem_singleton.mp hc] at hid
        rw [show id = s.profile_last_id + 1 from hid]
        exact Or.inr (Int.lt_succ _)

/-- **Every regular step keeps the ids orderly.** -/
theorem follows_step (h : Orderly s.profileSide) {event : Event} (hregular : event.Regular s) :
    Follows s.profileSide (s.step event).profileSide := by
  cases event with
  | newProfile =>
    refine @follows_push _ h [⟨-1, 0⟩] fun p hp => ?_
    rw [List.mem_singleton.mp hp]
    have hcounted : (0 : Int) ≤ s.profileSide.last := h.counted
    refine ⟨?_, fun hr => absurd (h.reserved _ hr).1 (by decide)⟩
    show (-1 : Int) ≤ s.profileSide.last
    omega
  | getProfile id db => exact follows_GetProfile h id
  | moveProfile profile gid =>
    simp only [step]
    split
    · exact Follows.refl h
    · rename_i hnot
      exact follows_moveProfile h gid hnot
  | release profile =>
    simp only [step]
    split
    · exact Follows.refl h
    · exact follows_release h profile
  | addGroup db => exact Follows.refl h
  | getGroup id db =>
    simp only [step, GetGroup_profileSide]
    exact Follows.refl h
  | editGroup group edit =>
    simp only [step, editGroup_profileSide]
    exact Follows.refl h
  | saveGroup group write =>
    simp only [step, saveGroup_profileSide]
    exact Follows.refl h
  | addProfile profile gid current_group write =>
    simp only [step]
    split
    · exact Follows.refl h
    · rename_i hnot
      rw [show write = true from hregular]
      exact follows_AddProfile h gid current_group hnot
  | addProfileBatch profiles gid current_group =>
    simp only [step]
    split
    · exact Follows.refl h
    · rename_i hnot
      push Not at hnot
      refine follows_start h (fun _ => by simp [Call.reserves]) rfl (fun profile hp => ?_)
        (fun profile hp => (hnot profile hp).1)
        fun profile hp hadd => (hnot profile hp).1 (beingAdded.isHeld hadd)
      obtain ⟨p, hobj⟩ := Option.ne_none_iff_exists'.mp (hnot profile hp).2
      exact lt_length_of_object hobj
  | save profile write =>
    simp only [step]
    split
    · exact Follows.refl h
    · rename_i hnot
      exact follows_Save h hnot write
  | saveBatch profiles =>
    simp only [step]
    split
    · exact Follows.refl h
    · rename_i hnot
      push Not at hnot
      exact follows_start h (fun _ => by simp [Call.reserves]) rfl (by simp [Call.adding])
        (by simp [Call.adding]) hnot
  | batchDeleteProfiles ids stopRunningProfile started_id =>
    simp only [step, BatchDeleteProfiles]
    generalize (if stopRunningProfile then ids else ids.filter fun id => id ≠ started_id) = left
    refine follows_start_plain h ?_
    split
    · exact Call.below_finished _ _
    · exact ⟨fun _ => by simp [Call.reserves], by simp [Call.adding],
        by simp [Call.holding, Call.adding], rfl⟩
  | deleteGroup id =>
    exact follows_start_plain h ⟨fun _ => by simp [Call.reserves], by simp [Call.adding],
      by simp [Call.holding, Call.adding], rfl⟩
  | advance k db =>
    simp only [step]
    cases hcall : s.calls[k]? with
    | none =>
      unfold advance
      rw [hcall]
      exact Follows.refl h
    | some call =>
      rw [advance_profileSide hcall]
      exact follows_resume h hcall (hregular call hcall)

end Repos

end Throned.Database
