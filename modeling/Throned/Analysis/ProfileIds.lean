import Mathlib.Algebra.Order.Ring.Int
import Throned.Library.Actors
import Throned.Model.Repos

/-!
# The ids of the profiles

What the sections of the two repositories do to the rows, the ids and the objects of the
profiles.  An id that the counter gave out is reserved until the call that drew it has had
its insert; no row, and no object but those being added, has a reserved id.
-/

set_option autoImplicit false

namespace Throned.Database

open Throned.Library

/-- The ids a call has drawn and not inserted yet. -/
def Call.reserves : Call → Int → Prop
  | .addInsert _ newId, id => id = newId
  | .batchInsert toAdd _ _ firstId, id => firstId ≤ id ∧ id < firstId + toAdd.length
  | _, _ => False

/-- The rows a call made before it took the lock. -/
def Call.snapshot : Call → List Profile
  | .saveBatchWrite rows _ => rows
  | _ => []

theorem Call.adding_subset_holding (call : Call) : call.adding ⊆ call.holding := by
  intro profile h
  cases call <;> simp_all [Call.adding, Call.holding]

/-- The part of the two repositories that decides which ids have rows. -/
structure ProfileSide where
  rows : Int → Option Int
  last : Int
  tombstones : Int → Bool
  profiles : List (Option Profile)
  calls : List Call

def Repos.profileSide (s : Repos) : ProfileSide :=
  { rows := s.profileRows, last := s.profile_last_id, tombstones := s.tombstones
    profiles := s.profiles, calls := s.calls }

namespace ProfileSide

def object (a : ProfileSide) (profile : ℕ) : Option Profile := (a.profiles[profile]?).join

def reserved (a : ProfileSide) (id : Int) : Prop := ∃ call ∈ a.calls, call.reserves id

/-- An id that was drawn, and that no call is going to insert. -/
def Settled (a : ProfileSide) (id : Int) : Prop := id ≤ a.last ∧ ¬ a.reserved id

/-- **No id is drawn twice, and nobody but its call uses an id before its insert.** -/
structure Orderly (a : ProfileSide) : Prop where
  counted : 0 ≤ a.last
  rows : ∀ id, (a.rows id).isSome → a.Settled id
  objects : ∀ profile p, a.object profile = some p → p.id ≤ a.last
  reserved : ∀ id, a.reserved id → 0 < id ∧ id ≤ a.last
  apart : ∀ (j k : ℕ) (c d : Call) (id : Int), a.calls[j]? = some c → a.calls[k]? = some d →
    c.reserves id → d.reserves id → j = k
  own : ∀ call ∈ a.calls, ∀ profile p, call.reserves p.id → a.object profile = some p →
    profile ∈ call.adding
  ownId : ∀ profile newId, Call.addInsert profile newId ∈ a.calls →
    ∀ p, a.object profile = some p → p.id = newId
  exclusive : ∀ (j k : ℕ) (c d : Call) (profile : ℕ), a.calls[j]? = some c →
    a.calls[k]? = some d → profile ∈ c.adding → profile ∈ d.holding → j = k
  snapshots : ∀ call ∈ a.calls, ∀ row ∈ call.snapshot, a.Settled row.id
  placed : ∀ call ∈ a.calls, ∀ profile ∈ call.adding, profile < a.profiles.length

variable {a : ProfileSide}

/-! ## The calls -/

/-- A call that has drawn no id starts. -/
theorem Orderly.start (h : Orderly a) {call : Call} (hreserves : ∀ id, ¬ call.reserves id)
    (hsnapshot : call.snapshot = [])
    (hplaced : ∀ profile ∈ call.adding, profile < a.profiles.length)
    (hadding : ∀ profile ∈ call.adding, ∀ c ∈ a.calls, profile ∉ c.holding)
    (hholding : ∀ profile ∈ call.holding, ∀ c ∈ a.calls, profile ∉ c.adding) :
    Orderly { a with calls := a.calls ++ [call] } := by
  have hback : ∀ id, ProfileSide.reserved { a with calls := a.calls ++ [call] } id →
      a.reserved id := by
    rintro id ⟨c, hc, hid⟩
    rcases List.mem_append.mp hc with hc | hc
    · exact ⟨c, hc, hid⟩
    · rw [List.mem_singleton.mp hc] at hid
      exact absurd hid (hreserves id)
  have hsettled : ∀ id, a.Settled id →
      ProfileSide.Settled { a with calls := a.calls ++ [call] } id := by
    intro id hid
    exact ⟨hid.1, fun hr => hid.2 (hback id hr)⟩
  have hget : ∀ (j : ℕ) (c : Call), (a.calls ++ [call])[j]? = some c →
      a.calls[j]? = some c ∨ (j = a.calls.length ∧ c = call) := by
    intro j c hj
    rcases Nat.lt_trichotomy j a.calls.length with hlt | heq | hgt
    · rw [List.getElem?_append_left hlt] at hj
      exact Or.inl hj
    · rw [heq, List.getElem?_append_right (Nat.le_refl _), Nat.sub_self] at hj
      exact Or.inr ⟨heq, (Option.some.inj hj).symm⟩
    · rw [List.getElem?_eq_none (by rw [List.length_append, List.length_singleton]; omega)] at hj
      cases hj
  refine ⟨h.counted, fun id hid => hsettled id (h.rows id hid), h.objects,
    fun id hid => h.reserved id (hback id hid), ?_, ?_, ?_, ?_, ?_, ?_⟩
  · intro j k c d id hj hk hc hd
    rcases hget j c hj with hj | ⟨-, rfl⟩
    · rcases hget k d hk with hk | ⟨-, rfl⟩
      · exact h.apart j k c d id hj hk hc hd
      · exact absurd hd (hreserves id)
    · exact absurd hc (hreserves id)
  · intro c hc profile p hid hp
    rcases List.mem_append.mp hc with hc | hc
    · exact h.own c hc profile p hid hp
    · rw [List.mem_singleton.mp hc] at hid
      exact absurd hid (hreserves p.id)
  · intro profile newId hc
    rcases List.mem_append.mp hc with hc | hc
    · exact h.ownId profile newId hc
    · rw [← List.mem_singleton.mp hc] at hreserves
      exact absurd rfl (hreserves newId)
  · intro j k c d profile hj hk hc hd
    rcases hget j c hj with hjold | ⟨hjlen, rfl⟩
    · rcases hget k d hk with hkold | ⟨hklen, rfl⟩
      · exact h.exclusive j k c d profile hjold hkold hc hd
      · exact absurd hc (hholding profile hd c (List.mem_of_getElem? hjold))
    · rcases hget k d hk with hkold | ⟨hklen, rfl⟩
      · exact absurd hd (hadding profile hc d (List.mem_of_getElem? hkold))
      · exact hjlen.trans hklen.symm
  · intro c hc row hrow
    rcases List.mem_append.mp hc with hc | hc
    · exact hsettled row.id (h.snapshots c hc row hrow)
    · rw [List.mem_singleton.mp hc, hsnapshot] at hrow
      cases hrow
  · intro c hc profile hp
    rcases List.mem_append.mp hc with hc | hc
    · exact h.placed c hc profile hp
    · rw [List.mem_singleton.mp hc] at hp
      exact hplaced profile hp

/-- A call has come to a point where it has drawn no id. -/
def settle (a : ProfileSide) (k : ℕ) (next : Call) : ProfileSide :=
  { a with calls := a.calls.set k next }

variable {k : ℕ} {call next : Call}

theorem reserved_of_settle (hnext : ∀ id, ¬ next.reserves id) {id : Int}
    (h : (a.settle k next).reserved id) : a.reserved id := by
  obtain ⟨c, hc, hid⟩ := h
  rcases List.mem_or_eq_of_mem_set hc with hc | rfl
  · exact ⟨c, hc, hid⟩
  · exact absurd hid (hnext id)

/-- Nobody has the ids any more that the call had drawn. -/
theorem Orderly.not_reserved_settle (h : Orderly a) (hcall : a.calls[k]? = some call)
    (hnext : ∀ id, ¬ next.reserves id) {id : Int} (hid : call.reserves id) :
    ¬ (a.settle k next).reserved id := by
  rintro ⟨c, hc, hcid⟩
  obtain ⟨j, hj⟩ := List.mem_iff_getElem?.mp hc
  rcases getElem?_set_cases hj with ⟨-, rfl⟩ | ⟨hne, hj⟩
  · exact hnext id hcid
  · exact hne (h.apart j k c call id hj hcall hcid hid)

theorem Settled.settle (hnext : ∀ id, ¬ next.reserves id) {id : Int} (h : a.Settled id) :
    (a.settle k next).Settled id :=
  ⟨h.1, fun hr => h.2 (reserved_of_settle hnext hr)⟩

theorem Orderly.settle (h : Orderly a) (hcall : a.calls[k]? = some call)
    (hnext : ∀ id, ¬ next.reserves id) (hadding : next.adding ⊆ call.adding)
    (hholding : next.holding ⊆ call.holding)
    (hsnapshot : ∀ row ∈ next.snapshot, a.Settled row.id) :
    Orderly (a.settle k next) := by
  -- every call of the new list stands for one of the old list at the same place
  have hold : ∀ (j : ℕ) (c : Call), (a.calls.set k next)[j]? = some c →
      ∃ c₀, a.calls[j]? = some c₀ ∧ c.adding ⊆ c₀.adding ∧ c.holding ⊆ c₀.holding := by
    intro j c hj
    rcases getElem?_set_cases hj with ⟨rfl, rfl⟩ | ⟨-, hj⟩
    · exact ⟨call, hcall, hadding, hholding⟩
    · exact ⟨c, hj, List.Subset.refl _, List.Subset.refl _⟩
  have hreserving : ∀ (j : ℕ) (c : Call) (id : Int), (a.calls.set k next)[j]? = some c →
      c.reserves id → a.calls[j]? = some c := by
    intro j c id hj hid
    rcases getElem?_set_cases hj with ⟨-, rfl⟩ | ⟨-, hj⟩
    · exact absurd hid (hnext id)
    · exact hj
  refine ⟨h.counted, fun id hid => (h.rows id hid).settle hnext, h.objects,
    fun id hid => h.reserved id (reserved_of_settle hnext hid), ?_, ?_, ?_, ?_, ?_, ?_⟩
  · intro i j c d id hi hj hc hd
    exact h.apart i j c d id (hreserving i c id hi hc) (hreserving j d id hj hd) hc hd
  · intro c hc profile p hid hp
    obtain ⟨j, hj⟩ := List.mem_iff_getElem?.mp hc
    exact h.own c (List.mem_of_getElem? (hreserving j c p.id hj hid)) profile p hid hp
  · intro profile newId hc
    obtain ⟨j, hj⟩ := List.mem_iff_getElem?.mp hc
    exact h.ownId profile newId (List.mem_of_getElem? (hreserving j _ newId hj rfl))
  · intro i j c d profile hi hj hc hd
    obtain ⟨c₀, hi₀, hadd, -⟩ := hold i c hi
    obtain ⟨d₀, hj₀, -, hhold⟩ := hold j d hj
    exact h.exclusive i j c₀ d₀ profile hi₀ hj₀ (hadd hc) (hhold hd)
  · intro c hc row hrow
    rcases List.mem_or_eq_of_mem_set hc with hc | rfl
    · exact (h.snapshots c hc row hrow).settle hnext
    · exact (hsnapshot row hrow).settle hnext
  · intro c hc profile hp
    rcases List.mem_or_eq_of_mem_set hc with hc | rfl
    · exact h.placed c hc profile hp
    · exact h.placed call (List.mem_of_getElem? hcall) profile (hadding hp)

/-! ## The objects and the rows -/

/-- Objects are released, and objects with settled ids take the places of some that nobody is
adding. -/
theorem Orderly.setObjects (h : Orderly a) {profiles : List (Option Profile)}
    (hlength : a.profiles.length ≤ profiles.length)
    (hprofiles : ∀ profile p, (profiles[profile]?).join = some p → a.object profile = some p ∨
      (a.Settled p.id ∧ ∀ c ∈ a.calls, profile ∉ c.adding)) :
    Orderly { a with profiles := profiles } := by
  refine ⟨h.counted, h.rows, ?_, h.reserved, h.apart, ?_, ?_, h.exclusive, h.snapshots,
    fun c hc profile hp => lt_of_lt_of_le (h.placed c hc profile hp) hlength⟩
  · intro profile p hp
    rcases hprofiles profile p hp with hp | ⟨hsettled, -⟩
    · exact h.objects profile p hp
    · exact hsettled.1
  · intro c hc profile p hcid hp
    rcases hprofiles profile p hp with hp | ⟨hsettled, -⟩
    · exact h.own c hc profile p hcid hp
    · exact absurd ⟨c, hc, hcid⟩ hsettled.2
  · intro profile newId hc p hp
    rcases hprofiles profile p hp with hp | ⟨-, hadding⟩
    · exact h.ownId profile newId hc p hp
    · exact absurd (by simp [Call.adding]) (hadding _ hc)

/-- Rows of settled ids come, and rows go. -/
theorem Orderly.setRows (h : Orderly a) {rows : Int → Option Int} {tombstones : Int → Bool}
    (hrows : ∀ id, (rows id).isSome → a.Settled id) :
    Orderly { a with rows := rows, tombstones := tombstones } :=
  ⟨h.counted, hrows, h.objects, h.reserved, h.apart, h.own, h.ownId, h.exclusive, h.snapshots,
    h.placed⟩

/-! ## Drawing ids -/

/-- A call draws ids from the counter; the objects it adds may get them at once. -/
theorem Orderly.draw (h : Orderly a) (next : Call) (last : Int)
    (profiles : List (Option Profile)) (hcall : a.calls[k]? = some call)
    (hadding : next.adding ⊆ call.adding) (hholding : next.holding ⊆ call.holding)
    (hsnapshot : next.snapshot = []) (hlast : a.last ≤ last)
    (hnext : ∀ id, next.reserves id → a.last < id ∧ id ≤ last)
    (hlength : a.profiles.length ≤ profiles.length)
    (hprofiles : ∀ profile p, (profiles[profile]?).join = some p →
      a.object profile = some p ∨ (profile ∈ next.adding ∧ a.last < p.id ∧ p.id ≤ last))
    (hown : ∀ profile newId, next = .addInsert profile newId →
      ∀ p, (profiles[profile]?).join = some p → p.id = newId) :
    Orderly { a with last := last, profiles := profiles, calls := a.calls.set k next } := by
  have hcases : ∀ (j : ℕ) (c : Call), (a.calls.set k next)[j]? = some c →
      (j = k ∧ c = next) ∨ (j ≠ k ∧ a.calls[j]? = some c) := fun j c => getElem?_set_cases
  have hreserved : ∀ id, ProfileSide.reserved
      { a with last := last, profiles := profiles, calls := a.calls.set k next } id →
      a.reserved id ∨ (a.last < id ∧ id ≤ last) := by
    rintro id ⟨c, hc, hid⟩
    rcases List.mem_or_eq_of_mem_set hc with hc | rfl
    · exact Or.inl ⟨c, hc, hid⟩
    · exact Or.inr (hnext id hid)
  have hsettled : ∀ id, a.Settled id → ProfileSide.Settled
      { a with last := last, profiles := profiles, calls := a.calls.set k next } id := by
    rintro id ⟨hid, hnot⟩
    refine ⟨hid.trans hlast, fun hr => ?_⟩
    rcases hreserved id hr with hr | ⟨hlt, -⟩
    · exact hnot hr
    · exact absurd hid (not_le.mpr hlt)
  refine ⟨h.counted.trans hlast, fun id hid => hsettled id (h.rows id hid), ?_, ?_, ?_, ?_, ?_,
    ?_, ?_, fun c hc profile hp => lt_of_lt_of_le ?_ hlength⟩
  · intro profile p hp
    rcases hprofiles profile p hp with hp | ⟨-, -, hid⟩
    · exact (h.objects profile p hp).trans hlast
    · exact hid
  · intro id hr
    rcases hreserved id hr with hr | ⟨hlt, hle⟩
    · exact ⟨(h.reserved id hr).1, (h.reserved id hr).2.trans hlast⟩
    · exact ⟨lt_of_le_of_lt h.counted hlt, hle⟩
  · intro i j c d id hi hj hc hd
    rcases hcases i c hi with ⟨rfl, rfl⟩ | ⟨-, hiold⟩
    · rcases hcases j d hj with ⟨rfl, -⟩ | ⟨-, hjold⟩
      · rfl
      · have hle := (h.reserved id ⟨d, List.mem_of_getElem? hjold, hd⟩).2
        exact absurd hle (not_le.mpr (hnext id hc).1)
    · rcases hcases j d hj with ⟨rfl, rfl⟩ | ⟨-, hjold⟩
      · have hle := (h.reserved id ⟨c, List.mem_of_getElem? hiold, hc⟩).2
        exact absurd hle (not_le.mpr (hnext id hd).1)
      · exact h.apart i j c d id hiold hjold hc hd
  · intro c hc profile p hid hp
    rcases List.mem_or_eq_of_mem_set hc with hc | rfl
    · rcases hprofiles profile p hp with hp | ⟨-, hlt, -⟩
      · exact h.own c hc profile p hid hp
      · exact absurd (h.reserved p.id ⟨c, hc, hid⟩).2 (not_le.mpr hlt)
    · rcases hprofiles profile p hp with hp | ⟨hmem, -, -⟩
      · exact absurd (h.objects profile p hp) (not_le.mpr (hnext p.id hid).1)
      · exact hmem
  · intro profile newId hc p hp
    obtain ⟨j, hj⟩ := List.mem_iff_getElem?.mp hc
    rcases hcases j _ hj with ⟨-, heq⟩ | ⟨hne, hj⟩
    · exact hown profile newId heq.symm p hp
    · rcases hprofiles profile p hp with hp | ⟨hmem, -, -⟩
      · exact h.ownId profile newId (List.mem_of_getElem? hj) p hp
      · refine absurd (h.exclusive k j call _ profile hcall hj (hadding hmem) ?_) (Ne.symm hne)
        simp [Call.holding, Call.adding]
  · intro i j c d profile hi hj hc hd
    rcases hcases i c hi with ⟨rfl, rfl⟩ | ⟨-, hiold⟩
    · rcases hcases j d hj with ⟨rfl, -⟩ | ⟨-, hjold⟩
      · rfl
      · exact h.exclusive i j call d profile hcall hjold (hadding hc) hd
    · rcases hcases j d hj with ⟨rfl, rfl⟩ | ⟨-, hjold⟩
      · exact h.exclusive i j c call profile hiold hcall hc (hholding hd)
      · exact h.exclusive i j c d profile hiold hjold hc hd
  · intro c hc row hrow
    rcases List.mem_or_eq_of_mem_set hc with hc | rfl
    · exact hsettled row.id (h.snapshots c hc row hrow)
    · rw [hsnapshot] at hrow
      cases hrow
  · rcases List.mem_or_eq_of_mem_set hc with hc | rfl
    · exact h.placed c hc profile hp
    · exact h.placed call (List.mem_of_getElem? hcall) profile (hadding hp)

/-! ## What happens to an id -/

/-- What a step may do with the ids: a drawn id is never drawn again, a deleted row leaves a
tombstone, and a row comes from a call that had its id reserved, or where there is no
tombstone. -/
structure Advances (a b : ProfileSide) : Prop where
  last : a.last ≤ b.last
  reserved : ∀ id, b.reserved id → a.reserved id ∨ a.last < id
  tombstones : ∀ id, a.tombstones id = true → b.tombstones id = true
  written : ∀ id, (b.rows id).isSome →
    (a.rows id).isSome ∨ a.reserved id ∨ a.tombstones id = false ∨ a.last < id
  deleted : ∀ id, (a.rows id).isSome → (b.rows id).isSome ∨ b.tombstones id = true

variable {b c : ProfileSide}

/-- A step that leaves the rows and the tombstones alone. -/
theorem Advances.of_rows_eq (hrows : b.rows = a.rows) (htombstones : b.tombstones = a.tombstones)
    (hlast : a.last ≤ b.last) (hreserved : ∀ id, b.reserved id → a.reserved id ∨ a.last < id) :
    Advances a b :=
  ⟨hlast, hreserved, fun _ hid => htombstones ▸ hid, fun _ hid => Or.inl (hrows ▸ hid),
    fun _ hid => Or.inl (hrows ▸ hid)⟩

theorem Advances.refl (a : ProfileSide) : Advances a a :=
  Advances.of_rows_eq rfl rfl le_rfl fun _ => Or.inl

theorem Advances.trans (hab : Advances a b) (hbc : Advances b c) : Advances a c := by
  have hreserved : ∀ id, b.reserved id ∨ b.last < id → a.reserved id ∨ a.last < id := by
    rintro id (hid | hid)
    · exact hab.reserved id hid
    · exact Or.inr (lt_of_le_of_lt hab.last hid)
  refine ⟨hab.last.trans hbc.last, fun id hid => hreserved id (hbc.reserved id hid),
    fun id hid => hbc.tombstones id (hab.tombstones id hid), ?_, ?_⟩
  · intro id hid
    rcases hbc.written id hid with hrow | hres | htomb | hlt
    · exact hab.written id hrow
    · rcases hreserved id (Or.inl hres) with hres | hlt
      · exact Or.inr (Or.inl hres)
      · exact Or.inr (Or.inr (Or.inr hlt))
    · refine Or.inr (Or.inr (Or.inl ?_))
      by_contra hne
      rw [hab.tombstones id (Bool.eq_true_of_not_eq_false hne)] at htomb
      cases htomb
    · exact Or.inr (Or.inr (Or.inr (lt_of_le_of_lt hab.last hlt)))
  · intro id hid
    rcases hab.deleted id hid with hrow | htomb
    · exact hbc.deleted id hrow
    · exact Or.inr (hbc.tombstones id htomb)

/-- A deleted id, as long as its tombstone tells. -/
def Gone (a : ProfileSide) (id : Int) : Prop :=
  a.Settled id ∧ a.tombstones id = true ∧ a.rows id = none

theorem Settled.advance {id : Int} (h : a.Settled id) (hab : Advances a b) : b.Settled id := by
  refine ⟨h.1.trans hab.last, fun hr => ?_⟩
  rcases hab.reserved id hr with hr | hlt
  · exact h.2 hr
  · exact absurd h.1 (not_le.mpr hlt)

/-- **A deleted id stays deleted.** -/
theorem Gone.advance {id : Int} (h : a.Gone id) (hab : Advances a b) : b.Gone id := by
  obtain ⟨hsettled, htomb, hrow⟩ := h
  refine ⟨hsettled.advance hab, hab.tombstones id htomb, ?_⟩
  rw [← Option.not_isSome_iff_eq_none]
  intro hsome
  rcases hab.written id hsome with hold | hres | hfalse | hlt
  · rw [hrow] at hold
    cases hold
  · exact hsettled.2 hres
  · rw [htomb] at hfalse
    cases hfalse
  · exact absurd hsettled.1 (not_le.mpr hlt)

/-- A row is there, or its id is gone for good. -/
theorem Orderly.row_or_gone {id : Int} (h : Orderly a) (hrow : (a.rows id).isSome)
    (hab : Advances a b) : (b.rows id).isSome ∨ b.Gone id := by
  rcases hab.deleted id hrow with hrow' | htomb
  · exact Or.inl hrow'
  · cases hb : b.rows id with
    | some gid => exact Or.inl rfl
    | none => exact Or.inr ⟨(h.rows id hrow).advance hab, htomb, hb⟩

end ProfileSide

end Throned.Database
