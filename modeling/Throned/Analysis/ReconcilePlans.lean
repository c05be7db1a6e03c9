import Throned.Analysis.ReconcilePairing

/-!
# The plan of a reconciliation

Every stored arrival takes one place of the order: its own id, or the id of the old profile
it updates.  The ids are distinct because an arrival that reuses an old profile claimed it,
an update takes an unclaimed one, and an inserted arrival has an id no old profile has.
-/

set_option autoImplicit false

namespace Throned.Subscription

open Throned.Library

/-- The inserted arrivals have distinct ids of their own. -/
structure FreshIds (old : List OldEntry) (entries : List NewEntry) : Prop where
  nodup : (insertedIds entries).Nodup
  fresh : ∀ id ∈ insertedIds entries, id ∉ old.map (·.id)

/-- The arrivals that are in the database. -/
def storedEntries (entries : List NewEntry) : List NewEntry :=
  entries.filter fun entry => decide (0 ≤ entry.id)

/-- The id that stands for an arrival. -/
def placeOf (p : Pairing) (entry : NewEntry) : Int :=
  if entry.reused then entry.id else (p.supersededBy entry.id).getD entry.id

/-- The inserted arrivals that only carry an update. -/
def carriers (p : Pairing) (entries : List NewEntry) : List Int :=
  (entries.filter fun entry => !entry.reused && decide (0 ≤ entry.id) &&
    (p.supersededBy entry.id).isSome).map (·.id)

theorem mem_insertedIds {entries : List NewEntry} {id : Int} :
    id ∈ insertedIds entries ↔ ∃ entry ∈ entries, entry.reused = false ∧ 0 ≤ id ∧ entry.id = id := by
  simp only [insertedIds, List.mem_map, List.mem_filter, Bool.and_eq_true, Bool.not_eq_true',
    decide_eq_true_eq]
  constructor
  · rintro ⟨entry, ⟨hentry, hreused, hid⟩, rfl⟩
    exact ⟨entry, hentry, hreused, hid, rfl⟩
  · rintro ⟨entry, hentry, hreused, hid, rfl⟩
    exact ⟨entry, ⟨hentry, hreused, hid⟩, rfl⟩

theorem mem_storedEntries {entries : List NewEntry} {entry : NewEntry} :
    entry ∈ storedEntries entries ↔ entry ∈ entries ∧ 0 ≤ entry.id := by
  unfold storedEntries
  rw [List.mem_filter, decide_eq_true_eq]

theorem mem_carriers {p : Pairing} {entries : List NewEntry} {id : Int} :
    id ∈ carriers p entries ↔ id ∈ insertedIds entries ∧ (p.supersededBy id).isSome = true := by
  rw [mem_insertedIds]
  simp only [carriers, List.mem_map, List.mem_filter, Bool.and_eq_true, Bool.not_eq_true',
    decide_eq_true_eq]
  constructor
  · rintro ⟨entry, ⟨hentry, ⟨hreused, hid⟩, hgot⟩, rfl⟩
    exact ⟨⟨entry, hentry, hreused, hid, rfl⟩, hgot⟩
  · rintro ⟨⟨entry, hentry, hreused, hid, rfl⟩, hgot⟩
    exact ⟨entry, ⟨hentry, ⟨hreused, hid⟩, hgot⟩, rfl⟩

/-! ## The passes over the arrivals -/

section Place

variable {p : Pairing} (entries : List NewEntry)

theorem order_foldl_place : ∀ plan : ReconcilePlan,
    (entries.foldl (ReconcilePlan.place p) plan).order =
      plan.order ++ (storedEntries entries).map (placeOf p) := by
  induction entries with
  | nil => exact fun plan => (List.append_nil _).symm
  | cons entry entries ih =>
    intro plan
    rw [List.foldl_cons, ih]
    unfold ReconcilePlan.place storedEntries
    by_cases hid : entry.id < 0
    · simp [hid, Int.not_le.mpr hid]
    · cases hreused : entry.reused <;> cases hgot : p.supersededBy entry.id <;>
        simp [hid, Int.not_lt.mp hid, placeOf, hreused, hgot]

theorem stale_foldl_place : ∀ plan : ReconcilePlan,
    (entries.foldl (ReconcilePlan.place p) plan).stale = plan.stale ++ carriers p entries := by
  induction entries with
  | nil => exact fun plan => (List.append_nil _).symm
  | cons entry entries ih =>
    intro plan
    rw [List.foldl_cons, ih]
    unfold ReconcilePlan.place carriers
    by_cases hid : entry.id < 0
    · simp [hid, Int.not_le.mpr hid]
    · cases hreused : entry.reused <;> cases hgot : p.supersededBy entry.id <;>
        simp [hid, Int.not_lt.mp hid, hreused, hgot]

theorem updates_foldl_place : ∀ plan : ReconcilePlan,
    (entries.foldl (ReconcilePlan.place p) plan).updates = plan.updates := by
  induction entries with
  | nil => exact fun _ => rfl
  | cons entry entries ih =>
    intro plan
    rw [List.foldl_cons, ih]
    unfold ReconcilePlan.place
    split
    · rfl
    · split
      · rfl
      · split <;> rfl

/-- Reused arrivals are no news. -/
theorem added_foldl_place (hreused : ∀ entry ∈ entries, entry.reused = true) :
    ∀ plan : ReconcilePlan, (entries.foldl (ReconcilePlan.place p) plan).added = plan.added := by
  induction entries with
  | nil => exact fun _ => rfl
  | cons entry entries ih =>
    intro plan
    rw [List.foldl_cons, ih fun e he => hreused e (List.mem_cons_of_mem _ he)]
    unfold ReconcilePlan.place
    rw [if_pos (hreused entry List.mem_cons_self)]
    split <;> rfl

end Place

/-! ## What the index claimed -/

namespace Indexed

variable {old : List OldEntry} {arrivals : List Arrival} {entries : List NewEntry}
  {index : ContentIndex}

theorem mem_claimLog {content : Digest} {id : Int} :
    (content, some id) ∈ claimLog entries ↔
      ∃ entry ∈ entries, entry.keys.content = content ∧ entry.reused = true ∧ entry.id = id := by
  unfold claimLog
  rw [List.mem_map]
  constructor
  · rintro ⟨entry, hentry, heq⟩
    obtain ⟨hcontent, hgot⟩ := Prod.mk.injEq _ _ _ _ ▸ heq
    split at hgot
    · exact ⟨entry, hentry, hcontent, ‹_›, Option.some.inj hgot⟩
    · cases hgot
  · rintro ⟨entry, hentry, rfl, hreused, rfl⟩
    exact ⟨entry, hentry, by rw [if_pos hreused]⟩

theorem mem_claimed (h : Indexed old arrivals entries index) {id : Int} :
    id ∈ index.claimedIds ↔ ∃ entry ∈ entries, entry.reused = true ∧ entry.id = id := by
  rw [h.claimed, List.mem_filterMap]
  constructor
  · rintro ⟨⟨content, got⟩, hlog, hgot⟩
    simp only at hgot
    subst hgot
    obtain ⟨entry, hentry, -, hreused, hid⟩ := mem_claimLog.mp hlog
    exact ⟨entry, hentry, hreused, hid⟩
  · rintro ⟨entry, hentry, hreused, hid⟩
    exact ⟨_, mem_claimLog.mpr ⟨entry, hentry, rfl, hreused, hid⟩, rfl⟩

theorem mem_unclaimed {content : Digest} {id : Int} :
    id ∈ (ContentIndex.ofOld old).unclaimed content ↔
      ∃ oldEntry ∈ old, oldEntry.keys.content = content ∧ oldEntry.id = id := by
  simp only [ContentIndex.ofOld, List.mem_map, List.mem_filter, decide_eq_true_eq]
  constructor
  · rintro ⟨oldEntry, ⟨hmem, hcontent⟩, hid⟩
    exact ⟨oldEntry, hmem, hcontent, hid⟩
  · rintro ⟨oldEntry, hmem, hcontent, hid⟩
    exact ⟨oldEntry, ⟨hmem, hcontent⟩, hid⟩

theorem distinct (hold : (old.map (·.id)).Nodup) : (ContentIndex.ofOld old).unclaimed.Distinct :=
  Pool.distinct_of_sublist hold fun _ => List.Sublist.refl _

/-- **An arrival reuses an old profile of its content.** -/
theorem reuses (h : Indexed old arrivals entries index) {entry : NewEntry} (hentry : entry ∈ entries)
    (hreused : entry.reused = true) :
    ∃ oldEntry ∈ old, oldEntry.keys.content = entry.keys.content ∧ oldEntry.id = entry.id := by
  apply mem_unclaimed.mp
  exact h.served.mem_pool (mem_claimLog.mpr ⟨entry, hentry, rfl, hreused, rfl⟩)

theorem claimed_old (h : Indexed old arrivals entries index) {id : Int}
    (hid : id ∈ index.claimedIds) : id ∈ old.map (·.id) := by
  obtain ⟨entry, hentry, hreused, rfl⟩ := h.mem_claimed.mp hid
  obtain ⟨oldEntry, hmem, -, heq⟩ := h.reuses hentry hreused
  exact List.mem_map.mpr ⟨oldEntry, hmem, heq⟩

/-- **No old profile is claimed twice.** -/
theorem nodup_claimed (h : Indexed old arrivals entries index) (hold : (old.map (·.id)).Nodup) :
    index.claimedIds.Nodup := by
  rw [h.claimed]
  exact h.served.nodup (distinct hold)

theorem claimedIds_eq (h : Indexed old arrivals entries index) :
    index.claimedIds = (entries.filter (·.reused)).map (·.id) := by
  rw [h.claimed]
  unfold claimLog
  generalize entries = l
  induction l with
  | nil => rfl
  | cons entry l ih => cases hreused : entry.reused <;> simp [hreused, ih]

/-- **Equal contents claim everything.** -/
theorem all_reused (h : Indexed old arrivals entries index)
    (hsame : (arrivals.map (·.content)).Perm (old.map (·.keys.content))) :
    (∀ entry ∈ entries, entry.reused = true) ∧ ∀ id ∈ old.map (·.id), id ∈ index.claimedIds := by
  have hcontents : entries.map (·.keys.content) = arrivals.map (·.content) := by
    have hrecords := h.records
    clear h hsame
    induction hrecords with
    | nil => rfl
    | cons hrecord _ ih => rw [List.map_cons, List.map_cons, hrecord.content, ih]
  have hexhausted : ∀ content, index.unclaimed content = [] ∧ (content, none) ∉ claimLog entries := by
    intro content
    apply h.served.exhausted
    have hcount := hsame.countP_eq fun c => decide (c = content)
    rw [← hcontents, List.countP_map, List.countP_map] at hcount
    unfold claimLog ContentIndex.ofOld
    rw [List.countP_map, List.length_map, ← List.countP_eq_length_filter]
    exact hcount
  refine ⟨fun entry hentry => ?_, fun id hid => ?_⟩
  · cases hreused : entry.reused with
    | true => rfl
    | false =>
      refine absurd ?_ (hexhausted entry.keys.content).2
      exact List.mem_map.mpr ⟨entry, hentry, by rw [hreused]; rfl⟩
  · obtain ⟨oldEntry, hmem, rfl⟩ := List.mem_map.mp hid
    have hpool := mem_unclaimed.mpr ⟨oldEntry, hmem, rfl, rfl⟩
    rcases h.served.taken_or_left hpool with htaken | hrest
    · rw [h.claimed]
      exact List.mem_filterMap.mpr ⟨_, htaken, rfl⟩
    · rw [(hexhausted oldEntry.keys.content).1] at hrest
      cases hrest

end Indexed

end Throned.Subscription
