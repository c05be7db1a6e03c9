import Throned.Analysis.ImportEntries

/-!
# The pairing by identity

The arrivals that take part ask one after the other for an old profile of their identity,
so the pairing is a pool served in order: `supersededBy` says who got what, and the updates
and the matched old profiles are read off it.
-/

set_option autoImplicit false

namespace Throned.Subscription

open Throned.Library

/-- The ids given to the arrivals that were inserted. -/
def insertedIds (entries : List NewEntry) : List Int :=
  (entries.filter fun entry => !entry.reused && decide (0 ≤ entry.id)).map (·.id)

/-- What each arrival of the pairing asked for, and what it got. -/
def pairLog (supersededBy : Int → Option Int) (entries : List NewEntry) :
    List (Digest × Option Int) :=
  (entries.filter NewEntry.pairs).map fun entry => (entry.keys.identity, supersededBy entry.id)

/-- The updates, by the arrivals that carry them. -/
def updatesOf (supersededBy : Int → Option Int) (entries : List NewEntry) : List (Int × Int) :=
  (entries.filter NewEntry.pairs).filterMap fun entry =>
    (supersededBy entry.id).map fun oldId => (oldId, entry.id)

structure Paired (old : List OldEntry) (index : ContentIndex) (entries : List NewEntry)
    (p : Pairing) : Prop where
  served : Served (Pairing.initial old index).leftoverByIdentity (pairLog p.supersededBy entries)
    p.leftoverByIdentity
  updates : p.updates = updatesOf p.supersededBy entries
  matched : p.matchedOld = p.updates.map Prod.fst
  others : ∀ id, (∀ entry ∈ entries, entry.pairs = true → entry.id ≠ id) → p.supersededBy id = none

theorem pairs_iff {entry : NewEntry} :
    entry.pairs = true ↔ 0 ≤ entry.id ∧ entry.reused = false ∧ entry.contentKnown = false := by
  unfold NewEntry.pairs
  cases entry.reused <;> cases entry.contentKnown <;> simp

section Concat

variable {supersededBy : Int → Option Int} {entries : List NewEntry} {entry : NewEntry}

theorem filter_concat_of_pairs (hpairs : entry.pairs = true) :
    (entries ++ [entry]).filter NewEntry.pairs = entries.filter NewEntry.pairs ++ [entry] := by
  simp [hpairs]

theorem filter_concat_of_not_pairs (hpairs : entry.pairs = false) :
    (entries ++ [entry]).filter NewEntry.pairs = entries.filter NewEntry.pairs := by
  simp [hpairs]

theorem pairLog_concat (hpairs : entry.pairs = true) :
    pairLog supersededBy (entries ++ [entry]) =
      pairLog supersededBy entries ++ [(entry.keys.identity, supersededBy entry.id)] := by
  unfold pairLog
  rw [filter_concat_of_pairs hpairs, List.map_append, List.map_singleton]

theorem updatesOf_concat (hpairs : entry.pairs = true) :
    updatesOf supersededBy (entries ++ [entry]) =
      updatesOf supersededBy entries ++
        ((supersededBy entry.id).map fun oldId => (oldId, entry.id)).toList := by
  unfold updatesOf
  rw [filter_concat_of_pairs hpairs, List.filterMap_append, List.filterMap_cons]
  cases supersededBy entry.id <;> rfl

/-- What an earlier arrival got does not change. -/
theorem update_of_mem {id : Int} {got : Option Int}
    (hnew : ∀ e ∈ entries, e.pairs = true → e.id ≠ id) {e : NewEntry}
    (he : e ∈ entries.filter NewEntry.pairs) :
    Function.update supersededBy id got e.id = supersededBy e.id := by
  obtain ⟨hmem, hpairs⟩ := List.mem_filter.mp he
  exact Function.update_of_ne (hnew e hmem hpairs) _ _

theorem pairLog_update {id : Int} {got : Option Int}
    (hnew : ∀ e ∈ entries, e.pairs = true → e.id ≠ id) :
    pairLog (Function.update supersededBy id got) entries = pairLog supersededBy entries := by
  apply List.map_congr_left
  intro e he
  rw [update_of_mem hnew he]

theorem updatesOf_update {id : Int} {got : Option Int}
    (hnew : ∀ e ∈ entries, e.pairs = true → e.id ≠ id) :
    updatesOf (Function.update supersededBy id got) entries = updatesOf supersededBy entries := by
  apply List.filterMap_congr
  intro e he
  rw [update_of_mem hnew he]

end Concat

namespace Paired

variable {old : List OldEntry} {index : ContentIndex} {entries : List NewEntry} {p : Pairing}

theorem nil (old : List OldEntry) (index : ContentIndex) :
    Paired old index [] (.initial old index) :=
  ⟨Served.nil _, rfl, rfl, fun _ _ => rfl⟩

/-- **One more arrival.** -/
theorem add (h : Paired old index entries p) (entry : NewEntry)
    (hnew : entry.pairs = true → ∀ e ∈ entries, e.pairs = true → e.id ≠ entry.id) :
    Paired old index (entries ++ [entry]) (p.add entry) := by
  have hothers : ∀ id, (∀ e ∈ entries ++ [entry], e.pairs = true → e.id ≠ id) →
      p.supersededBy id = none := fun id hid =>
    h.others id fun e he => hid e (List.mem_append_left _ he)
  unfold Pairing.add
  cases hpairs : entry.pairs with
  | false =>
    have hskip := @filter_concat_of_not_pairs entries _ hpairs
    rw [if_pos rfl]
    refine ⟨?_, ?_, h.matched, hothers⟩
    · unfold pairLog
      rw [hskip]
      exact h.served
    · unfold updatesOf
      rw [hskip]
      exact h.updates
  | true =>
    have hnew := hnew hpairs
    have htake := h.served.take entry.keys.identity
    have hnone := h.others entry.id hnew
    rw [if_neg nofun]
    cases hfirst : p.leftoverByIdentity.take entry.keys.identity with
    | mk first rest =>
      rw [hfirst] at htake
      cases first with
      | none =>
        have hsame := Pool.take_none hfirst
        subst hsame
        refine ⟨?_, ?_, h.matched, hothers⟩
        · rw [pairLog_concat hpairs, hnone]
          exact htake
        · rw [updatesOf_concat hpairs, hnone]
          simpa using h.updates
      | some oldId =>
        refine ⟨?_, ?_, ?_, fun id hid => ?_⟩
        · simp only
          rw [pairLog_concat hpairs, Function.update_self, pairLog_update hnew]
          exact htake
        · simp only
          rw [updatesOf_concat hpairs, Function.update_self, updatesOf_update hnew, h.updates]
          rfl
        · simp only
          rw [List.map_append, h.matched]
          rfl
        · have hne : id ≠ entry.id := fun heq =>
            hid entry (List.mem_append_right _ List.mem_cons_self) hpairs heq.symm
          simp only
          rw [Function.update_of_ne hne]
          exact hothers id hid

/-- **The pairing of all arrivals.** -/
theorem foldl (hids : (insertedIds entries).Nodup) :
    Paired old index entries (entries.foldl Pairing.add (.initial old index)) := by
  induction entries using List.reverseRecOn with
  | nil => exact nil old index
  | append_singleton entries entry ih =>
    rw [List.foldl_append, List.foldl_cons, List.foldl_nil]
    unfold insertedIds at hids
    rw [List.filter_append, List.map_append] at hids
    apply (ih hids.of_append_left).add
    intro hpairs e he hepairs hsame
    obtain ⟨hid, hreused, -⟩ := pairs_iff.mp hpairs
    obtain ⟨heid, hereused, -⟩ := pairs_iff.mp hepairs
    have hearlier : e.id ∈ insertedIds entries :=
      List.mem_map.mpr ⟨e, List.mem_filter.mpr ⟨he, by simp [hereused, heid]⟩, rfl⟩
    refine List.disjoint_of_nodup_append hids hearlier ?_
    exact List.mem_map.mpr ⟨entry, by simp [hreused, hid], hsame.symm⟩

/-! ### What the pairing gives -/

/-- Who got what. -/
theorem mem_updates (h : Paired old index entries p) {oldId newId : Int} :
    (oldId, newId) ∈ p.updates ↔
      ∃ entry ∈ entries, entry.pairs = true ∧ entry.id = newId ∧
        p.supersededBy newId = some oldId := by
  rw [h.updates]
  unfold updatesOf
  rw [List.mem_filterMap]
  constructor
  · rintro ⟨entry, hentry, hgot⟩
    obtain ⟨hmem, hpairs⟩ := List.mem_filter.mp hentry
    obtain ⟨got, hgot', heq⟩ := Option.map_eq_some_iff.mp hgot
    cases heq
    exact ⟨entry, hmem, hpairs, rfl, hgot'⟩
  · rintro ⟨entry, hmem, hpairs, rfl, hgot⟩
    exact ⟨entry, List.mem_filter.mpr ⟨hmem, hpairs⟩, by rw [hgot]; rfl⟩

theorem supersededBy_iff (h : Paired old index entries p) {oldId newId : Int} :
    p.supersededBy newId = some oldId ↔ (oldId, newId) ∈ p.updates := by
  rw [h.mem_updates]
  constructor
  · intro hgot
    by_contra hnot
    have hnone := h.others newId fun entry hentry hpairs hid =>
      hnot ⟨entry, hentry, hpairs, hid, hgot⟩
    rw [hnone] at hgot
    cases hgot
  · rintro ⟨-, -, -, -, hgot⟩
    exact hgot

/-- The old profiles to pair are distinct. -/
theorem distinct (hold : (old.map (·.id)).Nodup) (index : ContentIndex) :
    (Pairing.initial old index).leftoverByIdentity.Distinct := by
  apply @Pool.distinct_of_sublist _ _ _ _ _ _ _ (fun entry : OldEntry => entry.keys.identity) hold
  intro identity
  refine (List.Sublist.map _ ?_)
  apply List.monotone_filter_right
  intro entry hentry
  exact (Bool.and_eq_true _ _ ▸ hentry).2

theorem matched_eq (h : Paired old index entries p) :
    (pairLog p.supersededBy entries).filterMap Prod.snd = p.updates.map Prod.fst := by
  rw [h.updates]
  unfold pairLog updatesOf
  rw [List.filterMap_map, List.map_filterMap]
  apply List.filterMap_congr
  intro entry _
  simp only [Function.comp]
  cases p.supersededBy entry.id <;> rfl

/-- **An old profile is updated once.** -/
theorem nodup_old (h : Paired old index entries p) (hold : (old.map (·.id)).Nodup) :
    (p.updates.map Prod.fst).Nodup := by
  rw [← h.matched_eq]
  exact h.served.nodup (distinct hold index)

/-- **An arrival updates one old profile.** -/
theorem nodup_new (h : Paired old index entries p) (hids : (insertedIds entries).Nodup) :
    (p.updates.map Prod.snd).Nodup := by
  have hsub : (p.updates.map Prod.snd).Sublist ((entries.filter NewEntry.pairs).map (·.id)) := by
    rw [h.updates]
    unfold updatesOf
    generalize entries.filter NewEntry.pairs = pairing
    induction pairing with
    | nil => exact List.Sublist.slnil
    | cons entry pairing ih =>
      rw [List.filterMap_cons]
      cases p.supersededBy entry.id with
      | none => exact ih.trans (List.sublist_cons_self _ _)
      | some oldId => exact ih.cons_cons _
  have hpairs : (entries.filter NewEntry.pairs).Sublist
      (entries.filter fun entry => !entry.reused && decide (0 ≤ entry.id)) := by
    apply List.monotone_filter_right
    intro entry hentry
    obtain ⟨hid, hreused, -⟩ := pairs_iff.mp hentry
    simp [hid, hreused]
  exact (hsub.trans (hpairs.map _)).nodup hids

theorem mem_leftover {identity : Digest} {id : Int} :
    id ∈ (Pairing.initial old index).leftoverByIdentity identity ↔
      ∃ entry ∈ old, isLeftover index entry = true ∧ entry.keys.identity = identity ∧
        entry.id = id := by
  simp only [Pairing.initial, List.mem_map, List.mem_filter, Bool.and_eq_true, decide_eq_true_eq]
  constructor
  · rintro ⟨entry, ⟨hmem, hleft, hidentity⟩, hid⟩
    exact ⟨entry, hmem, hleft, hidentity, hid⟩
  · rintro ⟨entry, hmem, hleft, hidentity, hid⟩
    exact ⟨entry, ⟨hmem, hleft, hidentity⟩, hid⟩

/-- **An update joins a leftover and an arrival of its identity.** -/
theorem update_sound (h : Paired old index entries p) {oldId newId : Int}
    (hupdate : (oldId, newId) ∈ p.updates) :
    ∃ entry ∈ entries, entry.pairs = true ∧ entry.id = newId ∧
      ∃ oldEntry ∈ old, isLeftover index oldEntry = true ∧
        oldEntry.keys.identity = entry.keys.identity ∧ oldEntry.id = oldId := by
  obtain ⟨entry, hentry, hpairs, rfl, hgot⟩ := h.mem_updates.mp hupdate
  refine ⟨entry, hentry, hpairs, rfl, mem_leftover.mp ?_⟩
  apply h.served.mem_pool
  rw [← hgot]
  exact List.mem_map.mpr ⟨entry, List.mem_filter.mpr ⟨hentry, hpairs⟩, rfl⟩

/-- **The pairing is maximal.** -/
theorem maximal (h : Paired old index entries p) {oldEntry : OldEntry} {entry : NewEntry}
    (hmem : oldEntry ∈ old) (hleft : isLeftover index oldEntry = true)
    (hold : oldEntry.id ∉ p.updates.map Prod.fst) (hentry : entry ∈ entries)
    (hpairs : entry.pairs = true) (hnew : entry.id ∉ p.updates.map Prod.snd) :
    entry.keys.identity ≠ oldEntry.keys.identity := by
  intro hsame
  have hnone : p.supersededBy entry.id = none := by
    cases hgot : p.supersededBy entry.id with
    | none => rfl
    | some oldId =>
      exact absurd (List.mem_map.mpr ⟨_, h.supersededBy_iff.mp hgot, rfl⟩) hnew
  have hempty : p.leftoverByIdentity entry.keys.identity = [] := by
    apply h.served.full
    rw [← hnone]
    exact List.mem_map.mpr ⟨entry, List.mem_filter.mpr ⟨hentry, hpairs⟩, rfl⟩
  rcases h.served.taken_or_left (mem_leftover.mpr ⟨oldEntry, hmem, hleft, hsame.symm, rfl⟩) with
    htaken | hrest
  · apply hold
    rw [← h.matched_eq]
    exact List.mem_filterMap.mpr ⟨_, htaken, rfl⟩
  · rw [hempty] at hrest
    cases hrest

end Paired

end Throned.Subscription
