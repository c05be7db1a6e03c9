import Throned.Analysis.ReconcilePlans

/-!
# What a plan promises

The old profiles are parted into the claimed, the updated and the stale ones.  The order
follows the stored arrivals, and nothing that is in it is stale.
-/

set_option autoImplicit false

namespace Throned.Subscription

open Throned.Library

/-- The id an arrival has in the order: the old profile it updates, or its own. -/
def Takes (plan : ReconcilePlan) (entry : NewEntry) (id : Int) : Prop :=
  (entry.reused = false ∧ (id, entry.id) ∈ plan.updates) ∨
    (id = entry.id ∧ (entry.reused = false → ∀ oldId, (oldId, entry.id) ∉ plan.updates))

/-- An old profile is exactly one of claimed, updated and stale. -/
def Parted (claimed : List Int) (plan : ReconcilePlan) (id : Int) : Prop :=
  (id ∈ claimed ∧ id ∉ plan.updates.map Prod.fst ∧ id ∉ plan.stale) ∨
    (id ∉ claimed ∧ id ∈ plan.updates.map Prod.fst ∧ id ∉ plan.stale) ∨
    (id ∉ claimed ∧ id ∉ plan.updates.map Prod.fst ∧ id ∈ plan.stale)

structure PlanSound (old : List OldEntry) (arrivals : List Arrival) (entries : List NewEntry)
    (claimed : List Int) (plan : ReconcilePlan) : Prop where
  parted : ∀ id ∈ old.map (·.id), Parted claimed plan id
  /-- The claimed are the old profiles that arrivals of their content reuse, one each. -/
  claims : claimed = (entries.filter (·.reused)).map (·.id) ∧ claimed.Nodup
  reuses : ∀ x ∈ arrivals.zip entries, x.2.reused = true →
    ∃ oldEntry ∈ old, oldEntry.id = x.2.id ∧ oldEntry.keys.content = x.1.content
  /-- One element for each stored arrival, in arrival order, without repetition. -/
  order : List.Forall₂ (Takes plan) (storedEntries entries) plan.order
  orderNodup : plan.order.Nodup
  orderNotStale : ∀ id ∈ plan.order, id ∉ plan.stale
  inserted : ∀ id ∈ insertedIds entries, id ∈ plan.order ∨ id ∈ plan.stale
  /-- An update joins an unclaimed old profile and a stored arrival of its identity. -/
  updates : ∀ update ∈ plan.updates, ∃ oldEntry ∈ old, ∃ x ∈ arrivals.zip entries,
    oldEntry.id = update.1 ∧ oldEntry.id ∉ claimed ∧
      x.2.id = update.2 ∧ x.2.reused = false ∧ 0 ≤ x.2.id ∧
      x.1.identity = oldEntry.keys.identity ∧ x.1.content ∉ old.map (·.keys.content)
  updateOfOld : (plan.updates.map Prod.fst).Nodup
  updateOfArrival : (plan.updates.map Prod.snd).Nodup
  maximal : ∀ oldEntry ∈ old, oldEntry.id ∉ claimed →
    oldEntry.keys.content ∉ arrivals.map (·.content) →
    oldEntry.id ∉ plan.updates.map Prod.fst → ∀ x ∈ arrivals.zip entries, 0 ≤ x.2.id →
    x.1.content ∉ old.map (·.keys.content) → x.2.id ∉ plan.updates.map Prod.snd →
    x.1.identity ≠ oldEntry.keys.identity
  /-- An unchanged subscription changes nothing. -/
  unchanged : (arrivals.map (·.content)).Perm (old.map (·.keys.content)) →
    plan.updates = [] ∧ plan.stale = [] ∧ plan.added = []

/-- The pairing of a reconciliation. -/
def pairingOf (old : List OldEntry) (entries : List NewEntry) (index : ContentIndex) : Pairing :=
  entries.foldl Pairing.add (.initial old index)

section Reconcile

variable {old : List OldEntry} {arrivals : List Arrival} {entries : List NewEntry}
  {index : ContentIndex}

theorem order_reconcile : (reconcile old entries index).order =
    (storedEntries entries).map (placeOf (pairingOf old entries index)) :=
  order_foldl_place entries _

theorem stale_reconcile : (reconcile old entries index).stale =
    (old.filter (isStale index (pairingOf old entries index))).map (·.id) ++
      carriers (pairingOf old entries index) entries :=
  stale_foldl_place entries _

theorem updates_reconcile :
    (reconcile old entries index).updates = (pairingOf old entries index).updates :=
  updates_foldl_place entries _

theorem paired (hfresh : FreshIds old entries) :
    Paired old index entries (pairingOf old entries index) :=
  Paired.foldl hfresh.nodup

/-- An arrival is recorded in the entry beside it. -/
theorem Indexed.records_of_zip (h : Indexed old arrivals entries index) {x : Arrival × NewEntry}
    (hx : x ∈ arrivals.zip entries) : Records old x.1 x.2 :=
  (List.forall₂_iff_zip.mp h.records).2 hx

theorem Indexed.zip_of_mem (h : Indexed old arrivals entries index) {entry : NewEntry}
    (hentry : entry ∈ entries) : ∃ arrival, (arrival, entry) ∈ arrivals.zip entries := by
  have hmap : (arrivals.zip entries).map Prod.snd = entries :=
    List.map_snd_zip h.records.length_eq.ge
  rw [← hmap] at hentry
  obtain ⟨x, hx, rfl⟩ := List.mem_map.mp hentry
  exact ⟨x.1, hx⟩

theorem Indexed.pairs_of_zip (h : Indexed old arrivals entries index) {x : Arrival × NewEntry}
    (hx : x ∈ arrivals.zip entries) (hid : 0 ≤ x.2.id) (hreused : x.2.reused = false)
    (hcontent : x.1.content ∉ old.map (·.keys.content)) : x.2.pairs = true := by
  rw [pairs_iff]
  refine ⟨hid, hreused, ?_⟩
  rw [(h.records_of_zip hx).known]
  exact decide_eq_false hcontent

theorem Indexed.not_reused (h : Indexed old arrivals entries index) {x : Arrival × NewEntry}
    (hx : x ∈ arrivals.zip entries) (hcontent : x.1.content ∉ old.map (·.keys.content)) :
    x.2.reused = false := by
  cases hreused : x.2.reused with
  | false => rfl
  | true =>
    obtain ⟨oldEntry, hmem, heq, -⟩ := h.reuses (List.of_mem_zip hx).2 hreused
    rw [(h.records_of_zip hx).content] at heq
    exact absurd (List.mem_map.mpr ⟨oldEntry, hmem, heq⟩) hcontent

theorem isLeftover_iff (h : Indexed old arrivals entries index) {oldEntry : OldEntry} :
    isLeftover index oldEntry = true ↔ oldEntry.id ∉ index.claimedIds ∧
      oldEntry.keys.content ∉ arrivals.map (·.content) := by
  unfold isLeftover ContentIndex.isClaimed ContentIndex.arrived
  rw [h.arrived]
  simp

/-- An updated old profile is a leftover. -/
theorem update_leftover (hfresh : FreshIds old entries) (h : Indexed old arrivals entries index)
    {id : Int} (hid : id ∈ (pairingOf old entries index).updates.map Prod.fst) :
    id ∈ old.map (·.id) ∧ id ∉ index.claimedIds := by
  obtain ⟨⟨oldId, newId⟩, hupdate, rfl⟩ := List.mem_map.mp hid
  obtain ⟨-, -, -, -, oldEntry, hmem, hleft, -, rfl⟩ := (paired hfresh).update_sound hupdate
  exact ⟨List.mem_map.mpr ⟨oldEntry, hmem, rfl⟩, ((isLeftover_iff h).mp hleft).1⟩

/-- **Which old profiles are stale.** -/
theorem stale_old_iff (hfresh : FreshIds old entries) {id : Int} (hid : id ∈ old.map (·.id)) :
    id ∈ (reconcile old entries index).stale ↔
      id ∉ index.claimedIds ∧ id ∉ (reconcile old entries index).updates.map Prod.fst := by
  have hpaired := @paired _ _ index hfresh
  rw [stale_reconcile, updates_reconcile, ← hpaired.matched, List.mem_append]
  constructor
  · rintro (hstale | hcarrier)
    · obtain ⟨oldEntry, hmem, rfl⟩ := List.mem_map.mp hstale
      have hstale := (List.mem_filter.mp hmem).2
      unfold isStale ContentIndex.isClaimed at hstale
      simpa using hstale
    · exact absurd hid (hfresh.fresh id (mem_carriers.mp hcarrier).1)
  · rintro ⟨hclaimed, hmatched⟩
    left
    obtain ⟨oldEntry, hmem, rfl⟩ := List.mem_map.mp hid
    refine List.mem_map.mpr ⟨oldEntry, List.mem_filter.mpr ⟨hmem, ?_⟩, rfl⟩
    unfold isStale ContentIndex.isClaimed
    simp [hclaimed, hmatched]

theorem parted_reconcile (hfresh : FreshIds old entries) (h : Indexed old arrivals entries index)
    {id : Int} (hid : id ∈ old.map (·.id)) :
    Parted index.claimedIds (reconcile old entries index) id := by
  have hstale := @stale_old_iff _ _ index hfresh _ hid
  have hupdate : id ∈ (reconcile old entries index).updates.map Prod.fst → id ∉ index.claimedIds := by
    rw [updates_reconcile]
    exact fun hmem => (update_leftover hfresh h hmem).2
  unfold Parted
  by_cases hclaimed : id ∈ index.claimedIds
  · left
    exact ⟨hclaimed, fun hmem => hupdate hmem hclaimed, fun hmem => (hstale.mp hmem).1 hclaimed⟩
  · right
    by_cases hmem : id ∈ (reconcile old entries index).updates.map Prod.fst
    · exact .inl ⟨hclaimed, hmem, fun hmem' => (hstale.mp hmem').2 hmem⟩
    · exact .inr ⟨hclaimed, hmem, hstale.mpr ⟨hclaimed, hmem⟩⟩

/-- **The ids of the stored arrivals are distinct.** -/
theorem nodup_storedEntries (hold : (old.map (·.id)).Nodup) (hfresh : FreshIds old entries)
    (h : Indexed old arrivals entries index) : ((storedEntries entries).map (·.id)).Nodup := by
  have hsplit := List.filter_append_perm (fun entry : NewEntry => entry.reused) (storedEntries entries)
  rw [← (hsplit.map (·.id)).nodup_iff, List.map_append]
  have hreused : (((storedEntries entries).filter fun entry => entry.reused).map (·.id)).Sublist
      index.claimedIds := by
    rw [h.claimedIds_eq]
    exact ((List.filter_sublist (p := fun e : NewEntry => decide (0 ≤ e.id))).filter _).map _
  have hinserted : ((storedEntries entries).filter fun entry => !entry.reused).map (·.id) =
      insertedIds entries := by
    unfold storedEntries insertedIds
    rw [List.filter_filter]
  rw [hinserted]
  refine List.Nodup.append (hreused.nodup (h.nodup_claimed hold)) hfresh.nodup ?_
  intro id hid hid'
  exact hfresh.fresh id hid' (h.claimed_old (hreused.subset hid))

/-- The place of a reused arrival is claimed, that of an updating one is unclaimed, and that
of any other is a new id. -/
theorem placeOf_cases (hfresh : FreshIds old entries) {entry : NewEntry}
    (hentry : entry ∈ storedEntries entries) :
    (entry.reused = true ∧ placeOf (pairingOf old entries index) entry = entry.id) ∨
      (entry.reused = false ∧
        (placeOf (pairingOf old entries index) entry, entry.id) ∈
          (pairingOf old entries index).updates) ∨
      (entry.reused = false ∧ entry.id ∈ insertedIds entries ∧
        (pairingOf old entries index).supersededBy entry.id = none ∧
        placeOf (pairingOf old entries index) entry = entry.id) := by
  obtain ⟨hmem, hid⟩ := mem_storedEntries.mp hentry
  unfold placeOf
  cases hreused : entry.reused with
  | true => exact .inl ⟨rfl, rfl⟩
  | false =>
    right
    cases hgot : (pairingOf old entries index).supersededBy entry.id with
    | some oldId => exact .inl ⟨rfl, (paired hfresh).supersededBy_iff.mp hgot⟩
    | none => exact .inr ⟨rfl, mem_insertedIds.mpr ⟨entry, hmem, hreused, hid, rfl⟩, rfl, rfl⟩

theorem takes_placeOf (hfresh : FreshIds old entries) {entry : NewEntry}
    (hentry : entry ∈ storedEntries entries) :
    Takes (reconcile old entries index) entry (placeOf (pairingOf old entries index) entry) := by
  unfold Takes
  rw [updates_reconcile]
  rcases @placeOf_cases _ _ index hfresh _ hentry with
    ⟨hreused, hplace⟩ | ⟨hreused, hupdate⟩ | ⟨hreused, -, hnone, hplace⟩
  · exact .inr ⟨hplace, fun hnew => by rw [hreused] at hnew; cases hnew⟩
  · exact .inl ⟨hreused, hupdate⟩
  · refine .inr ⟨hplace, fun _ oldId hmem => ?_⟩
    rw [← (paired hfresh).supersededBy_iff, hnone] at hmem
    cases hmem

/-- **No id stands twice in the order.** -/
theorem nodup_order (hold : (old.map (·.id)).Nodup) (hfresh : FreshIds old entries)
    (h : Indexed old arrivals entries index) : (reconcile old entries index).order.Nodup := by
  have hids := nodup_storedEntries hold hfresh h
  have hupdates := (@paired _ _ index hfresh).nodup_old hold
  rw [order_reconcile]
  refine (List.Nodup.of_map _ hids).map_on ?_
  intro a ha b hb hsame
  apply List.inj_on_of_nodup_map hids ha hb
  have hclaimed : ∀ {entry}, entry ∈ storedEntries entries → entry.reused = true →
      entry.id ∈ index.claimedIds := fun hentry hreused =>
    h.mem_claimed.mpr ⟨_, (mem_storedEntries.mp hentry).1, hreused, rfl⟩
  have hupdated : ∀ {oldId newId : Int}, (oldId, newId) ∈ (pairingOf old entries index).updates →
      oldId ∈ old.map (·.id) ∧ oldId ∉ index.claimedIds := fun hmem =>
    update_leftover hfresh h (List.mem_map.mpr ⟨_, hmem, rfl⟩)
  rcases @placeOf_cases _ _ index hfresh _ ha with
    ⟨hra, hpa⟩ | ⟨hra, hua⟩ | ⟨hra, hia, -, hpa⟩ <;>
  rcases @placeOf_cases _ _ index hfresh _ hb with
    ⟨hrb, hpb⟩ | ⟨hrb, hub⟩ | ⟨hrb, hib, -, hpb⟩
  · rw [← hpa, ← hpb, hsame]
  · rw [← hsame, hpa] at hub
    exact absurd (hclaimed ha hra) (hupdated hub).2
  · rw [hpa, hpb] at hsame
    exact absurd (hsame ▸ h.claimed_old (hclaimed ha hra)) (hfresh.fresh _ hib)
  · rw [hsame, hpb] at hua
    exact absurd (hclaimed hb hrb) (hupdated hua).2
  · rw [hsame] at hua
    have := List.inj_on_of_nodup_map hupdates hua hub rfl
    exact (Prod.mk.inj this).2
  · rw [hsame, hpb] at hua
    exact absurd (hupdated hua).1 (hfresh.fresh _ hib)
  · rw [hpa, hpb] at hsame
    exact absurd (hsame ▸ h.claimed_old (hclaimed hb hrb)) (hfresh.fresh _ hia)
  · rw [← hsame, hpa] at hub
    exact absurd (hupdated hub).1 (hfresh.fresh _ hia)
  · rw [← hpa, ← hpb, hsame]

theorem order_not_stale (hfresh : FreshIds old entries) (h : Indexed old arrivals entries index)
    {id : Int} (hid : id ∈ (reconcile old entries index).order) :
    id ∉ (reconcile old entries index).stale := by
  rw [order_reconcile] at hid
  obtain ⟨entry, hentry, rfl⟩ := List.mem_map.mp hid
  rcases @placeOf_cases _ _ index hfresh _ hentry with
    ⟨hreused, hplace⟩ | ⟨hreused, hupdate⟩ | ⟨hreused, hinserted, hnone, hplace⟩
  · have hclaimed := h.mem_claimed.mpr ⟨entry, (mem_storedEntries.mp hentry).1, hreused, rfl⟩
    rw [hplace, stale_old_iff hfresh (h.claimed_old hclaimed)]
    exact fun hstale => hstale.1 hclaimed
  · have hmem : placeOf (pairingOf old entries index) entry ∈
        (pairingOf old entries index).updates.map Prod.fst := List.mem_map.mpr ⟨_, hupdate, rfl⟩
    rw [stale_old_iff hfresh (update_leftover hfresh h hmem).1, updates_reconcile]
    exact fun hstale => hstale.2 hmem
  · rw [hplace, stale_reconcile, List.mem_append, not_or]
    constructor
    · intro hstale
      exact hfresh.fresh _ hinserted ((List.filter_sublist.map _).subset hstale)
    · rw [mem_carriers, hnone]
      exact fun hcarrier => Bool.noConfusion hcarrier.2

theorem inserted_order_or_stale {id : Int} (hid : id ∈ insertedIds entries) :
    id ∈ (reconcile old entries index).order ∨ id ∈ (reconcile old entries index).stale := by
  obtain ⟨entry, hentry, hreused, hnonneg, rfl⟩ := mem_insertedIds.mp hid
  rw [order_reconcile, stale_reconcile]
  cases hgot : (pairingOf old entries index).supersededBy entry.id with
  | none =>
    refine .inl (List.mem_map.mpr ⟨entry, mem_storedEntries.mpr ⟨hentry, hnonneg⟩, ?_⟩)
    unfold placeOf
    rw [hreused, hgot]
    rfl
  | some oldId =>
    refine .inr (List.mem_append_right _ (mem_carriers.mpr ⟨hid, ?_⟩))
    rw [hgot]
    rfl

/-- The order names old profiles and inserted ones only. -/
theorem mem_order (hfresh : FreshIds old entries) (h : Indexed old arrivals entries index) {id : Int}
    (hid : id ∈ (reconcile old entries index).order) :
    id ∈ old.map (·.id) ∨ id ∈ insertedIds entries := by
  rw [order_reconcile] at hid
  obtain ⟨entry, hentry, rfl⟩ := List.mem_map.mp hid
  rcases @placeOf_cases _ _ index hfresh _ hentry with
    ⟨hreused, hplace⟩ | ⟨-, hupdate⟩ | ⟨-, hinserted, -, hplace⟩
  · rw [hplace]
    exact .inl (h.claimed_old (h.mem_claimed.mpr ⟨entry, (mem_storedEntries.mp hentry).1, hreused, rfl⟩))
  · exact .inl (update_leftover hfresh h (List.mem_map.mpr ⟨_, hupdate, rfl⟩)).1
  · rw [hplace]
    exact .inr hinserted

theorem mem_stale {id : Int} (hid : id ∈ (reconcile old entries index).stale) :
    id ∈ old.map (·.id) ∨ id ∈ insertedIds entries := by
  rw [stale_reconcile, List.mem_append] at hid
  rcases hid with hold | hcarrier
  · exact .inl ((List.filter_sublist.map _).subset hold)
  · exact .inr (mem_carriers.mp hcarrier).1

/-- **An old profile keeps its place or is stale.** -/
theorem old_order_or_stale (hfresh : FreshIds old entries) (h : Indexed old arrivals entries index)
    (hids : ∀ id ∈ old.map (·.id), 0 ≤ id) {id : Int} (hid : id ∈ old.map (·.id)) :
    id ∈ (reconcile old entries index).order ∨ id ∈ (reconcile old entries index).stale := by
  by_cases hstale : id ∈ (reconcile old entries index).stale
  · exact .inr hstale
  · left
    rw [stale_old_iff hfresh hid, not_and_or, not_not, not_not] at hstale
    rw [order_reconcile, List.mem_map]
    rcases hstale with hclaimed | hupdated
    · obtain ⟨entry, hentry, hreused, rfl⟩ := h.mem_claimed.mp hclaimed
      refine ⟨entry, mem_storedEntries.mpr ⟨hentry, hids _ hid⟩, ?_⟩
      unfold placeOf
      rw [if_pos hreused]
    · rw [updates_reconcile] at hupdated
      obtain ⟨⟨oldId, newId⟩, hupdate, rfl⟩ := List.mem_map.mp hupdated
      obtain ⟨entry, hentry, hpairs, rfl, hgot⟩ := (paired hfresh).mem_updates.mp hupdate
      obtain ⟨hnonneg, hreused, -⟩ := pairs_iff.mp hpairs
      refine ⟨entry, mem_storedEntries.mpr ⟨hentry, hnonneg⟩, ?_⟩
      unfold placeOf
      rw [hreused, hgot]
      rfl

theorem unchanged_reconcile (h : Indexed old arrivals entries index)
    (hfresh : FreshIds old entries)
    (hsame : (arrivals.map (·.content)).Perm (old.map (·.keys.content))) :
    (reconcile old entries index).updates = [] ∧ (reconcile old entries index).stale = [] ∧
      (reconcile old entries index).added = [] := by
  obtain ⟨hreused, hclaimed⟩ := h.all_reused hsame
  have hpaired := @paired _ _ index hfresh
  have hupdates : (reconcile old entries index).updates = [] := by
    rw [updates_reconcile]
    apply List.eq_nil_iff_forall_not_mem.mpr
    rintro ⟨oldId, newId⟩ hupdate
    obtain ⟨entry, hentry, hpairs, -⟩ := hpaired.mem_updates.mp hupdate
    have := (pairs_iff.mp hpairs).2.1
    rw [hreused entry hentry] at this
    cases this
  refine ⟨hupdates, ?_, ?_⟩
  · apply List.eq_nil_iff_forall_not_mem.mpr
    intro id hid
    have hinserted : insertedIds entries = [] := by
      apply List.eq_nil_iff_forall_not_mem.mpr
      intro id hid
      obtain ⟨entry, hentry, hnew, -⟩ := mem_insertedIds.mp hid
      rw [hreused entry hentry] at hnew
      cases hnew
    rw [stale_reconcile, List.mem_append] at hid
    rcases hid with hstale | hcarrier
    · have hold := (List.filter_sublist.map _).subset hstale
      have hstale : id ∈ (reconcile old entries index).stale := by
        rw [stale_reconcile]
        exact List.mem_append_left _ hstale
      exact ((stale_old_iff hfresh hold).mp hstale).1 (hclaimed id hold)
    · have := (mem_carriers.mp hcarrier).1
      rw [hinserted] at this
      cases this
  · exact added_foldl_place entries hreused _

/-- **A reconciliation over an import is sound.** -/
theorem planSound_reconcile (hold : (old.map (·.id)).Nodup) (hfresh : FreshIds old entries)
    (h : Indexed old arrivals entries index) :
    PlanSound old arrivals entries index.claimedIds (reconcile old entries index) where
  parted _ hid := parted_reconcile hfresh h hid
  claims := ⟨h.claimedIds_eq, h.nodup_claimed hold⟩
  reuses x hx hreused := by
    obtain ⟨oldEntry, hmem, hcontent, hid⟩ := h.reuses (List.of_mem_zip hx).2 hreused
    exact ⟨oldEntry, hmem, hid, hcontent.trans (h.records_of_zip hx).content⟩
  order := by
    rw [order_reconcile, List.forall₂_map_right_iff, List.forall₂_same]
    exact fun entry hentry => takes_placeOf hfresh hentry
  orderNodup := nodup_order hold hfresh h
  orderNotStale _ hid := order_not_stale hfresh h hid
  inserted _ hid := inserted_order_or_stale hid
  updates := by
    rw [updates_reconcile]
    rintro ⟨oldId, newId⟩ hupdate
    obtain ⟨entry, hentry, hpairs, rfl, oldEntry, hmem, hleft, hidentity, rfl⟩ :=
      (paired hfresh).update_sound hupdate
    obtain ⟨hnonneg, hreused, hknown⟩ := pairs_iff.mp hpairs
    obtain ⟨arrival, hx⟩ := h.zip_of_mem hentry
    have hrecords := h.records_of_zip hx
    refine ⟨oldEntry, hmem, _, hx, rfl, ((isLeftover_iff h).mp hleft).1, rfl, hreused, hnonneg, ?_, ?_⟩
    · rw [hidentity]
      exact (hrecords.identity hknown).symm
    · rw [hrecords.known] at hknown
      exact of_decide_eq_false hknown
  updateOfOld := by
    rw [updates_reconcile]
    exact (paired hfresh).nodup_old hold
  updateOfArrival := by
    rw [updates_reconcile]
    exact (paired hfresh).nodup_new hfresh.nodup
  maximal := by
    rw [updates_reconcile]
    intro oldEntry hmem hclaimed hcontent hnot x hx hid hnew hfree
    have hpairs := h.pairs_of_zip hx hid (h.not_reused hx hnew) hnew
    rw [← (h.records_of_zip hx).identity (pairs_iff.mp hpairs).2.2]
    exact (paired hfresh).maximal hmem ((isLeftover_iff h).mpr ⟨hclaimed, hcontent⟩) hnot
      (List.of_mem_zip hx).2 hpairs hfree
  unchanged hsame := unchanged_reconcile h hfresh hsame

end Reconcile

/-- **The plan of every import is sound**, whichever chunks the database stored, as long as the
rows it stored have ids of their own. -/
theorem importAll_reconcile_sound (old : List OldEntry) (arrivals : List Arrival)
    (answers : ℕ → Option Int) (hold : (old.map (·.id)).Nodup)
    (hfresh : FreshIds old (ImportSink.importAll answers (some (.ofOld old)) arrivals).entries) :
    ∃ index, (ImportSink.importAll answers (some (.ofOld old)) arrivals).index = some index ∧
      PlanSound old arrivals (ImportSink.importAll answers (some (.ofOld old)) arrivals).entries
        index.claimedIds
        (reconcile old (ImportSink.importAll answers (some (.ofOld old)) arrivals).entries index) := by
  obtain ⟨index, hindex, himported⟩ := importAll_spec old answers arrivals
  exact ⟨index, hindex, planSound_reconcile hold hfresh himported.indexed⟩

/-- One of three old profiles is unchanged, one is edited and one is gone; one profile is new. -/
def sampleOld : List OldEntry :=
  [⟨3, ⟨[1], [10]⟩, []⟩, ⟨4, ⟨[2], [20]⟩, []⟩, ⟨5, ⟨[3], [30]⟩, []⟩]

def sampleArrivals : List Arrival := [⟨[9], [20], []⟩, ⟨[1], [10], []⟩, ⟨[8], [80], []⟩]

theorem importAll_reconcile_sound_sample :
    ∃ index, (ImportSink.importAll (fun _ => some 6) (some (.ofOld sampleOld))
        sampleArrivals).index = some index ∧
      PlanSound sampleOld sampleArrivals
        (ImportSink.importAll (fun _ => some 6) (some (.ofOld sampleOld)) sampleArrivals).entries
        index.claimedIds
        (reconcile sampleOld (ImportSink.importAll (fun _ => some 6) (some (.ofOld sampleOld))
          sampleArrivals).entries index) :=
  importAll_reconcile_sound sampleOld sampleArrivals (fun _ => some 6) (by decide)
    ⟨by decide, by decide⟩

end Throned.Subscription
