import Throned.Analysis.ReconcilePlans

/-!
# The ids of an import

The id counter of the database hands out ranges that are not in use.  The inserted arrivals
then have distinct ids of their own, and they are the ids the sink collected.
-/

set_option autoImplicit false

namespace Throned.Subscription

open Throned.Library

/-- Every stored chunk gets a range of ids that nothing else has. -/
structure FreshAnswers (used : List Int) (answers : ℕ → Option Int) : Prop where
  nonneg : ∀ chunk firstId, answers chunk = some firstId → 0 ≤ firstId
  unused : ∀ chunk firstId, answers chunk = some firstId → ∀ i : ℕ, i < kInsertChunk →
    firstId + i ∉ used
  apart : ∀ chunk other firstId otherId, answers chunk = some firstId →
    answers other = some otherId → chunk ≠ other →
    firstId + kInsertChunk ≤ otherId ∨ otherId + kInsertChunk ≤ firstId

namespace FreshAnswers

variable {used : List Int} {answers : ℕ → Option Int}

theorem assigned (h : FreshAnswers used answers) {n : ℕ} {id : Int}
    (hid : assignedId answers n = some id) : 0 ≤ id ∧ id ∉ used := by
  obtain ⟨firstId, hanswer, rfl⟩ := Option.map_eq_some_iff.mp hid
  have hnonneg := h.nonneg _ _ hanswer
  refine ⟨by omega, h.unused _ _ hanswer _ (Nat.mod_lt _ (by decide))⟩

/-- **No two arrivals get one id.** -/
theorem assignedId_inj (h : FreshAnswers used answers) {n m : ℕ} {id : Int}
    (hn : assignedId answers n = some id) (hm : assignedId answers m = some id) : n = m := by
  obtain ⟨a, ha, hna⟩ := Option.map_eq_some_iff.mp hn
  obtain ⟨b, hb, hmb⟩ := Option.map_eq_some_iff.mp hm
  have hnmod : n % kInsertChunk < kInsertChunk := Nat.mod_lt _ (by decide)
  have hmmod : m % kInsertChunk < kInsertChunk := Nat.mod_lt _ (by decide)
  have hdiv : n / kInsertChunk = m / kInsertChunk := by
    by_contra hne
    have := h.apart _ _ _ _ ha hb hne
    omega
  rw [hdiv, hb] at ha
  have hab := Option.some.inj ha
  have hmod : n % kInsertChunk = m % kInsertChunk := by omega
  rw [← Nat.div_add_mod n kInsertChunk, ← Nat.div_add_mod m kInsertChunk, hdiv, hmod]

theorem nodup_assignedIds (h : FreshAnswers used answers) (count : ℕ) :
    (assignedIds answers count).Nodup :=
  List.nodup_range.filterMap fun _ _ _ hn hm => h.assignedId_inj hn hm

theorem mem_assignedIds {count : ℕ} {id : Int} :
    id ∈ assignedIds answers count ↔ ∃ n < count, assignedId answers n = some id := by
  unfold assignedIds
  rw [List.mem_filterMap]
  simp only [List.mem_range]

theorem of_mem (h : FreshAnswers used answers) {count : ℕ} {id : Int}
    (hid : id ∈ assignedIds answers count) : 0 ≤ id ∧ id ∉ used := by
  obtain ⟨n, -, hn⟩ := mem_assignedIds.mp hid
  exact h.assigned hn

theorem filter_storedId (h : FreshAnswers used answers) (l : List ℕ) :
    (l.map (storedId answers)).filter (fun id => decide (0 ≤ id)) = l.filterMap (assignedId answers) := by
  induction l with
  | nil => rfl
  | cons n l ih =>
    rw [List.map_cons, List.filter_cons, ih, List.filterMap_cons, storedId_eq]
    cases hid : assignedId answers n with
    | none => rfl
    | some id => simp [(h.assigned hid).1]

end FreshAnswers

namespace Imported

variable {old : List OldEntry} {answers : ℕ → Option Int} {arrivals : List Arrival}
  {entries : List NewEntry} {index : ContentIndex} {used : List Int}

/-- The new entries have the ids their chunks gave them, in order. -/
theorem map_id_new (h : Imported old answers arrivals entries index) :
    (entries.filter fun entry => !entry.reused).map (·.id) =
      (List.range (newAt entries).length).map (storedId answers) := by
  apply List.ext_getElem?
  intro n
  rw [List.getElem?_map, List.getElem?_map, getElem?_filter]
  rcases Nat.lt_or_ge n (newAt entries).length with hlt | hge
  · have hn : (newAt entries)[n]? = some ((newAt entries)[n]) := List.getElem?_eq_getElem hlt
    obtain ⟨entry, hentry, -⟩ := mem_positions.mp (List.mem_of_getElem? hn)
    rw [show (positions (fun entry : NewEntry => !entry.reused) entries)[n]? = _ from hn,
      Option.bind_some, hentry, List.getElem?_range hlt, Option.map_some, Option.map_some,
      h.numbered n _ entry hn hentry]
  · rw [show (positions (fun entry : NewEntry => !entry.reused) entries)[n]? = none from
        List.getElem?_eq_none hge, List.getElem?_eq_none (by simpa using hge)]
    rfl

/-- **The inserted ids are the assigned ones.** -/
theorem insertedIds_eq (h : Imported old answers arrivals entries index)
    (hfresh : FreshAnswers used answers) :
    insertedIds entries = assignedIds answers (newAt entries).length := by
  have hfilter : insertedIds entries =
      ((entries.filter fun entry => !entry.reused).map (·.id)).filter fun id => decide (0 ≤ id) := by
    unfold insertedIds
    rw [List.filter_map, List.filter_filter]
    congr 2
    funext entry
    exact Bool.and_comm _ _
  rw [hfilter, h.map_id_new, hfresh.filter_storedId]
  rfl

theorem freshIds (h : Imported old answers arrivals entries index)
    (hfresh : FreshAnswers used answers) (hused : ∀ id ∈ old.map (·.id), id ∈ used) :
    FreshIds old entries := by
  refine ⟨?_, fun id hid hold => ?_⟩
  · rw [h.insertedIds_eq hfresh]
    exact hfresh.nodup_assignedIds _
  · rw [h.insertedIds_eq hfresh] at hid
    exact (hfresh.of_mem hid).2 (hused id hold)

end Imported

/-! ## What the sink collects -/

namespace ImportSink

variable {answers : ℕ → Option Int}

/-- The last flush completes the ids. -/
theorem added_last {s : ImportSink} (h : Filling answers s) (hsmall : s.chunk.length < kInsertChunk) :
    (s.flush answers).added = assignedIds answers (newAt (s.flush answers).entries).length := by
  rw [h.added_flush hsmall.le, h.newAt_flush, h.length_newAt]

theorem added_importAll (old : List OldEntry) (arrivals : List Arrival) :
    (importAll answers (some (.ofOld old)) arrivals).added =
      assignedIds answers (newAt (importAll answers (some (.ofOld old)) arrivals).entries).length := by
  obtain ⟨index, h⟩ := (Importing.initial old answers).foldl arrivals
  exact added_last h.filling h.small

/-- Without an index everything is new. -/
structure Unindexed (answers : ℕ → Option Int) (arrivals : List Arrival) (s : ImportSink) : Prop where
  index : s.index = none
  filling : Filling answers s
  small : s.chunk.length < kInsertChunk
  all : s.entries.map (·.reused) = arrivals.map fun _ => false

theorem Unindexed.add {arrivals : List Arrival} {s : ImportSink} (h : Unindexed answers arrivals s)
    (arrival : Arrival) : Unindexed answers (arrivals ++ [arrival]) (s.add answers arrival) := by
  unfold ImportSink.add
  rw [h.index]
  obtain ⟨hfilling, hsmall⟩ :=
    h.filling.push h.small ⟨-1, false, false, ⟨[], []⟩, arrival.display⟩ rfl rfl arrival
  refine ⟨(push_index _ _ _ _).trans h.index, hfilling, hsmall, ?_⟩
  rw [h.filling.map_push _ rfl rfl arrival fun _ _ _ => rfl, List.map_append, List.map_append, h.all]
  rfl

theorem unindexed_foldl (arrivals : List Arrival) :
    Unindexed answers arrivals (arrivals.foldl (ImportSink.add answers) (new none)) := by
  induction arrivals using List.reverseRecOn with
  | nil => exact ⟨rfl, Filling.new answers none, (by decide : 0 < kInsertChunk), rfl⟩
  | append_singleton arrivals arrival ih =>
    rw [List.foldl_append]
    exact ih.add arrival

theorem index_importAll_none (arrivals : List Arrival) :
    (importAll answers none arrivals).index = none := by
  unfold importAll
  rw [flush_index]
  exact (unindexed_foldl arrivals).index

/-- As many entries as arrivals, and all are new. -/
theorem length_newAt_eq {arrivals : List Arrival} {entries : List NewEntry}
    (hall : entries.map (·.reused) = arrivals.map fun _ => false) :
    (newAt entries).length = arrivals.length := by
  unfold newAt
  have hcount : (entries.map (·.reused)).countP (fun reused => !reused) =
      (arrivals.map fun _ => false).countP fun reused => !reused := by rw [hall]
  rw [List.countP_map, List.countP_map] at hcount
  rw [length_positions]
  refine hcount.trans ?_
  rw [List.countP_eq_length]
  exact fun _ _ => rfl

theorem added_importAll_none (arrivals : List Arrival) :
    (importAll answers none arrivals).added = assignedIds answers arrivals.length := by
  have h := @unindexed_foldl answers arrivals
  unfold importAll
  rw [added_last h.filling h.small]
  congr 1
  apply length_newAt_eq
  rw [h.filling.map_flush fun _ _ _ => rfl]
  exact h.all

end ImportSink

/-- Nothing is reused where nothing was old. -/
theorem Indexed.all_new {arrivals : List Arrival} {entries : List NewEntry} {index : ContentIndex}
    (h : Indexed [] arrivals entries index) : entries.map (·.reused) = arrivals.map fun _ => false := by
  have hnew : ∀ entry ∈ entries, entry.reused = false := by
    intro entry hentry
    cases hreused : entry.reused with
    | false => rfl
    | true =>
      obtain ⟨oldEntry, hmem, -⟩ := h.reuses hentry hreused
      cases hmem
  have hlength := h.records.length_eq
  rw [List.map_congr_left hnew, List.map_const', List.map_const', hlength]

end Throned.Subscription
