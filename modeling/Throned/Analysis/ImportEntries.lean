import Throned.Library.Positions
import Throned.Model.Reconcile

/-!
# What an import leaves

The entries of an import follow the arrivals one by one.  An entry that reuses an old
profile has the id it claimed; the `n`-th of the others belongs to the chunk `n / 500` and
has the id this chunk gave it, or none if the chunk was not stored.
-/

set_option autoImplicit false

namespace Throned.Subscription

open Throned.Library

/-! ## Storing the ids -/

namespace ImportSink

theorem map_modify_of_eq {α β : Type*} {f : α → β} {g : α → α} {l : List α} {j : ℕ}
    (h : ∀ a, l[j]? = some a → f (g a) = f a) : (l.modify j g).map f = l.map f := by
  apply List.ext_getElem?
  intro i
  rw [List.getElem?_map, List.getElem?_map, List.getElem?_modify]
  by_cases hij : j = i
  · subst hij
    cases ha : l[j]? with
    | none => rfl
    | some a => simp [h a ha]
  · simp [hij]

/-- Storing ids changes nothing that does not depend on the id of a new entry. -/
theorem map_storeIds {β : Type*} {f : NewEntry → β}
    (hf : ∀ (entry : NewEntry) (id : Int), entry.reused = false → f { entry with id } = f entry)
    (indices : List ℕ) : ∀ (id : Int) (entries : List NewEntry),
    (∀ j ∈ indices, ∀ entry, entries[j]? = some entry → entry.reused = false) →
    (storeIds id indices entries).map f = entries.map f := by
  induction indices with
  | nil => exact fun _ _ _ => rfl
  | cons i indices ih =>
    intro id entries hnew
    rw [storeIds, ih]
    · apply map_modify_of_eq
      exact fun entry hentry => hf entry id (hnew i List.mem_cons_self entry hentry)
    · intro j hj entry hentry
      rw [List.getElem?_modify] at hentry
      obtain ⟨old, hold, heq⟩ := Option.map_eq_some_iff.mp hentry
      have hreused := hnew j (List.mem_cons_of_mem _ hj) old hold
      split at heq <;> rw [← heq] <;> exact hreused

theorem getElem?_storeIds_of_not_mem (indices : List ℕ) : ∀ (id : Int) (entries : List NewEntry)
    {j : ℕ}, j ∉ indices → (storeIds id indices entries)[j]? = entries[j]? := by
  induction indices with
  | nil => exact fun _ _ _ _ => rfl
  | cons i indices ih =>
    intro id entries j hj
    rw [List.mem_cons, not_or] at hj
    rw [storeIds, ih _ _ hj.2, List.getElem?_modify_ne _ _ (Ne.symm hj.1)]

/-- The `i`-th index takes the `i`-th id. -/
theorem getElem?_storeIds (indices : List ℕ) : ∀ (id : Int) (entries : List NewEntry) {i j : ℕ},
    indices.Nodup → indices[i]? = some j →
    (storeIds id indices entries)[j]? = (entries[j]?).map fun entry => { entry with id := id + i } := by
  induction indices with
  | nil => exact fun _ _ _ _ _ h => by simp at h
  | cons k indices ih =>
    intro id entries i j hnodup hi
    obtain ⟨hk, hrest⟩ := List.nodup_cons.mp hnodup
    rw [storeIds]
    cases i with
    | zero =>
      rw [List.getElem?_cons_zero, Option.some.injEq] at hi
      subst hi
      rw [getElem?_storeIds_of_not_mem indices _ _ hk, List.getElem?_modify_eq]
      simp
    | succ i =>
      rw [List.getElem?_cons_succ] at hi
      have hne : k ≠ j := fun heq => hk (heq ▸ List.mem_of_getElem? hi)
      rw [ih _ _ hrest hi, List.getElem?_modify_ne _ _ hne]
      congr 2
      funext entry
      congr 1
      push_cast
      ring

theorem flush_index (answers : ℕ → Option Int) (s : ImportSink) :
    (s.flush answers).index = s.index := by
  unfold ImportSink.flush
  split
  · rfl
  · cases answers s.flushed <;> rfl

theorem push_index (answers : ℕ → Option Int) (s : ImportSink) (entry : NewEntry)
    (arrival : Arrival) : (s.push answers entry arrival).index = s.index := by
  unfold ImportSink.push
  simp only
  split
  · exact flush_index _ _
  · rfl

theorem flush_chunk (answers : ℕ → Option Int) (s : ImportSink) : (s.flush answers).chunk = [] := by
  unfold ImportSink.flush
  split
  · assumption
  · rfl

end ImportSink

/-! ## The invariant of an import -/

/-- What the content index has given the entries. -/
def claimLog (entries : List NewEntry) : List (Digest × Option Int) :=
  entries.map fun entry => (entry.keys.content, if entry.reused then some entry.id else none)

/-- An entry records its arrival. -/
structure Records (old : List OldEntry) (arrival : Arrival) (entry : NewEntry) : Prop where
  content : entry.keys.content = arrival.content
  display : entry.display = arrival.display
  known : entry.contentKnown = decide (arrival.content ∈ old.map (·.keys.content))
  identity : entry.contentKnown = false → entry.keys.identity = arrival.identity

/-- The entries so far, and the content index they leave. -/
structure Indexed (old : List OldEntry) (arrivals : List Arrival) (entries : List NewEntry)
    (index : ContentIndex) : Prop where
  served : Served (ContentIndex.ofOld old).unclaimed (claimLog entries) index.unclaimed
  known : index.known = old.map (·.keys.content)
  arrived : index.arrivals = arrivals.map (·.content)
  claimed : index.claimedIds = (claimLog entries).filterMap Prod.snd
  records : List.Forall₂ (Records old) arrivals entries

/-- The id of the `n`-th entry that reuses nothing. -/
def storedId (answers : ℕ → Option Int) (n : ℕ) : Int :=
  match answers (n / kInsertChunk) with
  | none => -1
  | some firstId => firstId + ((n % kInsertChunk : ℕ) : Int)

/-- The id the database gave the `n`-th arrival that reuses nothing, if it did. -/
def assignedId (answers : ℕ → Option Int) (n : ℕ) : Option Int :=
  (answers (n / kInsertChunk)).map fun firstId => firstId + ((n % kInsertChunk : ℕ) : Int)

/-- The ids given to the first `count` arrivals that reuse nothing. -/
def assignedIds (answers : ℕ → Option Int) (count : ℕ) : List Int :=
  (List.range count).filterMap (assignedId answers)

theorem storedId_eq (answers : ℕ → Option Int) (n : ℕ) :
    storedId answers n = (assignedId answers n).getD (-1) := by
  unfold storedId assignedId
  cases answers (n / kInsertChunk) <;> rfl

/-- A chunk's ids are consecutive. -/
theorem assignedIds_chunk (answers : ℕ → Option Int) (chunk : ℕ) {size : ℕ}
    (hsize : size ≤ kInsertChunk) :
    assignedIds answers (kInsertChunk * chunk + size) =
      assignedIds answers (kInsertChunk * chunk) ++
        match answers chunk with
        | none => []
        | some firstId => (List.range size).map fun i : ℕ => firstId + i := by
  unfold assignedIds
  rw [List.range_add, List.filterMap_append, List.filterMap_map]
  congr 1
  have hassigned : ∀ i ∈ List.range size, (assignedId answers ∘ (kInsertChunk * chunk + ·)) i =
      (answers chunk).map fun firstId => firstId + (i : Int) := by
    intro i hi
    have hlt : i < kInsertChunk := (List.mem_range.mp hi).trans_le hsize
    have hdiv : (kInsertChunk * chunk + i) / kInsertChunk = chunk := by
      rw [Nat.mul_add_div (by decide), Nat.div_eq_of_lt hlt, Nat.add_zero]
    have hmod : (kInsertChunk * chunk + i) % kInsertChunk = i := by
      rw [Nat.mul_add_mod, Nat.mod_eq_of_lt hlt]
    simp only [Function.comp, assignedId, hdiv, hmod]
  rw [List.filterMap_congr hassigned]
  cases answers chunk with
  | none => simp
  | some firstId => simp

/-- Where the entries stand that reuse nothing. -/
def newAt (entries : List NewEntry) : List ℕ := positions (fun entry => !entry.reused) entries

/-- The ids of the entries up to the `settled`-th new one; the others have none yet. -/
def Numbered (answers : ℕ → Option Int) (settled : ℕ) (entries : List NewEntry) : Prop :=
  ∀ n j entry, (newAt entries)[n]? = some j → entries[j]? = some entry →
    entry.id = if n < settled then storedId answers n else -1

/-- A sink whose chunk holds the new entries that are not settled yet. -/
structure Filling (answers : ℕ → Option Int) (s : ImportSink) : Prop where
  chunk : s.chunk.length = s.entryIndex.length
  pending : s.entryIndex = (newAt s.entries).drop (kInsertChunk * s.flushed)
  settled : kInsertChunk * s.flushed ≤ (newAt s.entries).length
  numbered : Numbered answers (kInsertChunk * s.flushed) s.entries
  added : s.added = assignedIds answers (kInsertChunk * s.flushed)

namespace Filling

variable {answers : ℕ → Option Int} {s : ImportSink}

theorem length_newAt (h : Filling answers s) :
    (newAt s.entries).length = kInsertChunk * s.flushed + s.chunk.length := by
  have hlength := congrArg List.length h.pending
  rw [List.length_drop] at hlength
  have := h.settled
  have := h.chunk
  omega

/-- The entries of the chunk reuse nothing. -/
theorem new_of_mem (h : Filling answers s) {j : ℕ} (hj : j ∈ s.entryIndex) {entry : NewEntry}
    (hentry : s.entries[j]? = some entry) : entry.reused = false := by
  rw [h.pending] at hj
  obtain ⟨e, he, hnew⟩ := mem_positions.mp (List.mem_of_mem_drop hj)
  rw [hentry, Option.some.injEq] at he
  rw [he]
  simpa using hnew

/-- A flush changes the ids of new entries only. -/
theorem map_flush {β : Type*} {f : NewEntry → β} (h : Filling answers s)
    (hf : ∀ (entry : NewEntry) (id : Int), entry.reused = false → f { entry with id } = f entry) :
    (s.flush answers).entries.map f = s.entries.map f := by
  unfold ImportSink.flush
  split
  · rfl
  · cases answers s.flushed with
    | none => rfl
    | some firstId =>
      exact ImportSink.map_storeIds hf s.entryIndex firstId s.entries fun j hj entry hentry =>
        h.new_of_mem hj hentry

theorem newAt_flush (h : Filling answers s) : newAt (s.flush answers).entries = newAt s.entries :=
  positions_congr (h.map_flush fun _ _ _ => rfl)

/-- **A flush numbers the entries of its chunk.** -/
theorem numbered_flush (h : Filling answers s) (hsmall : s.chunk.length ≤ kInsertChunk)
    (hne : s.chunk ≠ []) :
    Numbered answers (kInsertChunk * (s.flushed + 1)) (s.flush answers).entries := by
  intro n j entry hn hentry
  rw [h.newAt_flush] at hn
  have hlength := h.length_newAt
  obtain ⟨hlt, -⟩ := List.getElem?_eq_some_iff.mp hn
  rw [if_pos (by rw [Nat.mul_succ]; omega)]
  have hnodup : s.entryIndex.Nodup := by
    rw [h.pending]
    exact (List.drop_sublist _ _).nodup (nodup_positions _)
  unfold ImportSink.flush at hentry
  rw [if_neg hne] at hentry
  by_cases hold : n < kInsertChunk * s.flushed
  · -- an entry of an earlier chunk
    have hnot : j ∉ s.entryIndex := by
      rw [h.pending]
      intro hmem
      obtain ⟨i, hi⟩ := List.mem_iff_getElem?.mp hmem
      rw [List.getElem?_drop] at hi
      obtain ⟨hn', hgetn⟩ := List.getElem?_eq_some_iff.mp hn
      obtain ⟨hi', hgeti⟩ := List.getElem?_eq_some_iff.mp hi
      have := (nodup_positions _).getElem_inj_iff.mp (hgetn.trans hgeti.symm)
      omega
    have hsame : s.entries[j]? = some entry := by
      cases hanswer : answers s.flushed with
      | none =>
        rw [hanswer] at hentry
        exact hentry
      | some firstId =>
        rw [hanswer] at hentry
        simp only at hentry
        rwa [ImportSink.getElem?_storeIds_of_not_mem _ _ _ hnot] at hentry
    have := h.numbered n j entry hn hsame
    rwa [if_pos hold] at this
  · -- the `i`-th entry of this chunk
    obtain ⟨i, rfl⟩ : ∃ i, n = kInsertChunk * s.flushed + i := ⟨n - kInsertChunk * s.flushed, by omega⟩
    have hi : s.entryIndex[i]? = some j := by
      rw [h.pending, List.getElem?_drop]
      exact hn
    have hsize : i < kInsertChunk := by omega
    have hdiv : (kInsertChunk * s.flushed + i) / kInsertChunk = s.flushed := by
      rw [Nat.mul_add_div (by decide), Nat.div_eq_of_lt hsize, Nat.add_zero]
    have hmod : (kInsertChunk * s.flushed + i) % kInsertChunk = i := by
      rw [Nat.mul_add_mod, Nat.mod_eq_of_lt hsize]
    rw [storedId, hdiv, hmod]
    cases hanswer : answers s.flushed with
    | none =>
      rw [hanswer] at hentry
      have := h.numbered _ j entry hn hentry
      rwa [if_neg hold] at this
    | some firstId =>
      rw [hanswer] at hentry
      simp only at hentry
      rw [ImportSink.getElem?_storeIds _ _ _ hnodup hi] at hentry
      obtain ⟨old, -, rfl⟩ := Option.map_eq_some_iff.mp hentry
      rfl

/-- A flush adds the ids of its chunk. -/
theorem added_flush (h : Filling answers s) (hsmall : s.chunk.length ≤ kInsertChunk) :
    (s.flush answers).added = assignedIds answers (kInsertChunk * s.flushed + s.chunk.length) := by
  rw [assignedIds_chunk answers s.flushed hsmall, ← h.added]
  unfold ImportSink.flush
  split
  · rename_i hempty
    rw [hempty]
    cases answers s.flushed <;> simp
  · cases answers s.flushed with
    | none => exact (List.append_nil _).symm
    | some firstId => rfl

/-- A full chunk that has been flushed leaves an empty one. -/
theorem flush_full (h : Filling answers s) (hfull : s.chunk.length = kInsertChunk) :
    Filling answers (s.flush answers) := by
  have hne : s.chunk ≠ [] := by
    intro hnil
    rw [hnil] at hfull
    exact absurd hfull (by decide)
  have hlength := h.length_newAt
  have hflushed : (s.flush answers).flushed = s.flushed + 1 ∧ (s.flush answers).chunk = [] ∧
      (s.flush answers).entryIndex = [] := by
    unfold ImportSink.flush
    rw [if_neg hne]
    cases answers s.flushed <;> exact ⟨rfl, rfl, rfl⟩
  obtain ⟨hflushed, hchunk, hindex⟩ := hflushed
  refine ⟨by rw [hchunk, hindex]; rfl, ?_, ?_, ?_, ?_⟩
  · rw [hindex, h.newAt_flush, hflushed, Nat.mul_succ, List.drop_eq_nil_of_le (by omega)]
  · rw [h.newAt_flush, hflushed, Nat.mul_succ]
    omega
  · rw [hflushed]
    exact h.numbered_flush hfull.le hne
  · rw [h.added_flush hfull.le, hflushed, hfull, Nat.mul_succ]

/-- A reused entry is not stored. -/
theorem append_reused (h : Filling answers s) (entry : NewEntry) (hreused : entry.reused = true)
    (index : Option ContentIndex) :
    Filling answers { s with index, entries := s.entries ++ [entry] } := by
  have hat : newAt (s.entries ++ [entry]) = newAt s.entries := by
    unfold newAt
    rw [positions_concat]
    simp [hreused]
  refine ⟨h.chunk, by rw [hat]; exact h.pending, by rw [hat]; exact h.settled, ?_, h.added⟩
  intro n j e hn he
  rw [hat] at hn
  apply h.numbered n j e hn
  obtain ⟨old, hold, -⟩ := mem_positions.mp (List.mem_of_getElem? hn)
  obtain ⟨hlt, -⟩ := List.getElem?_eq_some_iff.mp hold
  rwa [List.getElem?_append_left hlt] at he

/-- A new entry goes into the chunk. -/
theorem append_new (h : Filling answers s) (entry : NewEntry) (hnew : entry.reused = false)
    (hid : entry.id = -1) (arrival : Arrival) :
    Filling answers { s with
      entryIndex := s.entryIndex ++ [s.entries.length], entries := s.entries ++ [entry]
      chunk := s.chunk ++ [arrival] } := by
  have hat : newAt (s.entries ++ [entry]) = newAt s.entries ++ [s.entries.length] := by
    unfold newAt
    rw [positions_concat]
    simp [hnew]
  constructor
  · simp [h.chunk]
  · simp only
    rw [hat, List.drop_append_of_le_length h.settled, ← h.pending]
  · simp only
    rw [hat, List.length_append]
    exact h.settled.trans (Nat.le_add_right _ _)
  · intro n j e hn he
    simp only at hn he ⊢
    rw [hat] at hn
    rcases Nat.lt_or_ge n (newAt s.entries).length with hlt | hge
    · rw [List.getElem?_append_left hlt] at hn
      apply h.numbered n j e hn
      obtain ⟨old, hold, -⟩ := mem_positions.mp (List.mem_of_getElem? hn)
      obtain ⟨hj, -⟩ := List.getElem?_eq_some_iff.mp hold
      rwa [List.getElem?_append_left hj] at he
    · rw [List.getElem?_append_right hge] at hn
      have hj : j = s.entries.length := by
        have := List.mem_singleton.mp (List.mem_of_getElem? hn)
        exact this
      rw [hj, List.getElem?_concat_length, Option.some.injEq] at he
      rw [if_neg (by have := h.settled; omega), ← he, hid]
  · exact h.added

/-- Between two arrivals a chunk is not full. -/
theorem push (h : Filling answers s) (hsmall : s.chunk.length < kInsertChunk) (entry : NewEntry)
    (hnew : entry.reused = false) (hid : entry.id = -1) (arrival : Arrival) :
    Filling answers (s.push answers entry arrival) ∧
      (s.push answers entry arrival).chunk.length < kInsertChunk := by
  have hfilling := h.append_new entry hnew hid arrival
  unfold ImportSink.push
  simp only
  split
  · rename_i hfull
    have hexact : (s.chunk ++ [arrival]).length = kInsertChunk := by
      rw [List.length_append, List.length_singleton] at hfull ⊢
      omega
    refine ⟨hfilling.flush_full hexact, ?_⟩
    rw [ImportSink.flush_chunk]
    decide
  · rename_i hroom
    exact ⟨hfilling, Nat.lt_of_not_le hroom⟩

theorem new (answers : ℕ → Option Int) (index : Option ContentIndex) : Filling answers (.new index) :=
  ⟨rfl, rfl, Nat.le_refl _, nofun, rfl⟩

theorem withIndex (h : Filling answers s) (index : Option ContentIndex) :
    Filling answers { s with index } :=
  ⟨h.chunk, h.pending, h.settled, h.numbered, h.added⟩

theorem map_push {β : Type*} {f : NewEntry → β} (h : Filling answers s) (entry : NewEntry)
    (hnew : entry.reused = false) (hid : entry.id = -1) (arrival : Arrival)
    (hf : ∀ (entry : NewEntry) (id : Int), entry.reused = false → f { entry with id } = f entry) :
    (s.push answers entry arrival).entries.map f = (s.entries ++ [entry]).map f := by
  unfold ImportSink.push
  simp only
  split
  · exact (h.append_new entry hnew hid arrival).map_flush hf
  · rfl

/-- After the last flush every new entry has the id its chunk gave it. -/
theorem numbered_last (h : Filling answers s) (hsmall : s.chunk.length < kInsertChunk) {n j : ℕ}
    {entry : NewEntry} (hn : (newAt (s.flush answers).entries)[n]? = some j)
    (hentry : (s.flush answers).entries[j]? = some entry) : entry.id = storedId answers n := by
  have hlt := (List.getElem?_eq_some_iff.mp hn).1
  rw [h.newAt_flush, h.length_newAt] at hlt
  by_cases hchunk : s.chunk = []
  · have hsame : s.flush answers = s := by
      unfold ImportSink.flush
      exact if_pos hchunk
    rw [hsame] at hn hentry
    rw [h.numbered n j entry hn hentry]
    rw [hchunk] at hlt
    exact if_pos hlt
  · rw [h.numbered_flush hsmall.le hchunk n j entry hn hentry]
    rw [Nat.mul_succ]
    exact if_pos (by omega)

end Filling

/-! ## The arrivals one by one -/

namespace Indexed

variable {old : List OldEntry} {arrivals : List Arrival} {entries : List NewEntry}
  {index : ContentIndex}

theorem nil (old : List OldEntry) : Indexed old [] [] (.ofOld old) :=
  ⟨Served.nil _, rfl, rfl, rfl, .nil⟩

/-- The ids of new entries do not matter. -/
theorem congr (h : Indexed old arrivals entries index) {entries' : List NewEntry}
    (hmap : ∀ {β : Type} (f : NewEntry → β), (∀ (entry : NewEntry) (id : Int),
      entry.reused = false → f { entry with id } = f entry) → entries'.map f = entries.map f) :
    Indexed old arrivals entries' index := by
  have hlog : claimLog entries' = claimLog entries := by
    apply hmap
    intro entry id hnew
    simp [hnew]
  have hrecorded := hmap (fun entry => (entry.keys, entry.display, entry.contentKnown))
    fun _ _ _ => rfl
  refine ⟨hlog ▸ h.served, h.known, h.arrived, hlog ▸ h.claimed, ?_⟩
  have hrecords : List.Forall₂ (fun arrival (recorded : ProfileKeys × Text × Bool) =>
      recorded.1.content = arrival.content ∧ recorded.2.1 = arrival.display ∧
        recorded.2.2 = decide (arrival.content ∈ old.map (·.keys.content)) ∧
        (recorded.2.2 = false → recorded.1.identity = arrival.identity)) arrivals
      (entries.map fun entry => (entry.keys, entry.display, entry.contentKnown)) := by
    rw [List.forall₂_map_right_iff]
    exact h.records.imp fun _ _ hr => ⟨hr.content, hr.display, hr.known, hr.identity⟩
  rw [← hrecorded, List.forall₂_map_right_iff] at hrecords
  exact hrecords.imp fun _ _ hr => ⟨hr.1, hr.2.1, hr.2.2.1, hr.2.2.2⟩

/-- The entry of one more arrival, and the index it leaves. -/
theorem concat (h : Indexed old arrivals entries index) (arrival : Arrival) {index' : ContentIndex}
    {got : Option Int}
    (hclaim : (index.noteArrival arrival.content).claim arrival.content = (index', got))
    (entry : NewEntry) (hrecords : Records old arrival entry)
    (hgot : (if entry.reused then some entry.id else none) = got) :
    Indexed old (arrivals ++ [arrival]) (entries ++ [entry]) index' := by
  have htake := h.served.take arrival.content
  have hlog : claimLog (entries ++ [entry]) = claimLog entries ++ [(arrival.content, got)] := by
    unfold claimLog
    rw [List.map_append, List.map_singleton, hgot, hrecords.content]
  have hall : List.Forall₂ (Records old) (arrivals ++ [arrival]) (entries ++ [entry]) :=
    List.rel_append h.records (.cons hrecords .nil)
  unfold ContentIndex.claim ContentIndex.noteArrival at hclaim
  simp only at hclaim
  cases hunclaimed : index.unclaimed.take arrival.content with
  | mk first unclaimed =>
    rw [hunclaimed] at htake hclaim
    cases first with
    | none =>
      cases hclaim
      have hsame : unclaimed = index.unclaimed := by
        unfold Pool.take at hunclaimed
        split at hunclaimed <;> cases hunclaimed
        rfl
      subst hsame
      refine ⟨hlog ▸ htake, h.known, by simp [h.arrived], ?_, hall⟩
      rw [hlog, List.filterMap_append, ← h.claimed]
      simp
    | some id =>
      cases hclaim
      refine ⟨hlog ▸ htake, h.known, by simp [h.arrived], ?_, hall⟩
      rw [hlog, List.filterMap_append, ← h.claimed]
      simp

end Indexed

/-- A sink between two arrivals. -/
structure Importing (old : List OldEntry) (answers : ℕ → Option Int) (arrivals : List Arrival)
    (s : ImportSink) (index : ContentIndex) : Prop where
  indexOf : s.index = some index
  indexed : Indexed old arrivals s.entries index
  filling : Filling answers s
  small : s.chunk.length < kInsertChunk

namespace Importing

variable {old : List OldEntry} {answers : ℕ → Option Int} {arrivals : List Arrival}
  {s : ImportSink} {index : ContentIndex}

theorem claim_some {content : Digest} {index' : ContentIndex} {id : Int}
    (h : (index.noteArrival content).claim content = (index', some id)) :
    (index.unclaimed.take content).1 = some id := by
  unfold ContentIndex.claim ContentIndex.noteArrival at h
  simp only at h
  split at h
  · cases h
  · rename_i first rest hfirst
    rw [hfirst]
    cases h
    rfl

theorem add (h : Importing old answers arrivals s index) (arrival : Arrival) :
    ∃ index', Importing old answers (arrivals ++ [arrival]) (s.add answers arrival) index' := by
  unfold ImportSink.add
  rw [h.indexOf]
  simp only
  have hknows : index.knows arrival.content = decide (arrival.content ∈ old.map (·.keys.content)) := by
    unfold ContentIndex.knows
    rw [h.indexed.known]
  cases hclaim : (index.noteArrival arrival.content).claim arrival.content with
  | mk index' got =>
    cases got with
    | some oldId =>
      let entry : NewEntry := ⟨oldId, true, index.knows arrival.content, ⟨arrival.content, []⟩,
        arrival.display⟩
      refine ⟨index', rfl, ?_, h.filling.append_reused entry rfl _, h.small⟩
      apply h.indexed.concat arrival hclaim entry ⟨rfl, rfl, hknows, fun hunknown => ?_⟩ rfl
      -- an old profile is claimed for its content only, which is known then
      exfalso
      have hold := (h.indexed.served.take arrival.content).mem_pool
        (List.mem_append_right _ (List.mem_singleton.mpr (Prod.ext rfl (claim_some hclaim).symm)))
      obtain ⟨e, he, -⟩ := List.mem_map.mp hold
      obtain ⟨hmem, hcontent⟩ := List.mem_filter.mp he
      have hknown := hknows.symm.trans hunknown
      rw [decide_eq_false_iff_not] at hknown
      exact hknown (List.mem_map.mpr ⟨e, hmem, of_decide_eq_true hcontent⟩)
    | none =>
      let entry : NewEntry := ⟨-1, false, index.knows arrival.content,
        ⟨arrival.content, if index.knows arrival.content then [] else arrival.identity⟩,
        arrival.display⟩
      have hentry : Records old arrival entry := by
        refine ⟨rfl, rfl, hknows, fun hunknown => ?_⟩
        exact if_neg (by rw [show index.knows arrival.content = false from hunknown]; decide)
      have hindexed := h.indexed.concat arrival hclaim entry hentry rfl
      have hfilling := h.filling.withIndex (some index')
      obtain ⟨hpushed, hsmall⟩ := hfilling.push h.small entry rfl rfl arrival
      refine ⟨index', ImportSink.push_index _ _ _ _, ?_, hpushed, hsmall⟩
      exact hindexed.congr fun f hf => hfilling.map_push entry rfl rfl arrival hf

theorem foldl (more : List Arrival) : ∀ {arrivals : List Arrival} {s : ImportSink}
    {index : ContentIndex}, Importing old answers arrivals s index →
    ∃ index', Importing old answers (arrivals ++ more) (more.foldl (ImportSink.add answers) s)
      index' := by
  induction more with
  | nil => exact fun {arrivals s index} h => ⟨index, by rwa [List.append_nil]⟩
  | cons arrival more ih =>
    intro arrivals s index h
    obtain ⟨index₁, h₁⟩ := h.add arrival
    have hrest := ih h₁
    rwa [List.append_assoc] at hrest

theorem initial (old : List OldEntry) (answers : ℕ → Option Int) :
    Importing old answers [] (.new (some (.ofOld old))) (.ofOld old) := by
  exact ⟨rfl, Indexed.nil old, Filling.new answers _, (by decide : 0 < kInsertChunk)⟩

end Importing

/-- What the import of a document leaves for the reconciliation. -/
structure Imported (old : List OldEntry) (answers : ℕ → Option Int) (arrivals : List Arrival)
    (entries : List NewEntry) (index : ContentIndex) : Prop where
  indexed : Indexed old arrivals entries index
  numbered : ∀ n j entry, (newAt entries)[n]? = some j → entries[j]? = some entry →
    entry.id = storedId answers n

/-- **The entries and the index an import ends with.** -/
theorem importAll_spec (old : List OldEntry) (answers : ℕ → Option Int) (arrivals : List Arrival) :
    ∃ index, (ImportSink.importAll answers (some (.ofOld old)) arrivals).index = some index ∧
      Imported old answers arrivals
        (ImportSink.importAll answers (some (.ofOld old)) arrivals).entries index := by
  obtain ⟨index, h⟩ := (Importing.initial old answers).foldl arrivals
  rw [List.nil_append] at h
  refine ⟨index, ?_, ?_, fun n j entry hn hentry => h.filling.numbered_last h.small hn hentry⟩
  · unfold ImportSink.importAll
    rw [ImportSink.flush_index]
    exact h.indexOf
  · exact h.indexed.congr fun f hf => h.filling.map_flush hf

end Throned.Subscription
