import Throned.Analysis.ImportIds
import Throned.Analysis.PlanSoundness
import Throned.Analysis.RefreshListing

/-!
# Old profiles and failed chunks

An arrival whose content is new to the group takes the place of an old profile of its
identity, the first such arrival that of the first such old profile.  When its chunk is not
stored it drops out of the pairing, and the later arrivals of its identity move up.
-/

set_option autoImplicit false

namespace Throned.Subscription

open Throned.Library

/-! ## Where an arrival stands -/

/-- The arrival at a place is not reused: the old profiles of its content are all claimed. -/
def isInserted (old : List OldEntry) (arrivals : List Arrival) (k : ℕ) : Bool :=
  (arrivals[k]?).any fun a =>
    decide (old.countP (fun e => e.keys.content = a.content) ≤
      (arrivals.take k).countP fun b => b.content = a.content)

/-- How many arrivals before a place are inserted. -/
def insertNumber (old : List OldEntry) (arrivals : List Arrival) (k : ℕ) : ℕ :=
  (List.range k).countP (isInserted old arrivals)

/-- Whether the chunk of an inserted arrival was stored. -/
def isSaved (old : List OldEntry) (arrivals : List Arrival) (answers : ℕ → Option Int) (k : ℕ) :
    Bool :=
  (answers (insertNumber old arrivals k / kInsertChunk)).isSome

/-- An arrival of an identity whose content the group does not have. -/
def isChanged (old : List OldEntry) (identity : Digest) (a : Arrival) : Bool :=
  decide (a.content ∉ old.map (·.keys.content)) && decide (a.identity = identity)

/-- The changed arrivals of an identity before a place. -/
def changedBefore (old : List OldEntry) (arrivals : List Arrival) (identity : Digest) (k : ℕ) : ℕ :=
  (arrivals.take k).countP (isChanged old identity)

/-- Those of them that were stored. -/
def savedBefore (old : List OldEntry) (arrivals : List Arrival) (answers : ℕ → Option Int)
    (identity : Digest) (k : ℕ) : ℕ :=
  (List.range k).countP fun j =>
    (arrivals[j]?).any (isChanged old identity) && isSaved old arrivals answers j

/-- The old profiles of an identity whose content did not arrive. -/
def replaceable (old : List OldEntry) (arrivals : List Arrival) (identity : Digest) :
    List OldEntry :=
  old.filter fun e =>
    decide (e.keys.content ∉ arrivals.map (·.content)) && decide (e.keys.identity = identity)

section Places

variable {old : List OldEntry} {answers : ℕ → Option Int} {arrivals : List Arrival}
  {entries : List NewEntry} {index : ContentIndex} {used : List Int}

theorem Indexed.getElem? (h : Indexed old arrivals entries index) {k : ℕ} {a : Arrival}
    (ha : arrivals[k]? = some a) : ∃ entry, entries[k]? = some entry ∧ Records old a entry := by
  obtain ⟨hk, hget⟩ := List.getElem?_eq_some_iff.mp ha
  have hk' : k < entries.length := h.records.length_eq ▸ hk
  refine ⟨entries[k], List.getElem?_eq_getElem hk', ?_⟩
  rw [← hget]
  exact h.records.get hk hk'

theorem Indexed.getElem?_arrival (h : Indexed old arrivals entries index) {k : ℕ} {entry : NewEntry}
    (hentry : entries[k]? = some entry) : ∃ a, arrivals[k]? = some a ∧ Records old a entry := by
  obtain ⟨hk, hget⟩ := List.getElem?_eq_some_iff.mp hentry
  have hk' : k < arrivals.length := h.records.length_eq ▸ hk
  refine ⟨arrivals[k], List.getElem?_eq_getElem hk', ?_⟩
  rw [← hget]
  exact h.records.get hk' hk

/-- **What an arrival claims depends on the contents before it.** -/
theorem Indexed.claim_eq (h : Indexed old arrivals entries index) {k : ℕ} {entry : NewEntry}
    {a : Arrival} (hentry : entries[k]? = some entry) (ha : arrivals[k]? = some a) :
    (if entry.reused then some entry.id else none) =
      ((ContentIndex.ofOld old).unclaimed a.content)[
        (arrivals.take k).countP fun b => b.content = a.content]? := by
  obtain ⟨b, hb, hrecords⟩ := h.getElem?_arrival hentry
  obtain rfl : b = a := Option.some.inj (hb.symm.trans ha)
  have hsplit : claimLog entries = claimLog (entries.take k) ++
      (entry.keys.content, if entry.reused then some entry.id else none) ::
        claimLog (entries.drop (k + 1)) := by
    obtain ⟨hk, hget⟩ := List.getElem?_eq_some_iff.mp hentry
    unfold claimLog
    conv_lhs => rw [← List.take_append_drop k entries, List.drop_eq_getElem_cons hk, hget]
    rw [List.map_append, List.map_cons]
  have hgot := h.served.got hsplit
  have hcount : (claimLog (entries.take k)).countP (fun p => p.1 = entry.keys.content) =
      (arrivals.take k).countP fun c => c.content = b.content := by
    unfold claimLog
    rw [List.countP_map, hrecords.content, countP_take, countP_take]
    apply List.countP_congr
    intro j _
    cases hj : entries[j]? with
    | none =>
      have hlen := List.getElem?_eq_none_iff.mp hj
      rw [← h.records.length_eq] at hlen
      rw [List.getElem?_eq_none hlen, Option.any_none, Option.any_none]
    | some e =>
      obtain ⟨c, hc, hrecords'⟩ := h.getElem?_arrival hj
      rw [hc]
      simp [hrecords'.content]
  rwa [hcount, hrecords.content] at hgot

/-- An arrival is reused while old profiles of its content are left. -/
theorem Indexed.reused_eq (h : Indexed old arrivals entries index) {k : ℕ} {entry : NewEntry}
    (hentry : entries[k]? = some entry) : entry.reused = !isInserted old arrivals k := by
  obtain ⟨a, ha, -⟩ := h.getElem?_arrival hentry
  have hgot := h.claim_eq hentry ha
  have hpool : ((ContentIndex.ofOld old).unclaimed a.content).length =
      old.countP fun e => e.keys.content = a.content := by
    unfold ContentIndex.ofOld
    rw [List.length_map, List.countP_eq_length_filter]
  unfold isInserted
  rw [ha, Option.any_some]
  cases hreused : entry.reused with
  | true =>
    rw [hreused, if_pos rfl] at hgot
    have hlt := (List.getElem?_eq_some_iff.mp hgot.symm).1
    rw [hpool] at hlt
    rw [decide_eq_false (Nat.not_le.mpr hlt)]
    rfl
  | false =>
    rw [hreused, if_neg nofun] at hgot
    have hle := List.getElem?_eq_none_iff.mp hgot.symm
    rw [hpool] at hle
    rw [decide_eq_true hle]
    rfl

/-- The inserted arrivals are numbered in document order. -/
theorem Indexed.newAt_insertNumber (h : Indexed old arrivals entries index) {k : ℕ}
    {entry : NewEntry} (hentry : entries[k]? = some entry) (hnew : entry.reused = false) :
    (newAt entries)[insertNumber old arrivals k]? = some k := by
  have hat := getElem?_positions (p := fun entry : NewEntry => !entry.reused) hentry (by rw [hnew]; rfl)
  have hnumber : (entries.take k).countP (fun entry => !entry.reused) = insertNumber old arrivals k := by
    rw [countP_take]
    unfold insertNumber
    apply List.countP_congr
    intro j hj
    have hlt := (List.mem_range.mp hj).trans (List.getElem?_eq_some_iff.mp hentry).1
    rw [List.getElem?_eq_getElem hlt, Option.any_some,
      h.reused_eq (List.getElem?_eq_getElem hlt), Bool.not_not]
  rwa [hnumber] at hat

theorem Imported.id_eq (h : Imported old answers arrivals entries index) {k : ℕ} {entry : NewEntry}
    (hentry : entries[k]? = some entry) (hnew : entry.reused = false) :
    entry.id = storedId answers (insertNumber old arrivals k) :=
  h.numbered _ k entry (h.indexed.newAt_insertNumber hentry hnew) hentry

/-- An inserted arrival has an id if its chunk was stored. -/
theorem Imported.nonneg_iff (h : Imported old answers arrivals entries index)
    (hfresh : FreshAnswers used answers) {k : ℕ} {entry : NewEntry}
    (hentry : entries[k]? = some entry) (hnew : entry.reused = false) :
    0 ≤ entry.id ↔ isSaved old arrivals answers k = true := by
  rw [h.id_eq hentry hnew, storedId_eq]
  unfold isSaved
  cases hid : assignedId answers (insertNumber old arrivals k) with
  | none =>
    have hnone : answers (insertNumber old arrivals k / kInsertChunk) = none :=
      Option.map_eq_none_iff.mp hid
    rw [hnone]
    exact ⟨fun hneg => absurd hneg (by decide), nofun⟩
  | some id =>
    obtain ⟨firstId, hanswer, -⟩ := Option.map_eq_some_iff.mp hid
    rw [hanswer]
    exact ⟨fun _ => rfl, fun _ => (hfresh.assigned hid).1⟩

/-- **The arrivals that pair are the changed ones that were stored.** -/
theorem Imported.pairs_iff_saved (h : Imported old answers arrivals entries index)
    (hfresh : FreshAnswers used answers) {identity : Digest} {k : ℕ} {entry : NewEntry} {a : Arrival}
    (hentry : entries[k]? = some entry) (ha : arrivals[k]? = some a) :
    (entry.pairs = true ∧ entry.keys.identity = identity) ↔
      isChanged old identity a = true ∧ isSaved old arrivals answers k = true := by
  obtain ⟨b, hb, hrecords⟩ := h.indexed.getElem?_arrival hentry
  obtain rfl : b = a := Option.some.inj (hb.symm.trans ha)
  unfold isChanged
  rw [pairs_iff, Bool.and_eq_true, decide_eq_true_eq, decide_eq_true_eq]
  constructor
  · rintro ⟨⟨hid, hnew, hknown⟩, hidentity⟩
    refine ⟨⟨?_, ?_⟩, (h.nonneg_iff hfresh hentry hnew).mp hid⟩
    · rw [hrecords.known] at hknown
      exact of_decide_eq_false hknown
    · rw [← hrecords.identity hknown, hidentity]
  · rintro ⟨⟨hcontent, hidentity⟩, hsaved⟩
    have hknown : entry.contentKnown = false := by
      rw [hrecords.known]
      exact decide_eq_false hcontent
    have hnew : entry.reused = false := by
      cases hreused : entry.reused with
      | false => rfl
      | true =>
        obtain ⟨e, hmem, hsame, -⟩ := h.indexed.reuses (List.mem_of_getElem? hentry) hreused
        rw [hrecords.content] at hsame
        exact absurd (List.mem_map.mpr ⟨e, hmem, hsame⟩) hcontent
    exact ⟨⟨(h.nonneg_iff hfresh hentry hnew).mpr hsaved, hnew, hknown⟩,
      (hrecords.identity hknown).trans hidentity⟩

/-- The arrivals of an identity that paired before a place. -/
theorem Imported.countP_pairs (h : Imported old answers arrivals entries index)
    (hfresh : FreshAnswers used answers) (identity : Digest) (k : ℕ) :
    (pairLog (pairingOf old entries index).supersededBy (entries.take k)).countP
        (fun p => p.1 = identity) = savedBefore old arrivals answers identity k := by
  unfold pairLog savedBefore
  rw [List.countP_map, List.countP_filter, countP_take]
  apply List.countP_congr
  intro j _
  cases hj : entries[j]? with
  | none =>
    have hlen := List.getElem?_eq_none_iff.mp hj
    rw [← h.indexed.records.length_eq] at hlen
    rw [List.getElem?_eq_none hlen]
    simp
  | some e =>
    obtain ⟨b, hb, -⟩ := h.indexed.getElem?_arrival hj
    have hiff := @Imported.pairs_iff_saved _ _ _ _ _ _ h hfresh identity _ _ _ hj hb
    rw [hb, Option.any_some, Option.any_some, Bool.and_eq_true, Bool.and_eq_true, ← hiff]
    simp [and_comm]

/-- **The old profiles to pair are those whose content did not arrive.** -/
theorem leftover_eq (hold : (old.map (·.id)).Nodup) (h : Indexed old arrivals entries index)
    (identity : Digest) :
    (Pairing.initial old index).leftoverByIdentity identity =
      (replaceable old arrivals identity).map (·.id) := by
  unfold Pairing.initial replaceable
  simp only
  congr 1
  apply List.filter_congr
  intro e hmem
  have hleft : isLeftover index e = decide (e.keys.content ∉ arrivals.map (·.content)) := by
    rw [Bool.eq_iff_iff, isLeftover_iff h, decide_eq_true_eq]
    constructor
    · exact And.right
    · intro hcontent
      refine ⟨fun hclaimed => hcontent ?_, hcontent⟩
      obtain ⟨entry, hentry, hreused, hid⟩ := h.mem_claimed.mp hclaimed
      obtain ⟨e', hmem', hsame, hid'⟩ := h.reuses hentry hreused
      obtain rfl : e' = e := List.inj_on_of_nodup_map hold hmem' hmem (hid'.trans hid)
      obtain ⟨a, hx⟩ := h.zip_of_mem hentry
      rw [hsame, (h.records_of_zip hx).content]
      exact List.mem_map.mpr ⟨a, (List.of_mem_zip hx).1, rfl⟩
  rw [hleft]

/-- **The `n`-th pairing arrival of an identity gets the `n`-th old profile of it.** -/
theorem Imported.supersededBy_eq (hold : (old.map (·.id)).Nodup)
    (h : Imported old answers arrivals entries index) (hfresh : FreshAnswers used answers)
    (hids : FreshIds old entries) {k : ℕ} {entry : NewEntry} (hentry : entries[k]? = some entry)
    (hpairs : entry.pairs = true) :
    (pairingOf old entries index).supersededBy entry.id =
      ((replaceable old arrivals entry.keys.identity)[
        savedBefore old arrivals answers entry.keys.identity k]?).map (·.id) := by
  obtain ⟨hk, hget⟩ := List.getElem?_eq_some_iff.mp hentry
  have hsplit : pairLog (pairingOf old entries index).supersededBy entries =
      pairLog (pairingOf old entries index).supersededBy (entries.take k) ++
        (entry.keys.identity, (pairingOf old entries index).supersededBy entry.id) ::
          pairLog (pairingOf old entries index).supersededBy (entries.drop (k + 1)) := by
    generalize (pairingOf old entries index).supersededBy = supersededBy
    unfold pairLog
    conv_lhs => rw [← List.take_append_drop k entries, List.drop_eq_getElem_cons hk, hget]
    rw [List.filter_append, List.filter_cons_of_pos hpairs, List.map_append, List.map_cons]
  have hgot := (paired hids).served.got hsplit
  rwa [h.countP_pairs hfresh, leftover_eq hold h.indexed, List.getElem?_map] at hgot

/-- **Which old profiles of an identity are updated.** -/
theorem Imported.updated_iff (hold : (old.map (·.id)).Nodup)
    (h : Imported old answers arrivals entries index) (hfresh : FreshAnswers used answers)
    (hids : FreshIds old entries) {identity : Digest} {j : ℕ} {e : OldEntry}
    (he : (replaceable old arrivals identity)[j]? = some e) :
    e.id ∈ (pairingOf old entries index).updates.map Prod.fst ↔
      j < savedBefore old arrivals answers identity arrivals.length := by
  have hpaired := @paired _ _ index hids
  have hcount := h.countP_pairs hfresh identity entries.length
  rw [List.take_length, ← h.indexed.records.length_eq] at hcount
  have hdistinct := Paired.distinct hold index
  have hpool : ((Pairing.initial old index).leftoverByIdentity identity)[j]? = some e.id := by
    rw [leftover_eq hold h.indexed, List.getElem?_map, he]
    rfl
  have htaken := hpaired.served.taken_eq identity
  rw [hcount] at htaken
  rw [← hpaired.matched_eq, List.mem_filterMap]
  constructor
  · rintro ⟨⟨key, got⟩, hlog, hgot⟩
    simp only at hgot
    subst hgot
    have hkey : key = identity :=
      hdistinct.key (hpaired.served.mem_pool hlog) (List.mem_of_getElem? hpool)
    subst hkey
    have hmem := Served.mem_taken.mpr hlog
    rw [htaken] at hmem
    obtain ⟨i, hi⟩ := List.mem_iff_getElem?.mp hmem
    rw [List.getElem?_take] at hi
    split at hi
    · rename_i hlt
      obtain ⟨hi', hgeti⟩ := List.getElem?_eq_some_iff.mp hi
      obtain ⟨hj', hgetj⟩ := List.getElem?_eq_some_iff.mp hpool
      rwa [(hdistinct.nodup key).getElem_inj_iff.mp (hgeti.trans hgetj.symm)] at hlt
    · cases hi
  · intro hlt
    have hmem : e.id ∈ ((Pairing.initial old index).leftoverByIdentity identity).take
        (savedBefore old arrivals answers identity arrivals.length) := by
      apply List.mem_of_getElem? (i := j)
      rw [List.getElem?_take, if_pos hlt, hpool]
    rw [← htaken] at hmem
    exact ⟨_, Served.mem_taken.mp hmem, rfl⟩

end Places

end Throned.Subscription
