import Throned.Analysis.FailedChunks
import Throned.Analysis.RefreshGuarantee

/-!
# What a refresh may delete

The document itself, with all its chunks stored, says which arrival takes the place of which
old profile.  A refresh should delete an old profile that has such an arrival only if the
arrival was stored.
-/

set_option autoImplicit false

namespace Throned.Subscription

open Throned.Library

/-- The first id above those of the old profiles. -/
def firstFree (old : List OldEntry) : Int := (old.map (·.id)).foldl max 0 + 1

/-- A database that stores every chunk. -/
def storedAnswers (old : List OldEntry) (chunk : ℕ) : Option Int :=
  some (firstFree old + (kInsertChunk * chunk : ℕ))

/-- The import of a document that is stored as a whole. -/
def documentImport (old : List OldEntry) (arrivals : List Arrival) : ImportSink :=
  ImportSink.importAll (storedAnswers old) (some (.ofOld old)) arrivals

/-- The plan of an import. -/
def planFor (old : List OldEntry) (sink : ImportSink) : ReconcilePlan :=
  reconcile old sink.entries (sink.index.getD (.ofOld []))

/-- An old profile that the document keeps is deleted only if the arrival that takes its place
was stored: it is not deleted if an arrival of its content claims it, and if it is deleted, the
chunk of the arrival that updates it was stored. -/
structure ReplacedOnlyBySaved (old : List OldEntry) (arrivals : List Arrival)
    (answers : ℕ → Option Int) (rows : List Int) : Prop where
  claimed : ∀ entry ∈ (documentImport old arrivals).entries, entry.reused = true → entry.id ∈ rows
  updated : ∀ (oldId : Int) (n : ℕ),
    (oldId, firstFree old + n) ∈ (planFor old (documentImport old arrivals)).updates →
      oldId ∉ rows → (answers (n / kInsertChunk)).isSome = true

/-- No failed chunk costs an old profile: where a changed arrival was not stored and would have
taken the place of an old profile, enough arrivals of its identity were stored to take that
place, or the old profile is not deleted anyway. -/
def FailedChunksHarmless (input : RefreshInput) (db : RefreshDb) (old : List OldEntry)
    (working : List Int) : Prop :=
  ∀ (k : ℕ) (a : Arrival) (e : OldEntry), input.arrivals[k]? = some a →
    a.content ∉ old.map (·.keys.content) →
    (replaceable old input.arrivals a.identity)[changedBefore old input.arrivals a.identity k]? = some e →
    isSaved old input.arrivals db.inserts k = false →
    changedBefore old input.arrivals a.identity k <
        savedBefore old input.arrivals db.inserts a.identity input.arrivals.length ∨
      Spared input db working e.id ∨ db.deletes .stale = false

/-! ## The document's own plan -/

theorem lt_firstFree {old : List OldEntry} {id : Int} (hid : id ∈ old.map (·.id)) :
    id < firstFree old := by
  have hle : ∀ (l : List Int) (start : Int), start ≤ l.foldl max start ∧
      ∀ x ∈ l, x ≤ l.foldl max start := by
    intro l
    induction l with
    | nil => exact fun start => ⟨le_refl _, nofun⟩
    | cons y l ih =>
      intro start
      obtain ⟨hstart, hall⟩ := ih (max start y)
      refine ⟨(le_max_left _ _).trans hstart, fun x hx => ?_⟩
      rcases List.mem_cons.mp hx with rfl | hmem
      · exact (le_max_right _ _).trans hstart
      · exact hall x hmem
  exact Int.lt_add_one_of_le ((hle _ 0).2 id hid)

theorem firstFree_pos (old : List OldEntry) : 0 < firstFree old := by
  have hle : ∀ (l : List Int) (start : Int), start ≤ l.foldl max start := by
    intro l
    induction l with
    | nil => exact fun start => le_refl _
    | cons y l ih => exact fun start => (le_max_left _ _).trans (ih (max start y))
  exact Int.lt_add_one_of_le (hle _ 0)

theorem freshAnswers_stored (old : List OldEntry) :
    FreshAnswers (old.map (·.id)) (storedAnswers old) := by
  have hpos := firstFree_pos old
  refine ⟨fun chunk firstId hanswer => ?_, fun chunk firstId hanswer i _ hused => ?_,
    fun chunk other firstId otherId hanswer hother hne => ?_⟩
  · cases hanswer
    omega
  · cases hanswer
    have := lt_firstFree hused
    omega
  · cases hanswer
    cases hother
    have hlt : chunk + 1 ≤ other ∨ other + 1 ≤ chunk := by omega
    rcases hlt with hlt | hlt
    · left
      have := Nat.mul_le_mul_left kInsertChunk hlt
      rw [Nat.mul_succ] at this
      omega
    · right
      have := Nat.mul_le_mul_left kInsertChunk hlt
      rw [Nat.mul_succ] at this
      omega

theorem storedId_storedAnswers (old : List OldEntry) (n : ℕ) :
    storedId (storedAnswers old) n = firstFree old + n := by
  have hmod := Nat.div_add_mod n kInsertChunk
  show firstFree old + (kInsertChunk * (n / kInsertChunk) : ℕ) + ((n % kInsertChunk : ℕ) : Int) = _
  omega

section Document

variable {old : List OldEntry} {answers : ℕ → Option Int} {arrivals : List Arrival}
  {entries : List NewEntry} {index : ContentIndex} {used : List Int}

theorem savedBefore_stored (identity : Digest) (k : ℕ) :
    savedBefore old arrivals (storedAnswers old) identity k =
      changedBefore old arrivals identity k := by
  unfold savedBefore changedBefore isSaved
  rw [countP_take]
  apply List.countP_congr
  intro j _
  rw [show (storedAnswers old _).isSome = true from rfl, Bool.and_true]

/-- **Which arrival of the document takes the place of which old profile.** -/
theorem mem_updates_document (hold : (old.map (·.id)).Nodup) {oldId : Int} {n : ℕ} :
    (oldId, firstFree old + n) ∈ (planFor old (documentImport old arrivals)).updates ↔
      ∃ k a e, arrivals[k]? = some a ∧ a.content ∉ old.map (·.keys.content) ∧
        insertNumber old arrivals k = n ∧
        (replaceable old arrivals a.identity)[changedBefore old arrivals a.identity k]? = some e ∧
        e.id = oldId := by
  obtain ⟨index, hindex, himported⟩ : ∃ index, (documentImport old arrivals).index = some index ∧
      Imported old (storedAnswers old) arrivals (documentImport old arrivals).entries index :=
    importAll_spec old (storedAnswers old) arrivals
  have hfresh := freshAnswers_stored old
  have hids := himported.freshIds hfresh fun _ hid => hid
  have hplan : (planFor old (documentImport old arrivals)).updates =
      (pairingOf old (documentImport old arrivals).entries index).updates := by
    unfold planFor
    rw [hindex, Option.getD_some, updates_reconcile]
  rw [hplan, (paired hids).mem_updates]
  constructor
  · rintro ⟨entry, hmem, hpairs, hid, hgot⟩
    obtain ⟨k, hentry⟩ := List.mem_iff_getElem?.mp hmem
    obtain ⟨a, ha, -⟩ := himported.indexed.getElem?_arrival hentry
    obtain ⟨hchanged, -⟩ := (himported.pairs_iff_saved hfresh hentry ha).mp ⟨hpairs, rfl⟩
    unfold isChanged at hchanged
    rw [Bool.and_eq_true, decide_eq_true_eq, decide_eq_true_eq] at hchanged
    have hnumber := himported.id_eq hentry (pairs_iff.mp hpairs).2.1
    rw [storedId_storedAnswers, hid] at hnumber
    have hsuper := himported.supersededBy_eq hold hfresh hids hentry hpairs
    rw [hid, show (pairingOf old _ index).supersededBy _ = some oldId from hgot,
      savedBefore_stored, ← hchanged.2] at hsuper
    obtain ⟨e, he, heid⟩ := Option.map_eq_some_iff.mp hsuper.symm
    exact ⟨k, a, e, ha, hchanged.1, by omega, he, heid⟩
  · rintro ⟨k, a, e, ha, hcontent, hnumber, he, rfl⟩
    obtain ⟨entry, hentry, -⟩ := himported.indexed.getElem? ha
    have hsaved : isSaved old arrivals (storedAnswers old) k = true := rfl
    have hchanged : isChanged old a.identity a = true := by
      unfold isChanged
      simpa using hcontent
    obtain ⟨hpairs, hidentity⟩ :=
      (himported.pairs_iff_saved hfresh hentry ha).mpr ⟨hchanged, hsaved⟩
    have hid := himported.id_eq hentry (pairs_iff.mp hpairs).2.1
    rw [storedId_storedAnswers, hnumber] at hid
    refine ⟨entry, List.mem_of_getElem? hentry, hpairs, hid, ?_⟩
    have hsuper := himported.supersededBy_eq hold hfresh hids hentry hpairs
    rw [savedBefore_stored, hidentity, he] at hsuper
    rw [← hid]
    exact hsuper

/-- What the document claims does not depend on what was stored. -/
theorem claimed_document (h : Imported old answers arrivals entries index) {entry : NewEntry}
    (hmem : entry ∈ (documentImport old arrivals).entries) (hreused : entry.reused = true) :
    entry.id ∈ index.claimedIds := by
  obtain ⟨index', -, himported⟩ := importAll_spec old (storedAnswers old) arrivals
  obtain ⟨k, hentry⟩ := List.mem_iff_getElem?.mp hmem
  obtain ⟨a, ha, -⟩ := himported.indexed.getElem?_arrival hentry
  obtain ⟨actual, hactual, -⟩ := h.indexed.getElem? ha
  have hgot := (himported.indexed.claim_eq hentry ha).trans (h.indexed.claim_eq hactual ha).symm
  rw [if_pos hreused] at hgot
  split at hgot
  · rename_i hactualReused
    exact h.indexed.mem_claimed.mpr ⟨actual, List.mem_of_getElem? hactual, hactualReused,
      (Option.some.inj hgot).symm⟩
  · cases hgot

end Document

/-! ## The refresh -/

/-- A subscription whose only server has new settings. -/
def editedServer : RefreshInput := { replacedServer with arrivals := [⟨[2], [10], []⟩] }

/-- A database that only fails to insert. -/
def uninsertingDb : RefreshDb :=
  { undeletingDb with inserts := fun _ => none, deletes := fun _ => true }

def onlyServer : List OldEntry := [⟨1, ⟨[1], [10]⟩, []⟩]

theorem freshAnswers_uninserting (used : List Int) : FreshAnswers used uninsertingDb.inserts :=
  ⟨nofun, nofun, nofun⟩

end Throned.Subscription
