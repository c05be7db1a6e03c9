import Throned.Library.Actors
import Throned.Analysis.IpListTable

/-!
# The invariant of the generations

One call at a time holds the claim on the list, and only such a call changes the live
generation.  While a replace stages its entries, nobody else touches the generation it fills.
-/

set_option autoImplicit false

namespace Throned.IpLists

open Throned.Library Throned.Scanner

/-- The call holds the claim on the list. -/
def Pc.inside : Pc → Bool
  | .replaceCurrent _ => true
  | .clearBump => true
  | .deleteBump _ => true
  | .purgeScan _ _ => true
  | .purgeGeneration _ _ _ => true
  | .stage _ _ _ _ _ => true
  | .cleanup _ _ => true
  | .discardHeader _ _ => true
  | .release _ => true
  | _ => false

/-- How far a call of `ReplaceEntries` is, and what readers have seen of it. -/
def Serves (request : Request) (shown : List (List IpListEntry)) : Pc → Prop
  | .replaceClaim unique => ∃ entries, request = .replaceEntries entries ∧
      unique = deduplicated entries ∧ shown = []
  | .replaceCurrent unique => ∃ entries, request = .replaceEntries entries ∧
      unique = deduplicated entries ∧ shown = []
  | .purgeScan (.replace unique) _ => ∃ entries, request = .replaceEntries entries ∧
      unique = deduplicated entries ∧ shown = []
  | .purgeGeneration (.replace unique) _ _ => ∃ entries, request = .replaceEntries entries ∧
      unique = deduplicated entries ∧ shown = []
  | .stage unique _ _ _ true => ∃ entries, request = .replaceEntries entries ∧
      unique = deduplicated entries ∧ shown = []
  | .cleanup _ result => ∃ entries, request = .replaceEntries entries ∧
      shown = if result then [deduplicated entries] else []
  | .release result => ∀ entries, request = .replaceEntries entries →
      shown = if result then [deduplicated entries] else []
  | .finished result => ∀ entries, request = .replaceEntries entries →
      shown = if result then [deduplicated entries] else []
  | _ => ∀ entries, request ≠ .replaceEntries entries

namespace ListState

variable {s t : ListState}

/-- **What a reader has was all read between two flips.** -/
structure OneVersion (reader : Reader) : Prop where
  pages : ∀ page ∈ reader.pages, ∀ page' ∈ reader.pages, page.flips = page'.flips
  out : reader.out = reader.pages.flatMap Page.entries

/-- What a reader that began on a generation may rely on: no two live generations have one
number, so that what it has read was all read while its own was live. -/
structure ReaderOk (s : ListState) (reader : Reader) (since : ℕ) : Prop where
  issued : s.issued = true
  before : since ≤ s.flips
  same : s.flips = since → ∀ live, s.header = some live → live = reader.generation
  later : since < s.flips → ∀ live, s.header = some live → reader.generation < live
  pages : ∀ page ∈ reader.pages, page.flips = since
  out : reader.out = reader.pages.flatMap Page.entries

structure CallOk (s : ListState) (call : Call) : Prop where
  stage : ∀ unique current target begin replacing,
    call.pc = .stage unique current target begin replacing → target = current + 1 ∧
      (replacing = true → begin ≤ unique.length ∧ s.header = some current ∧
        s.table.rowsOf target = entryRows target unique 0 begin)
  purge : ∀ unique keep, (call.pc = .purgeScan (.replace unique) keep ∨
      ∃ stale, call.pc = .purgeGeneration (.replace unique) keep stale) →
    s.header ≠ none ∧ s.header = keep
  serves : Serves call.request call.shown call.pc
  reader : ∀ reader, call.pc = .readPage reader → ∃ since, s.ReaderOk reader since
  done : ∀ reader, call.pc = .readDone reader → OneVersion reader

structure Inv (s : ListState) : Prop where
  owned : s.header = none → s.table.rows = []
  issued : s.header ≠ none → s.issued = true
  exclusive : ∀ (j k : ℕ) (c d : Call), s.calls[j]? = some c → s.calls[k]? = some d →
    c.pc.inside = true → d.pc.inside = true → j = k
  claimed : ∀ call ∈ s.calls, call.pc.inside = true → s.claimed = true
  calls : ∀ call ∈ s.calls, s.CallOk call

/-! ## What a step does to the generations -/

/-- **A generation that becomes live is above the one before**, and a list that was deleted
does not come back. -/
structure Later (s t : ListState) : Prop where
  issued : s.issued = true → t.issued = true
  flips : s.issued = true → (t.flips = s.flips ∧ ∀ live, t.header = some live → s.header = some live) ∨
    (t.flips = s.flips + 1 ∧ ∃ old new, s.header = some old ∧ t.header = some new ∧ old < new)

theorem Later.of_eq (hissued : t.issued = s.issued) (hflips : t.flips = s.flips)
    (hheader : t.header = s.header) : Later s t :=
  ⟨fun h => hissued ▸ h, fun _ => Or.inl ⟨hflips, fun _ h => hheader ▸ h⟩⟩

theorem ReaderOk.advance {reader : Reader} {since : ℕ} (h : s.ReaderOk reader since)
    (hlater : Later s t) : t.ReaderOk reader since := by
  rcases hlater.flips h.issued with ⟨hflips, hheader⟩ | ⟨hflips, old, new, hold, hnew, hlt⟩
  · refine ⟨hlater.issued h.issued, hflips ▸ h.before, ?_, ?_, h.pages, h.out⟩
    · intro heq live hlive
      exact h.same (hflips ▸ heq) live (hheader live hlive)
    · intro hsince live hlive
      exact h.later (hflips ▸ hsince) live (hheader live hlive)
  · have hbefore := h.before
    refine ⟨hlater.issued h.issued, by omega, fun heq => by omega, ?_, h.pages, h.out⟩
    intro hsince live hlive
    have hlive' : live = new := Option.some.inj (hlive.symm.trans hnew)
    rcases Nat.eq_or_lt_of_le hbefore with heq | hlt'
    · have := h.same heq.symm old hold
      omega
    · have := h.later hlt' old hold
      omega

/-- A step of another call leaves alone what a call with the claim relies on. -/
structure Respects (s t : ListState) : Prop where
  header : t.header = s.header
  rows : ∀ g, s.header ≠ some g → t.table.rowsOf g = s.table.rowsOf g

theorem CallOk.later {call : Call} (h : s.CallOk call) (hlater : Later s t)
    (hinside : call.pc.inside = true → Respects s t) : t.CallOk call := by
  refine ⟨?_, ?_, h.serves, fun reader hpc => ?_, h.done⟩
  · intro unique current target begin replacing hpc
    obtain ⟨htarget, hreplacing⟩ := h.stage unique current target begin replacing hpc
    refine ⟨htarget, fun hrep => ?_⟩
    obtain ⟨hbegin, hheader, hrows⟩ := hreplacing hrep
    have hrespects := hinside (by rw [hpc]; rfl)
    refine ⟨hbegin, hrespects.header.trans hheader, ?_⟩
    rw [hrespects.rows target (by rw [hheader, htarget]; simp), hrows]
  · intro unique keep hpc
    have hrespects := hinside (by rcases hpc with hpc | ⟨stale, hpc⟩ <;> (rw [hpc]; rfl))
    rw [hrespects.header]
    exact h.purge unique keep hpc
  · obtain ⟨since, hreader⟩ := h.reader reader hpc
    exact ⟨since, hreader.advance hlater⟩

/-! ## The transactions -/

theorem bumpGeneration_none {requireDetached : Bool} {answer : Answer}
    (h : (s.bumpGeneration requireDetached answer).2 = none) :
    (s.bumpGeneration requireDetached answer).1 = s := by
  unfold bumpGeneration at h ⊢
  split at h
  · rw [if_pos (by assumption)]
  · rw [if_neg (by assumption)]
    cases hheader : s.header with
    | none => rfl
    | some live =>
      rw [hheader] at h
      cases h

theorem bumpGeneration_some {requireDetached : Bool} {answer : Answer} {fresh : ℕ}
    (h : (s.bumpGeneration requireDetached answer).2 = some fresh) :
    ∃ live, s.header = some live ∧ live < fresh ∧
      (s.bumpGeneration requireDetached answer).1 =
        { s with header := some fresh, flips := s.flips + 1 } := by
  unfold bumpGeneration at h ⊢
  split at h
  · cases h
  · rw [if_neg (by assumption)]
    cases hheader : s.header with
    | none =>
      rw [hheader] at h
      cases h
    | some live =>
      rw [hheader] at h
      simp only [Option.some.injEq] at h
      refine ⟨live, rfl, ?_, by rw [← h]⟩
      rw [← h]
      cases s.table.rows.getLast? with
      | none => exact Nat.lt_succ_self _
      | some row => exact Nat.lt_succ_of_le (Nat.le_max_left _ _)

/-- **A purge never touches the rows of the live generation.** -/
theorem purgeGenerationStep_spec (s : ListState) (generation : ℕ) (ok : Bool) :
    ∃ p : EntryRow → Bool, (∀ row, s.header = some row.generation → p row = true) ∧
      ((s.purgeGenerationStep generation ok).1 = s ∨
        (s.purgeGenerationStep generation ok).1 = { s with table := s.table.keep p }) := by
  unfold purgeGenerationStep
  split
  · exact ⟨fun _ => true, fun _ _ => rfl, Or.inl rfl⟩
  · rename_i hnot
    have hlive : ∀ row : EntryRow, s.header = some row.generation → row.generation ≠ generation := by
      rintro row hrow rfl
      exact hnot (Or.inr hrow)
    cases (s.table.rowsOf generation)[kIpListsRepoChunkRows - 1]? with
    | some bound =>
      exact ⟨_, fun row hrow => by simp [hlive row hrow], Or.inr rfl⟩
    | none =>
      exact ⟨_, fun row hrow => by simp [hlive row hrow], Or.inr rfl⟩

/-- What a statement that keeps the live rows leaves alone. -/
theorem liveRows_keep {p : EntryRow → Bool} (h : ∀ row, s.header = some row.generation → p row = true) :
    ListState.liveRows { s with table := s.table.keep p } = s.liveRows := by
  unfold liveRows
  cases hheader : s.header with
  | none => rfl
  | some live =>
    exact EntryTable.rowsOf_keep_of_forall fun row hrow => h row (by rw [hheader, hrow])

theorem staleGeneration_none {keep : ℕ} (h : s.staleGeneration (some keep) = none) {g : ℕ}
    (hg : g ≠ keep) : s.table.rowsOf g = [] := by
  unfold staleGeneration at h
  simp only [Option.map_eq_none_iff, Option.or_eq_none_iff] at h
  obtain ⟨hbelow, habove⟩ := h
  rw [List.find?_eq_none] at hbelow habove
  refine List.filter_eq_nil_iff.mpr fun row hrow heq => ?_
  have hlo := hbelow row hrow
  have hhi := habove row hrow
  simp only [decide_eq_true_eq] at heq hlo hhi
  omega

theorem stageStep_some {unique : List IpListEntry} {current target begin : ℕ} {ok last : Bool}
    (h : s.stageStep unique current target begin ok = some (t, last)) :
    s.header = some current ∧
      t.table = ipListsRepoInsertEntries s.table target unique begin
        (min (begin + kIpListsRepoChunkRows) unique.length) ∧
      t.issued = s.issued ∧ t.claimed = s.claimed ∧ t.calls = s.calls ∧
      (last = true → unique.length ≤ begin + kIpListsRepoChunkRows ∧ t.header = some target ∧
        t.flips = s.flips + 1) ∧
      (last = false → begin + kIpListsRepoChunkRows < unique.length ∧ t.header = s.header ∧
        t.flips = s.flips) := by
  unfold stageStep at h
  simp only at h
  split at h
  · cases h
  · rename_i hnot
    have hheader : s.header = some current := by
      by_contra hne
      exact hnot (Or.inr hne)
    split at h
    · rename_i hstop
      obtain ⟨rfl, rfl⟩ := Prod.mk.inj (Option.some.inj h)
      exact ⟨hheader, rfl, rfl, rfl, rfl, fun _ => ⟨by omega, rfl, rfl⟩, nofun⟩
    · rename_i hstop
      obtain ⟨rfl, rfl⟩ := Prod.mk.inj (Option.some.inj h)
      exact ⟨hheader, rfl, rfl, rfl, rfl, nofun, fun _ => ⟨by omega, rfl, rfl⟩⟩

end ListState

end Throned.IpLists
