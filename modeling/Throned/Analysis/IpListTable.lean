import Throned.Analysis.ListEntries
import Throned.Model.IpLists

/-!
# The rows of one generation

What the statements of `IpListsRepo` do to the rows of each generation, and what the entries
of a bulk write come to.
-/

set_option autoImplicit false

namespace Throned.IpLists

open Throned.Library Throned.Scanner

namespace EntryTable

variable {t : EntryTable} {g : ℕ}

@[simp] theorem rowsOf_empty (g : ℕ) : empty.rowsOf g = [] := rfl

theorem mem_rowsOf {row : EntryRow} : row ∈ t.rowsOf g ↔ row ∈ t.rows ∧ row.generation = g := by
  rw [rowsOf, List.mem_filter, decide_eq_true_eq]

theorem rowsOf_keep (t : EntryTable) (p : EntryRow → Bool) (g : ℕ) :
    (t.keep p).rowsOf g = (t.rowsOf g).filter p := by
  unfold rowsOf keep
  rw [List.filter_filter, List.filter_filter]
  exact List.filter_congr fun row _ => Bool.and_comm _ _

/-- A statement that keeps the rows of a generation. -/
theorem rowsOf_keep_of_forall {p : EntryRow → Bool} (h : ∀ row, row.generation = g → p row = true) :
    (t.keep p).rowsOf g = t.rowsOf g := by
  rw [rowsOf_keep]
  exact List.filter_eq_self.mpr fun row hrow => h row (mem_rowsOf.mp hrow).2

theorem rows_setLatency (t : EntryTable) (target : ℕ × Text × Int) (latencyMs : Int) :
    (t.setLatency target latencyMs).rows = t.rows.map fun row =>
      if row.target = target then { row with entry := { row.entry with latencyMs := latencyMs } }
      else row := rfl

theorem rowsOf_setLatency {target : ℕ × Text × Int} (latencyMs : Int) (h : target.1 ≠ g) :
    (t.setLatency target latencyMs).rowsOf g = t.rowsOf g := by
  unfold rowsOf
  rw [rows_setLatency]
  induction t.rows with
  | nil => rfl
  | cons row rows ih =>
    by_cases htarget : row.target = target
    · have hne : row.generation ≠ g := by
        rw [← htarget] at h
        exact h
      simp only [List.map_cons, if_pos htarget, List.filter_cons, decide_eq_false hne]
      exact ih
    · simp only [List.map_cons, if_neg htarget, List.filter_cons]
      rw [ih]

/-- Only the generation of the row is touched. -/
theorem rowsOf_insertOrIgnore_of_ne {row : EntryRow} (h : row.generation ≠ g) :
    (t.insertOrIgnore row).rowsOf g = t.rowsOf g := by
  unfold insertOrIgnore
  split
  · rfl
  · rename_i hnot
    have hkey : ∀ other ∈ t.rows,
        ¬ (other.generation = row.generation ∧ other.entry_order = row.entry_order) :=
      fun other hother hkey => hnot ⟨other, hother, Or.inl hkey⟩
    unfold rowsOf placed
    simp only
    rw [List.filter_append, List.filter_cons_of_neg (by simpa using h), ← List.filter_append]
    -- both sides are sorted, and have the same rows
    have hperm : ((t.rows.filter fun other => other.Before row) ++
        t.rows.filter fun other => row.Before other).Perm t.rows := by
      have := placed_perm hkey
      exact (List.perm_middle.symm.trans this).cons_inv
    have hsorted := placed_sorted row t.sorted
    have hsub : ((t.rows.filter fun other => other.Before row) ++
        t.rows.filter fun other => row.Before other).Pairwise EntryRow.Before :=
      hsorted.sublist (List.Sublist.append_left (List.sublist_cons_self _ _) _)
    have heq := hperm.eq_of_pairwise (fun a b _ _ hab hba => by
      unfold EntryRow.Before at hab hba
      omega) hsub t.sorted
    rw [heq]

/-- A row behind all others of its generation, for a target of its own. -/
theorem rowsOf_insertOrIgnore_last {row : EntryRow} (hgen : row.generation = g)
    (hlast : ∀ other ∈ t.rowsOf g, other.Before row)
    (htarget : ∀ other ∈ t.rowsOf g, other.target ≠ row.target) :
    (t.insertOrIgnore row).rowsOf g = t.rowsOf g ++ [row] := by
  have hnot : ¬ t.conflicts row := by
    rintro ⟨other, hother, hkey | htarg⟩
    · have := hlast other (mem_rowsOf.mpr ⟨hother, hkey.1.trans hgen⟩)
      unfold EntryRow.Before at this
      omega
    · have hg : other.generation = g := (congrArg Prod.fst htarg).trans hgen
      exact htarget other (mem_rowsOf.mpr ⟨hother, hg⟩) htarg
  unfold insertOrIgnore
  rw [dif_neg hnot]
  unfold rowsOf placed
  simp only
  rw [List.filter_append, List.filter_cons_of_pos (by simpa using hgen), List.filter_filter,
    List.filter_filter]
  have hbefore : (t.rows.filter fun other => decide (other.generation = g) && decide (other.Before row)) =
      t.rowsOf g := by
    apply List.filter_congr
    intro other hother
    by_cases hg : other.generation = g
    · rw [decide_eq_true hg, decide_eq_true (hlast other (mem_rowsOf.mpr ⟨hother, hg⟩))]
      rfl
    · rw [decide_eq_false hg]
      rfl
  have hafter : (t.rows.filter fun other =>
      decide (other.generation = g) && decide (row.Before other)) = [] := by
    refine List.filter_eq_nil_iff.mpr fun other hother h => ?_
    rw [Bool.and_eq_true, decide_eq_true_eq, decide_eq_true_eq] at h
    have hback := hlast other (mem_rowsOf.mpr ⟨hother, h.1⟩)
    have hfore := h.2
    unfold EntryRow.Before at hback hfore
    omega
  rw [hbefore, hafter]
  rfl

/-- **Rows in order behind those of their generation are all inserted.** -/
theorem rowsOf_foldl_insertOrIgnore {rows : List EntryRow} (hgen : ∀ row ∈ rows, row.generation = g)
    (hsorted : (t.rowsOf g ++ rows).Pairwise EntryRow.Before)
    (hdistinct : ((t.rowsOf g ++ rows).map EntryRow.target).Nodup) :
    (rows.foldl insertOrIgnore t).rowsOf g = t.rowsOf g ++ rows := by
  induction rows generalizing t with
  | nil => rw [List.foldl_nil, List.append_nil]
  | cons row rows ih =>
    have hrow : (t.insertOrIgnore row).rowsOf g = t.rowsOf g ++ [row] := by
      refine rowsOf_insertOrIgnore_last (hgen row List.mem_cons_self) (fun other hother => ?_)
        fun other hother heq => ?_
      · exact (List.pairwise_append.mp hsorted).2.2 other hother row List.mem_cons_self
      · rw [List.map_append, List.map_cons, List.nodup_append] at hdistinct
        exact hdistinct.2.2 _ (List.mem_map_of_mem hother) _ List.mem_cons_self heq
    have hsplit : t.rowsOf g ++ row :: rows = (t.insertOrIgnore row).rowsOf g ++ rows := by
      rw [hrow, List.append_assoc, List.singleton_append]
    rw [hsplit] at hsorted hdistinct ⊢
    exact ih (fun row' hrow' => hgen row' (List.mem_cons_of_mem _ hrow')) hsorted hdistinct

theorem rowsOf_foldl_insertOrIgnore_of_ne {rows : List EntryRow}
    (hgen : ∀ row ∈ rows, row.generation ≠ g) :
    (rows.foldl insertOrIgnore t).rowsOf g = t.rowsOf g := by
  induction rows generalizing t with
  | nil => rfl
  | cons row rows ih =>
    rw [List.foldl_cons, ih fun row' hrow' => hgen row' (List.mem_cons_of_mem _ hrow'),
      rowsOf_insertOrIgnore_of_ne (hgen row List.mem_cons_self)]

end EntryTable

/-! ## The entries of a bulk write -/

/-- The first entry with an address for each target. -/
def deduplicated : List IpListEntry → List IpListEntry
  | [] => []
  | entry :: rest =>
    if entry.cidr = [] then deduplicated rest
    else entry :: (deduplicated rest).filter fun other =>
      !(other.cidr = entry.cidr ∧ other.port = entry.port)

theorem decimal_injective {m n : ℕ} (h : decimal m = decimal n) : m = n :=
  Option.some.inj (by rw [← parseDecimal_decimal m, h, parseDecimal_decimal])

theorem portText_injective {m n : Int} (h : portText m = portText n) : m = n := by
  have hminus : ∀ k, '-' ∉ decimal k := fun k hk => by
    have := decimalDigit_of_mem_decimal hk
    revert this
    decide
  unfold portText at h
  split at h <;> split at h
  · have := decimal_injective (List.cons.inj h).2
    omega
  · exact absurd (h ▸ List.mem_cons_self) (hminus _)
  · exact absurd (h.symm ▸ List.mem_cons_self) (hminus _)
  · have := decimal_injective h
    omega

/-- The key of an entry tells its target. -/
theorem entryKey_eq_iff {a b : IpListEntry} :
    entryKey a.cidr a.port = entryKey b.cidr b.port ↔ a.cidr = b.cidr ∧ a.port = b.port := by
  constructor
  · intro h
    obtain ⟨hcidr, hport⟩ := entryKey_inj h
    exact ⟨hcidr, portText_injective hport⟩
  · rintro ⟨hcidr, hport⟩
    rw [hcidr, hport]

/-- What the loop adds to the entries it has, given the keys it has seen. -/
theorem foldl_unique (entries : List IpListEntry) (unique : List IpListEntry) (seen : List Text) :
    (entries.foldl (fun (state : List IpListEntry × List Text) entry =>
      let key := entryKey entry.cidr entry.port
      if entry.cidr = [] then state
      else if key ∈ state.2 then state
      else (state.1 ++ [entry], state.2 ++ [key])) (unique, seen)).1 =
      unique ++ (deduplicated entries).filter fun entry => entryKey entry.cidr entry.port ∉ seen := by
  induction entries generalizing unique seen with
  | nil => simp [deduplicated]
  | cons entry entries ih =>
    rw [List.foldl_cons]
    simp only
    by_cases hempty : entry.cidr = []
    · rw [if_pos hempty, ih, deduplicated, if_pos hempty]
    · rw [if_neg hempty, deduplicated, if_neg hempty]
      -- the rest with the target of this entry is left out by its key either way
      by_cases hseen : entryKey entry.cidr entry.port ∈ seen
      · rw [if_pos hseen, ih, List.filter_cons_of_neg (by simpa using hseen), List.filter_filter]
        congr 1
        apply List.filter_congr
        intro other _
        by_cases hother : entryKey other.cidr other.port ∈ seen
        · simp [hother]
        · have hne : ¬ (other.cidr = entry.cidr ∧ other.port = entry.port) :=
            fun h => hother (entryKey_eq_iff.mpr h ▸ hseen)
          simp only [hother, not_false_eq_true, decide_true, hne, decide_false, Bool.not_false,
            Bool.and_self]
      · rw [if_neg hseen, ih, List.filter_cons_of_pos (by simpa using hseen), List.filter_filter,
          List.append_assoc, List.singleton_append]
        congr 2
        apply List.filter_congr
        intro other _
        simp only [List.mem_append, List.mem_singleton, entryKey_eq_iff]
        by_cases hother : entryKey other.cidr other.port ∈ seen
        · simp [hother]
        · by_cases heq : other.cidr = entry.cidr ∧ other.port = entry.port
          · simp [heq]
          · simp only [hother, heq, or_self, not_false_eq_true, decide_true, decide_false,
              Bool.not_false, Bool.and_self]

/-- **The bulk writes drop what has no address, and all but the first of a target.** -/
theorem ipListsRepoUnique_eq (entries : List IpListEntry) :
    ipListsRepoUnique entries = deduplicated entries := by
  rw [ipListsRepoUnique, foldl_unique, List.nil_append]
  exact List.filter_eq_self.mpr fun _ _ => by simp

theorem deduplicated_nodup (entries : List IpListEntry) :
    ((deduplicated entries).map fun entry => (entry.cidr, entry.port)).Nodup := by
  induction entries with
  | nil => exact List.nodup_nil
  | cons entry entries ih =>
    rw [deduplicated]
    split
    · exact ih
    · rw [List.map_cons, List.nodup_cons]
      refine ⟨fun hmem => ?_, ih.sublist (List.filter_sublist.map _)⟩
      obtain ⟨other, hother, heq⟩ := List.mem_map.mp hmem
      have hne := (List.mem_filter.mp hother).2
      rw [Prod.mk.injEq] at heq
      simp [heq] at hne

/-! ## The rows of a bulk write -/

variable {t : EntryTable} {g : ℕ} {unique : List IpListEntry}

/-- The rows for the first entries. -/
theorem entryRows_append {begin stop : ℕ} (h : begin ≤ stop) :
    entryRows g unique 0 begin ++ entryRows g unique begin stop = entryRows g unique 0 stop := by
  unfold entryRows
  rw [← List.map_append]
  congr 1
  have htake : (unique.take begin).zipIdx = ((unique.take stop).zipIdx).take begin := by
    apply List.ext_getElem?
    intro i
    rw [List.getElem?_zipIdx, List.getElem?_take, List.getElem?_take, List.getElem?_zipIdx,
      List.getElem?_take]
    by_cases hi : i < begin
    · rw [if_pos hi, if_pos hi, if_pos (lt_of_lt_of_le hi h)]
    · rw [if_neg hi, if_neg hi]
      rfl
  rw [List.drop_zero, List.drop_zero, htake, List.take_append_drop]

theorem entryRows_zero (g : ℕ) (unique : List IpListEntry) : entryRows g unique 0 0 = [] := by
  simp [entryRows]

theorem generation_entryRows {begin stop : ℕ} {row : EntryRow}
    (h : row ∈ entryRows g unique begin stop) : row.generation = g := by
  obtain ⟨entry, -, rfl⟩ := List.mem_map.mp h
  rfl

theorem entryRows_sorted (g stop : ℕ) (unique : List IpListEntry) :
    (entryRows g unique 0 stop).Pairwise EntryRow.Before := by
  unfold entryRows
  rw [List.drop_zero, List.pairwise_map]
  have hlt : ((unique.take stop).zipIdx.map Prod.snd).Pairwise (· < ·) := by
    rw [List.zipIdx_map_snd]
    exact List.pairwise_lt_range'
  rw [List.pairwise_map] at hlt
  refine hlt.imp fun {a b} h => Or.inr ⟨rfl, ?_⟩
  show (a.2 : Int) < b.2
  omega

/-- The entries of the rows of a whole write. -/
theorem map_entry_entryRows (g : ℕ) (unique : List IpListEntry) :
    (entryRows g unique 0 unique.length).map EntryRow.entry = unique := by
  unfold entryRows
  rw [List.drop_zero, List.map_map, List.take_length]
  exact List.zipIdx_map_fst 0 unique

theorem entryRows_distinct (g stop : ℕ)
    (hunique : (unique.map fun entry => (entry.cidr, entry.port)).Nodup) :
    ((entryRows g unique 0 stop).map EntryRow.target).Nodup := by
  have heq : (entryRows g unique 0 stop).map EntryRow.target =
      ((unique.take stop).map fun entry => (entry.cidr, entry.port)).map fun key => (g, key) := by
    unfold entryRows
    rw [List.drop_zero, List.map_map, List.map_map]
    conv_rhs => rw [← List.zipIdx_map_fst 0 (unique.take stop), List.map_map]
    rfl
  rw [heq]
  refine List.Nodup.map (fun a b h => (Prod.mk.inj h).2) ?_
  exact hunique.sublist ((List.take_sublist _ _).map _)

/-- **A stage that starts on an empty generation fills it with the entries in order.** -/
theorem rowsOf_ipListsRepoInsertEntries {begin stop : ℕ} (hle : begin ≤ stop)
    (hunique : (unique.map fun entry => (entry.cidr, entry.port)).Nodup)
    (hrows : t.rowsOf g = entryRows g unique 0 begin) :
    (ipListsRepoInsertEntries t g unique begin stop).rowsOf g = entryRows g unique 0 stop := by
  unfold ipListsRepoInsertEntries
  rw [EntryTable.rowsOf_foldl_insertOrIgnore (fun row hrow => generation_entryRows hrow), hrows,
    entryRows_append hle]
  · rw [hrows, entryRows_append hle]
    exact entryRows_sorted g stop unique
  · rw [hrows, entryRows_append hle]
    exact entryRows_distinct g stop hunique

theorem rowsOf_ipListsRepoInsertEntries_of_ne {begin stop g' : ℕ} (h : g' ≠ g) :
    (ipListsRepoInsertEntries t g unique begin stop).rowsOf g' = t.rowsOf g' :=
  EntryTable.rowsOf_foldl_insertOrIgnore_of_ne fun _ hrow heq =>
    h (heq.symm.trans (generation_entryRows hrow))

end Throned.IpLists
