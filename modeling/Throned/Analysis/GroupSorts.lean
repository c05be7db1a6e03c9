import Mathlib.Data.Prod.Lex
import Throned.Model.GroupOrder

/-!
# Repositioning is sorting

A reposition gives an order that the full sort accepts, with the same keys, and leaves the rows
that did not change in their order.
-/

set_option autoImplicit false

namespace Throned.Entities

open Throned.Library

variable {ν : Type*} [LinearOrder ν]

/-! ## The comparison -/

/-- What `ascending` compares. -/
def SortKey.rank (a : SortKey ν) : ℤ ×ₗ (ν ×ₗ List ℕ) :=
  toLex (a.level, toLex (a.number, utf16 a.text))

theorem ascending_iff (a b : SortKey ν) : ascending a b = true ↔ a.rank < b.rank := by
  unfold ascending SortKey.rank
  rw [Prod.Lex.toLex_lt_toLex, Prod.Lex.toLex_lt_toLex]
  split
  · rename_i hlevel
    simp [hlevel]
  · rename_i hlevel
    split
    · rename_i hnumber
      simp only [ne_eq, Decidable.not_not] at hlevel
      simp [hlevel, hnumber]
    · rename_i hnumber
      simp only [ne_eq, Decidable.not_not] at hlevel hnumber
      simp [hlevel, hnumber]

omit [LinearOrder ν] in
/-- A key is what is compared. -/
theorem SortKey.ext_rank {a b : SortKey ν} (hmissing : a.missing = b.missing)
    (hrank : a.rank = b.rank) : a = b := by
  obtain ⟨am, al, an, at'⟩ := a
  obtain ⟨bm, bl, bn, bt⟩ := b
  simp only [SortKey.rank, EmbeddingLike.apply_eq_iff_eq, Prod.mk.injEq] at hrank hmissing
  obtain ⟨rfl, rfl, htext⟩ := hrank
  rw [hmissing, utf16_inj htext]

theorem less_of_missing (rule : SortRule) {a b : SortKey ν} (h : a.missing ≠ b.missing) :
    rule.less a b = b.missing := by
  unfold SortRule.less
  rw [if_pos h]

theorem less_iff (rule : SortRule) {a b : SortKey ν} (h : a.missing = b.missing) :
    rule.less a b = true ↔ if rule.descending then b.rank < a.rank else a.rank < b.rank := by
  unfold SortRule.less
  rw [if_neg (not_not.mpr h)]
  split
  · exact ascending_iff b a
  · exact ascending_iff a b

/-- Nothing missing stands before what is there, and of the same kind the ranks decide. -/
theorem not_less_iff (rule : SortRule) {a b : SortKey ν} :
    rule.less a b = false ↔ (b.missing = true → a.missing = true) ∧
      (a.missing = b.missing → if rule.descending then a.rank ≤ b.rank else b.rank ≤ a.rank) := by
  by_cases hmissing : a.missing = b.missing
  · rw [← Bool.not_eq_true, less_iff rule hmissing]
    simp only [hmissing, imp_self, true_and, forall_const]
    split
    · exact not_lt
    · exact not_lt
  · rw [less_of_missing rule hmissing]
    simp only [hmissing, false_imp_iff, and_true]
    revert hmissing
    cases a.missing <;> cases b.missing <;> simp

theorem less_weakOrder (rule : SortRule) : WeakOrder (rule.less (ν := ν)) where
  asymm {a b} hab := by
    rw [not_less_iff]
    by_cases hmissing : a.missing = b.missing
    · rw [less_iff rule hmissing] at hab
      refine ⟨fun ha => hmissing ▸ ha, fun _ => ?_⟩
      split
      · rename_i hdescending
        rw [if_pos hdescending] at hab
        exact hab.le
      · rename_i hdescending
        rw [if_neg hdescending] at hab
        exact hab.le
    · rw [less_of_missing rule hmissing] at hab
      exact ⟨fun _ => hab, fun hsame => absurd hsame.symm hmissing⟩
  trans {a b c} hba hcb := by
    rw [not_less_iff] at hba hcb ⊢
    obtain ⟨hab, hranks⟩ := hba
    obtain ⟨hbc, hranks'⟩ := hcb
    refine ⟨fun ha => hbc (hab ha), fun hca => ?_⟩
    have hmiddle : b.missing = a.missing := by
      cases ha : a.missing with
      | true => exact hab ha
      | false =>
        cases hb : b.missing with
        | false => rfl
        | true => exact absurd ((hbc hb).symm.trans (hca.trans ha)) (by simp)
    have hfirst := hranks hmiddle
    have hsecond := hranks' (hca.trans hmiddle.symm)
    split
    · rename_i hdescending
      rw [if_pos hdescending] at hfirst hsecond
      exact hsecond.trans hfirst
    · rename_i hdescending
      rw [if_neg hdescending] at hfirst hsecond
      exact hfirst.trans hsecond

/-- Keys of which neither is before the other are the same. -/
theorem less_antisymm (rule : SortRule) {a b : SortKey ν} (hab : rule.less a b = false)
    (hba : rule.less b a = false) : a = b := by
  rw [not_less_iff] at hab hba
  have hmissing : a.missing = b.missing := by
    rw [Bool.eq_iff_iff]
    exact ⟨hba.1, hab.1⟩
  have hfirst := hab.2 hmissing
  have hsecond := hba.2 hmissing.symm
  apply SortKey.ext_rank hmissing
  split at hfirst
  · rename_i hdescending
    rw [if_pos hdescending] at hsecond
    exact le_antisymm hfirst hsecond
  · rename_i hdescending
    rw [if_neg hdescending] at hsecond
    exact le_antisymm hsecond hfirst

theorem lessId_weakOrder (rule : SortRule) (rows : Rows ν) : WeakOrder (rule.lessId rows) where
  asymm := (less_weakOrder rule).asymm
  trans := (less_weakOrder rule).trans

/-- **Orders of the same rows have the same keys.** -/
theorem keys_eq_of_perm (rule : SortRule) (rows : Rows ν) {l m : List ℤ} (hperm : l.Perm m)
    (hl : InOrder (rule.lessId rows) l) (hm : InOrder (rule.lessId rows) m) :
    l.map (rule.key rows) = m.map (rule.key rows) :=
  (hperm.map _).eq_of_pairwise (fun _ _ _ _ hab hba => less_antisymm rule hba hab)
    (List.pairwise_map.mpr hl) (List.pairwise_map.mpr hm)

/-! ## Sorting -/

namespace Group

/-- The comparison of the kept sort. -/
def less (group : Group) (rows : Rows ν) : ℤ → ℤ → Bool :=
  (SortRule.of rows group group.sort).lessId rows

/-- **What a reposition does.** -/
structure Repositions (rows : Rows ν) (changed : List ℤ) (group : Group) (result : Bool × Group) :
    Prop where
  others : result.2 = { group with profiles := result.2.profiles }
  perm : result.2.profiles.Perm group.profiles
  sorted : InOrder (group.less rows) result.2.profiles
  keys : result.2.profiles.map ((SortRule.of rows group group.sort).key rows) =
    (group.Resort rows).2.profiles.map ((SortRule.of rows group group.sort).key rows)
  unchanged : result.2.profiles.filter (· ∉ changed) = group.profiles.filter (· ∉ changed)
  moved : result.1 = false ↔ result.2.profiles = group.profiles
  inOrder : result.1 = false ↔ InOrder (group.less rows) group.profiles

theorem commit_self (group : Group) (order : List ℤ) :
    group.commit group.profiles group.sort order =
      if order = group.profiles then .Unchanged else .Moved { group with profiles := order } := by
  unfold commit
  simp

theorem Resort_eq (group : Group) (rows : Rows ν) (hkeeps : group.KeepsSorted = true) :
    group.Resort rows = (decide (group.fullOrder rows ≠ group.profiles),
      { group with profiles := group.fullOrder rows }) := by
  unfold Resort kSortAttempts resortAttempts
  rw [hkeeps, if_neg (by decide), commit_self]
  by_cases hsame : group.fullOrder rows = group.profiles
  · simp [hsame]
  · simp [hsame]

theorem less_weak (group : Group) (rows : Rows ν) : WeakOrder (group.less rows) :=
  lessId_weakOrder _ rows

theorem fullOrder_perm (group : Group) (rows : Rows ν) :
    (group.fullOrder rows).Perm group.profiles := List.mergeSort_perm _ _

theorem fullOrder_inOrder (group : Group) (rows : Rows ν) :
    InOrder (group.less rows) (group.fullOrder rows) := (group.less_weak rows).stableSort_inOrder _

/-- An order is what a sort leaves just where it is in order. -/
theorem fullOrder_eq_iff (group : Group) (rows : Rows ν) :
    group.fullOrder rows = group.profiles ↔ InOrder (group.less rows) group.profiles := by
  constructor
  · intro hsame
    rw [← hsame]
    exact group.fullOrder_inOrder rows
  · exact WeakOrder.stableSort_of_inOrder

/-- A list in order has the keys that the full sort gives. -/
theorem keys_of_inOrder {rows : Rows ν} {group : Group} (hkeeps : group.KeepsSorted = true)
    {order : List ℤ} (hperm : order.Perm group.profiles)
    (hsorted : InOrder (group.less rows) order) :
    order.map ((SortRule.of rows group group.sort).key rows) =
      (group.Resort rows).2.profiles.map ((SortRule.of rows group group.sort).key rows) := by
  rw [Resort_eq group rows hkeeps]
  exact keys_eq_of_perm _ rows (hperm.trans (group.fullOrder_perm rows).symm) hsorted
    (group.fullOrder_inOrder rows)

/-- The full sort repositions. -/
theorem repositions_Resort {rows : Rows ν} {changed : List ℤ} {group : Group}
    (hkeeps : group.KeepsSorted = true)
    (hrest : InOrder (group.less rows) (group.profiles.filter (· ∉ changed))) :
    Repositions rows changed group (group.Resort rows) where
  others := by rw [Resort_eq group rows hkeeps]
  perm := by
    rw [Resort_eq group rows hkeeps]
    exact group.fullOrder_perm rows
  sorted := by
    rw [Resort_eq group rows hkeeps]
    exact group.fullOrder_inOrder rows
  keys := rfl
  unchanged := by
    rw [Resort_eq group rows hkeeps]
    exact (group.less_weak rows).filter_stableSort hrest
  moved := by
    rw [Resort_eq group rows hkeeps]
    simp
  inOrder := by
    rw [Resort_eq group rows hkeeps, ← fullOrder_eq_iff]
    simp

/-- A list in order is left as it is. -/
theorem repositions_same {rows : Rows ν} {changed : List ℤ} {group : Group}
    (hkeeps : group.KeepsSorted = true) (hsorted : InOrder (group.less rows) group.profiles) :
    Repositions rows changed group (false, group) where
  others := rfl
  perm := List.Perm.refl _
  sorted := hsorted
  keys := keys_of_inOrder hkeeps (List.Perm.refl _) hsorted
  unchanged := rfl
  moved := by simp
  inOrder := by simp [hsorted]

/-! ## Neighbours -/

/-- What is checked of a changed row. -/
theorem inPlace_iff_fits (lt : ℤ → ℤ → Bool) {snapshot : List ℤ} {places : List ℕ}
    (hplaces : ∀ i ∈ places, i < snapshot.length) :
    inPlace lt snapshot places = true ↔ ∀ i ∈ places, ∀ hi : i < snapshot.length,
      (∀ hpos : 0 < i, lt snapshot[i] snapshot[i - 1] = false) ∧
        ∀ hnext : i + 1 < snapshot.length, lt snapshot[i + 1] snapshot[i] = false := by
  unfold inPlace
  rw [List.all_eq_true]
  refine forall₂_congr fun i hi => ?_
  have hlt := hplaces i hi
  rw [forall_prop_of_true hlt, Bool.and_eq_true]
  refine and_congr ?_ ?_
  · rw [List.getElem?_eq_getElem hlt, List.getElem?_eq_getElem (by omega : i - 1 < snapshot.length)]
    by_cases hzero : i = 0
    · simp [hzero]
    · simp [hzero, Nat.pos_of_ne_zero hzero]
  · rw [List.getElem?_eq_getElem hlt]
    by_cases hend : i + 1 = snapshot.length
    · simp [hend]
    · have hnext : i + 1 < snapshot.length := by omega
      rw [List.getElem?_eq_getElem hnext]
      simp [hend, hnext]

/-- Two neighbours that did not change are in order. -/
theorem neighbours_of_rest {lt : ℤ → ℤ → Bool} {snapshot changed : List ℤ}
    (hrest : InOrder lt (snapshot.filter (· ∉ changed))) {i : ℕ} (hi : i + 1 < snapshot.length)
    (hhere : snapshot[i] ∉ changed) (hnext : snapshot[i + 1] ∉ changed) :
    lt snapshot[i + 1] snapshot[i] = false := by
  have hsub : [snapshot[i], snapshot[i + 1]].Sublist snapshot := by
    have hdrop : snapshot.drop i = snapshot[i] :: snapshot[i + 1] :: snapshot.drop (i + 2) := by
      rw [List.drop_eq_getElem_cons (by omega), List.drop_eq_getElem_cons hi]
    refine List.Sublist.trans ?_ (List.drop_sublist i snapshot)
    rw [hdrop]
    exact (List.nil_sublist _).cons_cons _ |>.cons_cons _
  have hfiltered := hsub.filter fun id => decide (id ∉ changed)
  rw [List.filter_eq_self.mpr (by simp [hhere, hnext])] at hfiltered
  exact List.rel_of_pairwise_cons (hrest.sublist hfiltered) List.mem_cons_self

/-- Where the rows that did not change are in order, the neighbours of the others decide. -/
theorem inPlace_iff {lt : ℤ → ℤ → Bool} (hweak : WeakOrder lt) {snapshot changed : List ℤ}
    (hrest : InOrder lt (snapshot.filter (· ∉ changed))) :
    inPlace lt snapshot (positions (· ∈ changed) snapshot) = true ↔ InOrder lt snapshot := by
  have hplaces : ∀ i ∈ positions (fun id => decide (id ∈ changed)) snapshot,
      i < snapshot.length := by
    intro i hi
    obtain ⟨id, hid, -⟩ := mem_positions.mp hi
    exact (List.getElem?_eq_some_iff.mp hid).1
  have hmem : ∀ i, (hi : i < snapshot.length) → snapshot[i] ∈ changed →
      i ∈ positions (fun id => decide (id ∈ changed)) snapshot := fun i hi hchanged =>
    mem_positions.mpr ⟨snapshot[i], List.getElem?_eq_getElem hi, decide_eq_true hchanged⟩
  rw [inPlace_iff_fits lt hplaces]
  constructor
  · intro hfits
    refine hweak.inOrder_of_neighbours (List.isChain_iff_getElem.mpr fun i hi => ?_)
    by_cases hhere : snapshot[i] ∈ changed
    · exact (hfits i (hmem i (by omega) hhere) (by omega)).2 hi
    · by_cases hnext : snapshot[i + 1] ∈ changed
      · exact (hfits (i + 1) (hmem (i + 1) hi hnext) hi).1 (by omega)
      · exact neighbours_of_rest hrest hi hhere hnext
  · intro hsorted i _ hi
    have hpairs := List.pairwise_iff_getElem.mp hsorted
    exact ⟨fun hpos => hpairs (i - 1) i (by omega) hi (by omega),
      fun hnext => hpairs i (i + 1) hi hnext (by omega)⟩

/-! ## Reinsertion -/

theorem reinserted_perm (lt : ℤ → ℤ → Bool) (snapshot changed : List ℤ) :
    (reinserted lt snapshot changed).Perm snapshot := by
  have hparts := List.filter_append_perm (· ∈ changed) snapshot
  refine (foldl_insertSorted_perm _ _).trans ?_
  simpa using hparts

theorem filter_reinserted (lt : ℤ → ℤ → Bool) (snapshot changed : List ℤ) :
    (reinserted lt snapshot changed).filter (· ∉ changed) = snapshot.filter (· ∉ changed) := by
  unfold reinserted
  rw [filter_foldl_insertSorted, List.filter_filter]
  · simp
  · intro id hid
    simpa using (List.mem_filter.mp hid).2

/-- **Reposition is a sort.**  Where the rows that did not change are in order, the result is in
order, has the keys that the full sort gives, and leaves those rows in their order; no move is
reported just where the list was in order. -/
theorem repositions {rows : Rows ν} {changed : List ℤ} {group : Group}
    (hkeeps : group.KeepsSorted = true)
    (hrest : InOrder (group.less rows) (group.profiles.filter (· ∉ changed))) :
    Repositions rows changed group (group.Reposition rows changed) := by
  have hnone : (∀ id ∈ group.profiles, id ∉ changed) → InOrder (group.less rows) group.profiles := by
    intro hall
    rwa [List.filter_eq_self.mpr fun id hid => decide_eq_true (hall id hid)] at hrest
  unfold Group.Reposition
  split
  · rename_i hempty
    exact repositions_same hkeeps (hnone fun id _ => hempty ▸ List.not_mem_nil)
  · unfold kSortAttempts repositionAttempts
    rw [hkeeps, if_neg (by decide)]
    dsimp only
    split
    · rename_i hplaces
      refine repositions_same hkeeps (hnone fun id hid hchanged => ?_)
      obtain ⟨i, hi, rfl⟩ := List.getElem_of_mem hid
      have hmem : i ∈ positions (fun id => decide (id ∈ changed)) group.profiles :=
        mem_positions.mpr ⟨_, List.getElem?_eq_getElem hi, decide_eq_true hchanged⟩
      exact absurd (hplaces ▸ hmem) List.not_mem_nil
    · split
      · exact repositions_Resort hkeeps hrest
      · have hinPlace := inPlace_iff (group.less_weak rows) hrest
        split
        · rename_i hfits
          exact repositions_same hkeeps (hinPlace.mp hfits)
        · rename_i hfits
          have hunsorted := fun hsorted => hfits (hinPlace.mpr hsorted)
          have hperm := reinserted_perm (group.less rows) group.profiles changed
          have hsorted : InOrder (group.less rows)
              (reinserted (group.less rows) group.profiles changed) :=
            (group.less_weak rows).foldl_insertSorted_inOrder _ hrest
          have hmoved : reinserted (group.less rows) group.profiles changed ≠ group.profiles :=
            fun hsame => hunsorted (hsame ▸ hsorted)
          have hcommit : group.commit group.profiles group.sort
              (reinserted ((SortRule.of rows group group.sort).lessId rows) group.profiles
                changed) = .Moved { group with
                  profiles := reinserted (group.less rows) group.profiles changed } :=
            (commit_self _ _).trans (if_neg hmoved)
          rw [hcommit]
          exact
            { others := rfl
              perm := hperm
              sorted := hsorted
              keys := keys_of_inOrder hkeeps hperm hsorted
              unchanged := filter_reinserted _ _ _
              moved := by simp [hmoved]
              inOrder := iff_of_false (by simp) hunsorted }

/-- Profiles whose latency is their id, but for one. -/
def oneSlowRow : Rows ℤ :=
  { doubles := ⟨fun _ => 0, id, (· * ·)⟩
    show_config_security := false
    profile := fun id => some
      { outbound := some ⟨[], [], [], 0, [], []⟩
        latency := if id = 3 then 500 else id
        dl_speed := []
        ul_speed := []
        ip_out := []
        traffic_downlink := 0
        traffic_uplink := 0 } }

theorem repositions_oneSlowRow :
    let group : Group := { profiles := [1, 2, 3, 4, 5, 6, 7, 8, 9, 10], sort := ⟨.ByLatency, false⟩ }
    (group.Reposition oneSlowRow [3]).2.profiles = [1, 2, 4, 5, 6, 7, 8, 9, 10, 3] ∧
      Repositions oneSlowRow [3] group (group.Reposition oneSlowRow [3]) :=
  ⟨by decide +kernel, repositions (by decide) (by decide +kernel)⟩

end Group

end Throned.Entities
