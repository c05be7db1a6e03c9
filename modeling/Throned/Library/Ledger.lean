import Mathlib.Algebra.BigOperators.Group.List.Basic
import Mathlib.Data.List.Dedup
import Mathlib.Data.List.Nodup

/-!
# Tables of amounts

A ledger has one row for a key, with an amount that entries are added to.  The amount under
any condition on the keys is what was added under it, whatever rows the entries went to, so
that entries may be moved from key to key where the condition cannot tell the keys apart.
-/

set_option autoImplicit false

namespace Throned.Library

variable {K L M : Type*}

/-- The amounts of the entries with a key that meets a condition. -/
def sumIf [AddCommMonoid M] (p : K → Bool) (entries : List (K × M)) : M :=
  ((entries.filter fun entry => p entry.1).map Prod.snd).sum

section SumIf

variable [AddCommMonoid M] (p : K → Bool)

@[simp] theorem sumIf_nil : sumIf p ([] : List (K × M)) = 0 := rfl

theorem sumIf_cons (entry : K × M) (entries : List (K × M)) :
    sumIf p (entry :: entries) = (if p entry.1 then entry.2 else 0) + sumIf p entries := by
  unfold sumIf
  rw [List.filter_cons]
  cases p entry.1 with
  | false => simp
  | true => simp

theorem sumIf_append (l l' : List (K × M)) : sumIf p (l ++ l') = sumIf p l + sumIf p l' := by
  unfold sumIf
  rw [List.filter_append, List.map_append, List.sum_append]

theorem sumIf_congr {p q : K → Bool} {l : List (K × M)} (h : ∀ entry ∈ l, p entry.1 = q entry.1) :
    sumIf p l = sumIf q l := by
  unfold sumIf
  rw [List.filter_congr h]

theorem sumIf_map (f : L → K) (l : List (L × M)) :
    sumIf p (l.map fun entry => (f entry.1, entry.2)) = sumIf (fun key => p (f key)) l := by
  induction l with
  | nil => rfl
  | cons entry l ih => rw [List.map_cons, sumIf_cons, sumIf_cons, ih]

theorem sumIf_filter (q : K → Bool) (l : List (K × M)) :
    sumIf p (l.filter fun entry => q entry.1) = sumIf (fun key => q key && p key) l := by
  unfold sumIf
  rw [List.filter_filter]
  simp only [Bool.and_comm]

/-- The amounts of all entries are those of the ones a deletion keeps, and of the others. -/
theorem sumIf_filter_add (q : K → Bool) (l : List (K × M)) :
    sumIf p (l.filter fun entry => q entry.1) + sumIf p (l.filter fun entry => !q entry.1) =
      sumIf p l := by
  induction l with
  | nil => exact add_zero _
  | cons entry l ih =>
    rw [List.filter_cons, List.filter_cons, sumIf_cons, ← ih]
    cases q entry.1 with
    | false =>
      simp only [Bool.not_false, Bool.false_eq_true, if_false, if_true, sumIf_cons]
      exact add_left_comm _ _ _
    | true =>
      simp only [Bool.not_true, Bool.false_eq_true, if_false, if_true, sumIf_cons]
      exact add_assoc _ _ _

end SumIf

/-- Entries grouped by a new key. -/
def regroup [DecidableEq L] [AddCommMonoid M] (f : K → L) (entries : List (K × M)) :
    List (L × M) :=
  (entries.map fun entry => f entry.1).dedup.map fun key =>
    (key, sumIf (fun old => f old = key) entries)

section Regroup

variable [DecidableEq L] [AddCommMonoid M] (f : K → L)

theorem keys_regroup (entries : List (K × M)) :
    (regroup f entries).map Prod.fst = (entries.map fun entry => f entry.1).dedup := by
  unfold regroup
  rw [List.map_map]
  exact List.map_id _

/-- A sum over distinct keys that cover the entries has every entry once. -/
theorem sumIf_keys (p : L → Bool) {keys : List L} (hkeys : keys.Nodup) (entries : List (K × M)) :
    sumIf p (keys.map fun key => (key, sumIf (fun old => f old = key) entries)) =
      sumIf (fun old => p (f old) && decide (f old ∈ keys)) entries := by
  induction entries with
  | nil =>
    rw [sumIf_nil]
    unfold sumIf
    refine List.sum_eq_zero fun m hm => ?_
    obtain ⟨entry, hentry, rfl⟩ := List.mem_map.mp hm
    obtain ⟨key, -, rfl⟩ := List.mem_map.mp (List.mem_filter.mp hentry).1
    rfl
  | cons entry entries ih =>
    rw [sumIf_cons, ← ih]
    clear ih
    induction keys with
    | nil => simp
    | cons key keys ih =>
      obtain ⟨hnew, hkeys⟩ := List.nodup_cons.mp hkeys
      rw [List.map_cons, List.map_cons, sumIf_cons, sumIf_cons, ih hkeys]
      simp only
      rw [sumIf_cons]
      by_cases hkey : f entry.1 = key
      · have hnot : f entry.1 ∉ keys := by rw [hkey]; exact hnew
        cases hp : p key with
        | false => simp [hkey, hp]
        | true => simp [hkey, hp, hnew, add_assoc]
      · cases hp : p key with
        | false => simp [hkey]
        | true => simp [hkey, add_left_comm]

theorem sumIf_regroup (p : L → Bool) (entries : List (K × M)) :
    sumIf p (regroup f entries) = sumIf (fun key => p (f key)) entries := by
  unfold regroup
  rw [sumIf_keys f p (List.nodup_dedup _)]
  refine sumIf_congr fun entry hentry => ?_
  have hmem : f entry.1 ∈ (entries.map fun entry => f entry.1).dedup :=
    List.mem_dedup.mpr (List.mem_map_of_mem (f := fun entry : K × M => f entry.1) hentry)
  rw [decide_eq_true hmem, Bool.and_true]

end Regroup

/-- A table with one row for a key. -/
structure Ledger (K M : Type*) where
  rows : List (K × M)
  nodup : (rows.map Prod.fst).Nodup

namespace Ledger

def empty : Ledger K M := ⟨[], List.nodup_nil⟩

def keys (t : Ledger K M) : List K := t.rows.map Prod.fst

/-- The rows whose keys meet a condition. -/
def keep (t : Ledger K M) (p : K → Bool) : Ledger K M :=
  ⟨t.rows.filter fun row => p row.1, t.nodup.sublist (List.filter_sublist.map _)⟩

theorem mem_keys_keep {t : Ledger K M} {p : K → Bool} {key : K} :
    key ∈ (t.keep p).keys ↔ key ∈ t.keys ∧ p key = true := by
  unfold keys keep
  simp only [List.mem_map, List.mem_filter]
  constructor
  · rintro ⟨row, ⟨hrow, hp⟩, rfl⟩
    exact ⟨⟨row, hrow, rfl⟩, hp⟩
  · rintro ⟨⟨row, hrow, rfl⟩, hp⟩
    exact ⟨row, ⟨hrow, hp⟩, rfl⟩

variable [DecidableEq K] [AddCommMonoid M]

/-- An amount is added to the row of the key, or makes one. -/
def add (t : Ledger K M) (key : K) (amount : M) : Ledger K M :=
  if h : key ∈ t.rows.map Prod.fst then
    { rows := t.rows.map fun row => if row.1 = key then (key, row.2 + amount) else row
      nodup := by
        have hsame : (t.rows.map fun row => if row.1 = key then (key, row.2 + amount) else row).map
            Prod.fst = t.rows.map Prod.fst := by
          rw [List.map_map]
          refine List.map_congr_left fun row _ => ?_
          simp only [Function.comp_apply]
          split
          · rename_i heq
            exact heq.symm
          · rfl
        rw [hsame]
        exact t.nodup }
  else
    { rows := t.rows ++ [(key, amount)]
      nodup := by
        rw [List.map_append, List.map_singleton]
        exact List.nodup_append.mpr ⟨t.nodup, List.nodup_singleton _, fun a ha b hb heq => by
          have hkey : a = key := heq.trans (List.mem_singleton.mp hb)
          exact h (hkey ▸ ha)⟩ }

/-- The amount of the rows whose keys meet a condition. -/
def total (t : Ledger K M) (p : K → Bool) : M := sumIf p t.rows

theorem total_add (t : Ledger K M) (key : K) (amount : M) (p : K → Bool) :
    (t.add key amount).total p = t.total p + if p key then amount else 0 := by
  unfold total add
  split
  · rename_i hmem
    have hnodup := t.nodup
    simp only
    generalize t.rows = rows at hmem hnodup
    induction rows with
    | nil => cases hmem
    | cons row rows ih =>
      rw [List.map_cons, List.nodup_cons] at hnodup
      rw [List.map_cons, sumIf_cons, sumIf_cons]
      by_cases hkey : row.1 = key
      · have hrest : (rows.map fun row => if row.1 = key then (key, row.2 + amount) else row) =
            rows := by
          conv_rhs => rw [← List.map_id rows]
          refine List.map_congr_left fun other hother => if_neg fun heq => hnodup.1 ?_
          rw [hkey, ← heq]
          exact List.mem_map_of_mem hother
        rw [hrest, if_pos hkey, hkey]
        cases p key with
        | false => simp
        | true =>
          simp only [if_true]
          rw [add_assoc, add_assoc, add_comm amount]
      · have hmem' : key ∈ rows.map Prod.fst :=
          (List.mem_cons.mp hmem).resolve_left fun heq => hkey heq.symm
        rw [if_neg hkey, ih hmem' hnodup.2, add_assoc]
  · rw [sumIf_append, sumIf_cons, sumIf_nil, add_zero]

theorem mem_keys_add {t : Ledger K M} {key key' : K} {amount : M} :
    key' ∈ (t.add key amount).keys ↔ key' ∈ t.keys ∨ key' = key := by
  unfold keys add
  split
  · rename_i hmem
    simp only [List.map_map]
    rw [show (t.rows.map (Prod.fst ∘ fun row => if row.1 = key then (key, row.2 + amount) else row)) =
      t.rows.map Prod.fst from List.map_congr_left fun row _ => by
        simp only [Function.comp_apply]
        split
        · rename_i heq
          exact heq.symm
        · rfl]
    refine ⟨Or.inl, fun h => h.elim id ?_⟩
    rintro rfl
    exact hmem
  · simp only [List.map_append, List.map_singleton, List.mem_append, List.mem_singleton]

/-- Entries one after another. -/
def addAll (t : Ledger K M) (entries : List (K × M)) : Ledger K M :=
  entries.foldl (fun t entry => t.add entry.1 entry.2) t

theorem total_addAll (entries : List (K × M)) (t : Ledger K M) (p : K → Bool) :
    (t.addAll entries).total p = t.total p + sumIf p entries := by
  induction entries generalizing t with
  | nil => exact (add_zero _).symm
  | cons entry entries ih =>
    unfold addAll at ih ⊢
    rw [List.foldl_cons, ih, total_add, sumIf_cons, add_assoc]

theorem mem_keys_addAll {entries : List (K × M)} {t : Ledger K M} {key : K} :
    key ∈ (t.addAll entries).keys ↔ key ∈ t.keys ∨ key ∈ entries.map Prod.fst := by
  induction entries generalizing t with
  | nil => simp [addAll]
  | cons entry entries ih =>
    unfold addAll at ih ⊢
    rw [List.foldl_cons, ih, mem_keys_add, List.map_cons, List.mem_cons, or_assoc]

/-- The amount in the row of a key. -/
def amount (t : Ledger K M) (key : K) : M := t.total fun other => decide (other = key)

theorem amount_of_not_mem {t : Ledger K M} {key : K} (h : key ∉ t.keys) : t.amount key = 0 := by
  unfold amount total sumIf
  rw [List.filter_eq_nil_iff.mpr]
  · rfl
  · intro row hrow heq
    exact h (List.mem_map.mpr ⟨row, hrow, of_decide_eq_true heq⟩)

theorem amount_add (t : Ledger K M) (key : K) (more : M) (other : K) :
    (t.add key more).amount other = t.amount other + if key = other then more else 0 := by
  unfold amount
  rw [total_add]
  simp only [decide_eq_true_eq]

theorem amount_of_mem_rows {t : Ledger K M} {row : K × M} (h : row ∈ t.rows) :
    t.amount row.1 = row.2 := by
  have hnodup := t.nodup
  unfold amount total
  generalize t.rows = rows at h hnodup
  induction rows with
  | nil => cases h
  | cons first rows ih =>
    rw [List.map_cons, List.nodup_cons] at hnodup
    rw [sumIf_cons]
    rcases List.mem_cons.mp h with rfl | h
    · have hrest : sumIf (fun other => decide (other = row.1)) rows = 0 := by
        unfold sumIf
        rw [List.filter_eq_nil_iff.mpr]
        · rfl
        · intro later hlater heq
          exact hnodup.1 (List.mem_map.mpr ⟨later, hlater, of_decide_eq_true heq⟩)
      rw [hrest, add_zero, if_pos (decide_eq_true rfl)]
    · have hne : first.1 ≠ row.1 := fun heq => hnodup.1 (heq ▸ List.mem_map_of_mem h)
      rw [if_neg (by simpa using hne), zero_add]
      exact ih h hnodup.2

theorem mem_rows_iff {t : Ledger K M} {row : K × M} :
    row ∈ t.rows ↔ row.1 ∈ t.keys ∧ t.amount row.1 = row.2 := by
  constructor
  · intro h
    exact ⟨List.mem_map_of_mem h, amount_of_mem_rows h⟩
  · rintro ⟨hkey, hamount⟩
    obtain ⟨other, hother, heq⟩ := List.mem_map.mp hkey
    have hrow : other = row := by
      apply Prod.ext heq
      rw [← hamount, ← heq]
      exact (amount_of_mem_rows hother).symm
    exact hrow ▸ hother

/-- Two tables with the same rows have the same totals. -/
theorem total_congr {t t' : Ledger K M} (hkeys : ∀ key, key ∈ t.keys ↔ key ∈ t'.keys)
    (hamount : ∀ key ∈ t.keys, t.amount key = t'.amount key) (p : K → Bool) :
    t.total p = t'.total p := by
  have hperm : t.rows.Perm t'.rows := by
    refine (List.perm_ext_iff_of_nodup (List.Nodup.of_map _ t.nodup)
      (List.Nodup.of_map _ t'.nodup)).mpr fun row => ?_
    rw [mem_rows_iff, mem_rows_iff, hkeys]
    refine and_congr_right fun hrow => ?_
    rw [hamount _ ((hkeys _).mpr hrow)]
  exact ((hperm.filter _).map _).sum_eq

omit [DecidableEq K] in
/-- What is deleted and what is kept. -/
theorem total_keep_add (t : Ledger K M) (p q : K → Bool) :
    (t.keep q).total p + (t.keep fun key => !q key).total p = t.total p :=
  sumIf_filter_add p q t.rows

end Ledger

end Throned.Library
