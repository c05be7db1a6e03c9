import Mathlib.Data.List.Induction
import Mathlib.Data.List.Nodup

/-!
# Items grouped under their keys

Items are taken one after another into a list of entries, one entry for a key, made where the
key is new.  The entry of a key has gathered the items of that key in their order.
-/

set_option autoImplicit false

namespace Throned.Library

/-- How items go into entries. -/
structure Grouper (α β κ : Type*) where
  entryKey : α → κ
  key : β → κ
  start : β → α
  add : β → α → α
  key_start : ∀ item, entryKey (start item) = key item
  key_add : ∀ item entry, entryKey (add item entry) = entryKey entry

namespace Grouper

variable {α β κ : Type*}

/-- An entry takes more items. -/
def addAll (G : Grouper α β κ) (entry : α) (items : List β) : α :=
  items.foldl (fun entry item => G.add item entry) entry

theorem entryKey_addAll (G : Grouper α β κ) (entry : α) (items : List β) :
    G.entryKey (G.addAll entry items) = G.entryKey entry := by
  induction items generalizing entry with
  | nil => rfl
  | cons item items ih =>
    rw [← G.key_add item entry]
    exact ih _

variable [DecidableEq κ]

/-- The first entry of the key takes the item, or a new one at the end. -/
def insert (G : Grouper α β κ) (item : β) : List α → List α
  | [] => [G.add item (G.start item)]
  | entry :: later =>
    if G.entryKey entry = G.key item then G.add item entry :: later
    else entry :: G.insert item later

variable (G : Grouper α β κ)

def group (items : List β) : List α := items.foldl (fun entries item => G.insert item entries) []

/-- The items of a key. -/
def itemsOf (k : κ) (items : List β) : List β := items.filter fun item => G.key item = k

theorem insert_append {item : β} {before : List α} (h : ∀ e ∈ before, G.entryKey e ≠ G.key item)
    (entries : List α) : G.insert item (before ++ entries) = before ++ G.insert item entries := by
  induction before with
  | nil => rfl
  | cons e before ih =>
    rw [List.cons_append, insert, if_neg (h e List.mem_cons_self),
      ih fun e he => h e (List.mem_cons_of_mem _ he), List.cons_append]

theorem keys_insert (item : β) (entries : List α) :
    (G.insert item entries).map G.entryKey =
      if G.key item ∈ entries.map G.entryKey then entries.map G.entryKey
      else entries.map G.entryKey ++ [G.key item] := by
  induction entries with
  | nil => simp [insert, G.key_add, G.key_start]
  | cons e entries ih =>
    rw [insert]
    split
    · rename_i heq
      simp [G.key_add, heq]
    · rename_i hne
      rw [List.map_cons, ih, List.map_cons]
      simp only [List.mem_cons, Ne.symm hne, false_or]
      split <;> rfl

/-- What an entry was before an item. -/
theorem mem_insert {item : β} {entries : List α} (hnodup : (entries.map G.entryKey).Nodup) {e : α}
    (h : e ∈ G.insert item entries) :
    (e ∈ entries ∧ G.entryKey e ≠ G.key item) ∨
      (∃ before ∈ entries, G.entryKey before = G.key item ∧ e = G.add item before) ∨
        (G.key item ∉ entries.map G.entryKey ∧ e = G.add item (G.start item)) := by
  induction entries with
  | nil =>
    rw [insert, List.mem_singleton] at h
    exact .inr (.inr ⟨List.not_mem_nil, h⟩)
  | cons first entries ih =>
    rw [List.map_cons, List.nodup_cons] at hnodup
    rw [insert] at h
    split at h
    · rename_i heq
      rcases List.mem_cons.mp h with rfl | h
      · exact .inr (.inl ⟨first, List.mem_cons_self, heq, rfl⟩)
      · refine .inl ⟨List.mem_cons_of_mem _ h, fun hkey => hnodup.1 ?_⟩
        rw [heq, ← hkey]
        exact List.mem_map_of_mem h
    · rename_i hne
      rcases List.mem_cons.mp h with rfl | h
      · exact .inl ⟨List.mem_cons_self, hne⟩
      · refine (ih hnodup.2 h).imp (fun hkept => ⟨List.mem_cons_of_mem _ hkept.1, hkept.2⟩) ?_
        rintro (⟨before, hb, hkey, rfl⟩ | ⟨hnew, rfl⟩)
        · exact .inl ⟨before, List.mem_cons_of_mem _ hb, hkey, rfl⟩
        · refine .inr ⟨?_, rfl⟩
          rw [List.map_cons, List.mem_cons, not_or]
          exact ⟨Ne.symm hne, hnew⟩

theorem group_append_singleton (items : List β) (item : β) :
    G.group (items ++ [item]) = G.insert item (G.group items) := by
  unfold group
  rw [List.foldl_append]
  rfl

theorem itemsOf_append (k : κ) (items later : List β) :
    G.itemsOf k (items ++ later) = G.itemsOf k items ++ G.itemsOf k later := List.filter_append ..

theorem mem_keys_group (items : List β) (k : κ) :
    k ∈ (G.group items).map G.entryKey ↔ k ∈ items.map G.key := by
  induction items using List.reverseRecOn with
  | nil => exact Iff.rfl
  | append_singleton items item ih =>
    rw [group_append_singleton, keys_insert, List.map_append, List.mem_append, ← ih]
    split
    · rename_i hold
      refine ⟨.inl, fun h => h.elim id fun hk => ?_⟩
      rw [List.mem_singleton.mp hk]
      exact hold
    · exact List.mem_append

theorem nodup_keys_group (items : List β) : ((G.group items).map G.entryKey).Nodup := by
  induction items using List.reverseRecOn with
  | nil => exact List.nodup_nil
  | append_singleton items item ih =>
    rw [group_append_singleton, keys_insert]
    split
    · exact ih
    · rename_i hnew
      refine List.nodup_append.mpr ⟨ih, List.nodup_singleton _, ?_⟩
      rintro k hk k' hk' rfl
      rw [List.mem_singleton.mp hk'] at hk
      exact hnew hk

/-- **An entry has gathered the items of its key.** -/
theorem mem_group {items : List β} {e : α} (h : e ∈ G.group items) :
    ∃ first later, G.itemsOf (G.entryKey e) items = first :: later ∧
      e = G.addAll (G.start first) (first :: later) := by
  induction items using List.reverseRecOn generalizing e with
  | nil => cases h
  | append_singleton items item ih =>
    rw [group_append_singleton] at h
    rcases G.mem_insert (G.nodup_keys_group items) h with
      ⟨hkept, hne⟩ | ⟨before, hbefore, hkey, rfl⟩ | ⟨hnew, rfl⟩
    · obtain ⟨first, later, hitems, he⟩ := ih hkept
      refine ⟨first, later, ?_, he⟩
      rw [itemsOf_append, hitems, itemsOf, List.filter_cons_of_neg (by simpa using Ne.symm hne),
        List.filter_nil, List.append_nil]
    · obtain ⟨first, later, hitems, he⟩ := ih hbefore
      refine ⟨first, later ++ [item], ?_, ?_⟩
      · rw [G.key_add, itemsOf_append, hitems, itemsOf,
          List.filter_cons_of_pos (by simpa using hkey.symm), List.filter_nil, List.cons_append]
      · rw [← List.cons_append, addAll, List.foldl_append]
        exact congrArg _ he
    · refine ⟨item, [], ?_, rfl⟩
      have hnone : G.itemsOf (G.key item) items = [] := by
        rw [itemsOf, List.filter_eq_nil_iff]
        intro other hother heq
        rw [mem_keys_group] at hnew
        exact hnew (of_decide_eq_true heq ▸ List.mem_map_of_mem hother)
      rw [G.key_add, G.key_start, itemsOf_append, hnone, itemsOf,
        List.filter_cons_of_pos (by simp), List.filter_nil, List.nil_append]

/-- Items of one new key make one entry at the end. -/
theorem foldl_insert_block {k : κ} {block : List β} (hblock : ∀ item ∈ block, G.key item = k)
    {before : List α} (hnew : ∀ e ∈ before, G.entryKey e ≠ k) {entry : α}
    (hentry : G.entryKey entry = k) :
    block.foldl (fun entries item => G.insert item entries) (before ++ [entry]) =
      before ++ [G.addAll entry block] := by
  induction block generalizing entry with
  | nil => rfl
  | cons item block ih =>
    have hkey := hblock item List.mem_cons_self
    have hinsert : G.insert item (before ++ [entry]) = before ++ [G.add item entry] := by
      rw [insert_append _ fun e he => hkey ▸ hnew e he, insert, if_pos (hentry.trans hkey.symm)]
    rw [List.foldl_cons, hinsert,
      ih (fun i hi => hblock i (List.mem_cons_of_mem _ hi)) ((G.key_add _ _).trans hentry)]
    rfl

/-- **Blocks of items with keys of their own** give an entry each. -/
theorem group_flatMap {γ : Type*} {xs : List γ} {block : γ → List β} {entry : γ → α}
    (hkeys : (xs.map fun x => G.entryKey (entry x)).Nodup)
    (hblock : ∀ x ∈ xs, ∃ first later, block x = first :: later ∧
      (∀ item ∈ block x, G.key item = G.entryKey (entry x)) ∧
        entry x = G.addAll (G.start first) (block x)) :
    G.group (xs.flatMap block) = xs.map entry := by
  induction xs using List.reverseRecOn with
  | nil => rfl
  | append_singleton xs x ih =>
    rw [List.map_append, List.nodup_append] at hkeys
    obtain ⟨first, later, hitems, hkey, hentry⟩ :=
      hblock x (List.mem_append_right _ (List.mem_singleton_self x))
    have hbefore := ih hkeys.1 fun y hy => hblock y (List.mem_append_left _ hy)
    have hfirst : G.key first = G.entryKey (entry x) :=
      hkey first (hitems ▸ List.mem_cons_self)
    have hnew : ∀ e ∈ xs.map entry, G.entryKey e ≠ G.entryKey (entry x) := by
      intro e he
      obtain ⟨y, hy, rfl⟩ := List.mem_map.mp he
      exact hkeys.2.2 _ (List.mem_map_of_mem hy) _ (List.mem_singleton_self _)
    have hinsert : G.insert first (xs.map entry) =
        xs.map entry ++ [G.add first (G.start first)] := by
      rw [← List.append_nil (xs.map entry),
        insert_append _ (fun e he => hfirst ▸ hnew e (by simpa using he)), insert]
      simp
    unfold group at hbefore ⊢
    rw [List.flatMap_append, List.foldl_append, hbefore, List.flatMap_singleton, hitems,
      List.foldl_cons, hinsert, List.map_append, List.map_singleton]
    have hlater : ∀ item ∈ later, G.key item = G.entryKey (entry x) := fun item hitem =>
      hkey item (hitems ▸ List.mem_cons_of_mem _ hitem)
    rw [G.foldl_insert_block hlater hnew ((G.key_add _ _).trans ((G.key_start _).trans hfirst)),
      hentry, hitems]
    rfl

end Grouper

end Throned.Library
