import Throned.Analysis.GroupSorts
import Throned.Library.Runs

/-!
# Members without repetition

Every operation but a batch that brings an id twice keeps the members without repetition, and
those that only reorder keep the members.
-/

set_option autoImplicit false

namespace Throned.Entities

open Throned.Library

variable {ν : Type*} [LinearOrder ν]

namespace Group

/-! ## Operations that reorder -/

theorem commit_perm {group group' : Group} {snapshot order : List ℤ} {action : GroupSortAction}
    (horder : order.Perm group.profiles)
    (hmoved : group.commit snapshot action order = .Moved group') :
    group'.profiles.Perm group.profiles := by
  unfold commit at hmoved
  split at hmoved
  · cases hmoved
  · split at hmoved
    · cases hmoved
    · cases hmoved
      exact horder

theorem Resort_perm (group : Group) (rows : Rows ν) :
    (group.Resort rows).2.profiles.Perm group.profiles := by
  cases hkeeps : group.KeepsSorted with
  | false =>
    unfold Resort kSortAttempts resortAttempts
    rw [hkeeps, if_pos rfl]
  | true =>
    rw [Resort_eq group rows hkeeps]
    exact group.fullOrder_perm rows

theorem repositionAttempts_perm (rows : Rows ν) (changed : List ℤ) (attempts : ℕ) (group : Group) :
    (repositionAttempts rows changed attempts group).2.profiles.Perm group.profiles := by
  induction attempts with
  | zero => exact List.Perm.refl _
  | succ attempts ih =>
    unfold repositionAttempts
    split
    · exact List.Perm.refl _
    · dsimp only
      split
      · exact List.Perm.refl _
      · split
        · exact group.Resort_perm rows
        · split
          · exact List.Perm.refl _
          · split
            · rename_i hmoved
              exact commit_perm (reinserted_perm _ _ _) hmoved
            · exact List.Perm.refl _
            · exact ih

theorem Reposition_perm (group : Group) (rows : Rows ν) (changed : List ℤ) :
    (group.Reposition rows changed).2.profiles.Perm group.profiles := by
  unfold Reposition
  split
  · exact List.Perm.refl _
  · exact repositionAttempts_perm rows changed _ group

theorem swapItemsAt_perm (l : List ℤ) (i j : ℕ) : (swapItemsAt l i j).Perm l := by
  unfold swapItemsAt
  split
  · rename_i a b ha hb
    obtain ⟨hi, rfl⟩ := List.getElem?_eq_some_iff.mp ha
    obtain ⟨hj, rfl⟩ := List.getElem?_eq_some_iff.mp hb
    exact List.set_set_perm hi hj
  · exact List.Perm.refl _

/-- What is put in and taken out again. -/
theorem eraseIdx_perm_of_insert {l inserted : List ℤ} {id : ℤ} (hinserted : inserted.Perm (id :: l))
    {i : ℕ} (hi : inserted[i]? = some id) : (inserted.eraseIdx i).Perm l := by
  obtain ⟨hlt, hid⟩ := List.getElem?_eq_some_iff.mp hi
  have herased := List.getElem_cons_eraseIdx_perm hlt
  rw [hid] at herased
  exact (herased.trans hinserted).cons_inv

theorem emplaced_perm {l : List ℤ} {idx newIdx : ℕ} (hnew : newIdx < l.length) :
    (emplaced l idx newIdx).Perm l := by
  unfold emplaced
  split
  · rename_i id hid
    obtain ⟨hidx, hid⟩ := List.getElem?_eq_some_iff.mp hid
    have hinserted : (l.take (newIdx + 1) ++ id :: l.drop (newIdx + 1)).Perm (id :: l) := by
      have hmiddle : (l.take (newIdx + 1) ++ id :: l.drop (newIdx + 1)).Perm
          (id :: (l.take (newIdx + 1) ++ l.drop (newIdx + 1))) := List.perm_middle
      rwa [List.take_append_drop] at hmiddle
    have hlength : (l.take (newIdx + 1)).length = newIdx + 1 := by
      rw [List.length_take]
      omega
    dsimp only
    split
    · rename_i hbefore
      refine eraseIdx_perm_of_insert hinserted ?_
      rw [List.getElem?_append_left (by omega), List.getElem?_take_of_lt (by omega),
        List.getElem?_eq_getElem hidx, hid]
    · rename_i hbehind
      refine eraseIdx_perm_of_insert hinserted ?_
      rw [List.getElem?_append_right (by omega), hlength]
      rcases Nat.eq_or_lt_of_le (Nat.le_of_not_lt hbehind) with hsame | hlater
      · rw [show idx + 1 - (newIdx + 1) = 0 by omega, List.getElem?_cons_zero]
      · rw [show idx + 1 - (newIdx + 1) = (idx - newIdx - 1) + 1 by omega, List.getElem?_cons_succ,
          List.getElem?_drop, show newIdx + 1 + (idx - newIdx - 1) = idx by omega,
          List.getElem?_eq_getElem hidx, hid]
  · exact List.Perm.refl _

/-- The operations that only reorder. -/
def Operation.reorders : Operation ν → Bool
  | .SwapProfiles _ _ => true
  | .EmplaceProfile _ _ => true
  | .SortProfiles _ _ => true
  | .Reposition _ _ => true
  | _ => false

/-- **Reordering keeps the members.** -/
theorem step_perm (group : Group) {op : Operation ν} (hop : op.reorders = true) :
    (group.step op).profiles.Perm group.profiles := by
  cases op with
  | AddProfile | AddProfileBatch | RemoveProfile | RemoveProfileBatch => cases hop
  | SwapProfiles idx1 idx2 =>
    dsimp only [step, Group.SwapProfiles]
    split
    · exact List.Perm.refl _
    · exact swapItemsAt_perm _ _ _
  | EmplaceProfile idx newIdx =>
    dsimp only [step, Group.EmplaceProfile]
    split
    · exact List.Perm.refl _
    · rename_i hrange
      exact emplaced_perm (by omega)
  | SortProfiles rows action => exact (group.SetSort action).Resort_perm rows
  | Reposition rows changed => exact group.Reposition_perm rows changed

/-! ## Repetitions -/

/-- A batch brings no new id twice. -/
def Fresh (group : Group) : Operation ν → Prop
  | .AddProfileBatch IDs => (IDs.filter (· ∉ group.profiles)).Nodup
  | _ => True

instance (group : Group) (op : Operation ν) : Decidable (group.Fresh op) := by
  unfold Fresh
  split
  · infer_instance
  · infer_instance

theorem nodup_AddProfileBatch {group : Group} (hnodup : group.profiles.Nodup) (IDs : List ℤ) :
    (group.AddProfileBatch IDs).2.profiles.Nodup ↔
      (IDs.filter (· ∉ group.profiles)).Nodup := by
  unfold Group.AddProfileBatch
  rw [List.nodup_append]
  constructor
  · exact fun h => h.2.1
  · refine fun h => ⟨hnodup, h, fun id hid other hother => ?_⟩
    rintro rfl
    exact absurd hid (by simpa using (List.mem_filter.mp hother).2)

/-- A step keeps the members without repetition just where it is fresh. -/
theorem nodup_step_iff {group : Group} (hnodup : group.profiles.Nodup) (op : Operation ν) :
    (group.step op).profiles.Nodup ↔ group.Fresh op := by
  cases op with
  | AddProfile ID =>
    refine iff_of_true ?_ trivial
    dsimp only [step, Group.AddProfile]
    split
    · exact hnodup
    · rename_i hnew
      have hmem : ID ∉ group.profiles := fun hmem => hnew (decide_eq_true hmem)
      exact hnodup.append (List.nodup_singleton ID) (List.disjoint_singleton.mpr hmem)
  | AddProfileBatch IDs => exact nodup_AddProfileBatch hnodup IDs
  | RemoveProfile ID =>
    refine iff_of_true ?_ trivial
    dsimp only [step, Group.RemoveProfile]
    split
    · exact hnodup
    · exact hnodup.filter _
  | RemoveProfileBatch IDs => exact iff_of_true (hnodup.filter _) trivial
  | SwapProfiles | EmplaceProfile | SortProfiles | Reposition =>
    exact iff_of_true ((group.step_perm rfl).nodup_iff.mpr hnodup) trivial

/-- **Members of every run.**  A run leaves no id twice in any of its states just where its batches
bring no new id twice; reordering keeps the members. -/
theorem nodup_throughout_iff (group : Group) (hnodup : group.profiles.Nodup)
    (ops : List (Operation ν)) :
    (Throughout step Fresh group ops ↔ ∀ n, (runAll step group (ops.take n)).profiles.Nodup) ∧
      ∀ n, ∀ op ∈ ops[n]?, op.reorders = true →
        (runAll step group (ops.take (n + 1))).profiles.Perm
          (runAll step group (ops.take n)).profiles := by
  constructor
  · exact throughout_iff (I := fun g : Group => g.profiles.Nodup) (J := fun _ => True)
      (fun _ _ _ => trivial) (fun _ op _ hnodup => nodup_step_iff hnodup op) trivial hnodup
  · intro n op hop hreorders
    have htake : ops.take (n + 1) = ops.take n ++ [op] := by
      rw [List.take_add_one, Option.mem_def.mp hop, Option.toList_some]
    rw [htake, runAll, List.foldl_append]
    exact step_perm _ hreorders

theorem nodup_throughout_swap :
    (runAll step { profiles := [1, 2, 3] }
      (([.AddProfileBatch [4, 2, 5], .SwapProfiles 0 3, .EmplaceProfile 0 2] :
        List (Operation ℤ)).take 3)).profiles.Nodup :=
  (nodup_throughout_iff { profiles := [1, 2, 3] } (by decide)
    [.AddProfileBatch [4, 2, 5], .SwapProfiles 0 3, .EmplaceProfile 0 2]).1.mp (by decide +kernel) 3

/-- A batch that brings an id twice puts it in twice. -/
theorem batch_repeats :
    ([1] : List ℤ).Nodup ∧
      ¬(runAll step { profiles := [1] }
        ([.AddProfileBatch [5, 5]] : List (Operation ℤ))).profiles.Nodup := by
  refine ⟨by decide, ?_⟩
  decide +kernel

end Group

end Throned.Entities
