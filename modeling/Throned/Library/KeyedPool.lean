import Mathlib.Data.List.Basic
import Mathlib.Data.List.Induction
import Mathlib.Data.List.Nodup
import Mathlib.Logic.Function.Basic
import Mathlib.Tactic.Common

/-!
# Taking from a pool by key

A pool holds a queue of items for each key.  Each taker asks for a key and gets the first
item left there, or nothing.  Whatever the order of the takers, the items of a key are
given out in their order and to one taker each, and nobody goes away empty while an item
of the key is left.
-/

set_option autoImplicit false

namespace Throned.Library

variable {κ ι : Type*} [DecidableEq κ]

/-- The items left for each key. -/
abbrev Pool (κ ι : Type*) := κ → List ι

/-- The first item left for a key, and the pool without it. -/
def Pool.take (pool : Pool κ ι) (key : κ) : Option ι × Pool κ ι :=
  match pool key with
  | [] => (none, pool)
  | item :: rest => (some item, Function.update pool key rest)

theorem Pool.take_none {pool rest : Pool κ ι} {key : κ} (h : pool.take key = (none, rest)) :
    rest = pool := by
  unfold Pool.take at h
  split at h <;> cases h
  rfl

/-- Each item is in the pool once. -/
structure Pool.Distinct (pool : Pool κ ι) : Prop where
  nodup : ∀ key, (pool key).Nodup
  key : ∀ {k l : κ} {item : ι}, item ∈ pool k → item ∈ pool l → k = l

/-- The items of a list without repetition, each under its key. -/
theorem Pool.distinct_of_sublist {α : Type*} {pool : Pool κ ι} {l : List α} {item : α → ι}
    {key : α → κ} (hnodup : (l.map item).Nodup)
    (hpool : ∀ k, (pool k).Sublist ((l.filter fun a => key a = k).map item)) : pool.Distinct := by
  refine ⟨fun k => ?_, fun {k k'} i hk hk' => ?_⟩
  · exact ((hpool k).trans (List.filter_sublist.map item)).nodup hnodup
  · obtain ⟨a, ha, hai⟩ := List.mem_map.mp ((hpool k).subset hk)
    obtain ⟨b, hb, hbi⟩ := List.mem_map.mp ((hpool k').subset hk')
    obtain ⟨hal, hak⟩ := List.mem_filter.mp ha
    obtain ⟨hbl, hbk⟩ := List.mem_filter.mp hb
    have hab : a = b := List.inj_on_of_nodup_map hnodup hal hbl (hai.trans hbi.symm)
    rw [← of_decide_eq_true hak, ← of_decide_eq_true hbk, hab]

/-- What the takers got, in their order, and what is left: the taker of a key that has `n`
takers of the key before it gets the item number `n`. -/
structure Served (pool : Pool κ ι) (log : List (κ × Option ι)) (rest : Pool κ ι) : Prop where
  left : ∀ key, rest key = (pool key).drop (log.countP fun p => p.1 = key)
  got : ∀ {before after : List (κ × Option ι)} {key : κ} {item : Option ι},
    log = before ++ (key, item) :: after → item = (pool key)[before.countP fun p => p.1 = key]?

namespace Served

variable {pool rest : Pool κ ι} {log : List (κ × Option ι)}

theorem nil (pool : Pool κ ι) : Served pool [] pool :=
  ⟨fun _ => rfl, fun h => absurd h (by simp)⟩

/-- **One more taker.** -/
theorem take (h : Served pool log rest) (key : κ) :
    Served pool (log ++ [(key, (rest.take key).1)]) (rest.take key).2 := by
  have hleft := h.left key
  have hfirst : (rest.take key).1 = (pool key)[log.countP fun p => p.1 = key]? := by
    rw [← List.head?_drop, ← hleft]
    unfold Pool.take
    cases rest key <;> rfl
  refine ⟨fun k => ?_, fun {before after k item} hsplit => ?_⟩
  · by_cases hkey : key = k
    · subst hkey
      rw [List.countP_append, List.countP_singleton, if_pos (decide_eq_true rfl), ← List.drop_drop,
        ← hleft]
      unfold Pool.take
      cases hrest : rest key with
      | nil => exact hrest
      | cons item items => exact Function.update_self key items rest
    · have hsame : (rest.take key).2 k = rest k := by
        unfold Pool.take
        cases rest key with
        | nil => rfl
        | cons item items => exact Function.update_of_ne (fun heq => hkey heq.symm) _ _
      rw [hsame, h.left k]
      simp [hkey]
  · rcases List.eq_nil_or_concat after with rfl | ⟨after, last, rfl⟩
    · obtain ⟨rfl, hlast⟩ := List.append_inj' hsplit rfl
      cases hlast
      exact hfirst
    · rw [List.concat_eq_append, ← List.cons_append, ← List.append_assoc] at hsplit
      exact h.got (List.append_inj' hsplit rfl).1

/-- The takers of a key get its first items, in order. -/
theorem taken_eq (h : Served pool log rest) (key : κ) :
    log.filterMap (fun p => if p.1 = key then p.2 else none) =
      (pool key).take (log.countP fun p => p.1 = key) := by
  have hgot : ∀ {before after : List (κ × Option ι)} {item : Option ι},
      log = before ++ (key, item) :: after →
        item = (pool key)[before.countP fun p => p.1 = key]? := fun hsplit => h.got hsplit
  clear h
  induction log using List.reverseRecOn with
  | nil => rfl
  | append_singleton log p ih =>
    have hlog := ih fun {before after item} hsplit =>
      @hgot _ (after ++ [p]) _ (by rw [hsplit, List.append_assoc, List.cons_append])
    obtain ⟨k, item⟩ := p
    rw [List.filterMap_append, hlog, List.countP_append]
    by_cases hk : k = key
    · subst hk
      have hitem := @hgot log [] _ rfl
      rw [List.countP_singleton, if_pos (decide_eq_true rfl), List.take_add_one, ← hitem]
      cases item <;> simp
    · simp [hk]

theorem taken (h : Served pool log rest) (key : κ) :
    log.filterMap (fun p => if p.1 = key then p.2 else none) ++ rest key = pool key := by
  rw [h.taken_eq, h.left, List.take_append_drop]

/-- A taker goes away empty only if nothing is left. -/
theorem full (h : Served pool log rest) (key : κ) (hmem : (key, none) ∈ log) : rest key = [] := by
  obtain ⟨before, after, hsplit⟩ := List.append_of_mem hmem
  have hnone := List.getElem?_eq_none_iff.mp (h.got hsplit).symm
  rw [h.left, List.drop_eq_nil_iff]
  apply Nat.le_trans hnone
  rw [hsplit, List.countP_append]
  exact Nat.le_add_right _ _

theorem mem_taken {key : κ} {item : ι} :
    item ∈ log.filterMap (fun p => if p.1 = key then p.2 else none) ↔ (key, some item) ∈ log := by
  rw [List.mem_filterMap]
  constructor
  · rintro ⟨⟨k, got⟩, hp, hitem⟩
    split at hitem
    · rename_i heq
      simp only at heq hitem
      rw [← heq, ← hitem]
      exact hp
    · cases hitem
  · intro hp
    exact ⟨_, hp, if_pos rfl⟩

theorem mem_pool (h : Served pool log rest) {key : κ} {item : ι} (hp : (key, some item) ∈ log) :
    item ∈ pool key := by
  rw [← h.taken key]
  exact List.mem_append_left _ (mem_taken.mpr hp)

theorem mem_pool_of_rest (h : Served pool log rest) {key : κ} {item : ι} (hp : item ∈ rest key) :
    item ∈ pool key := by
  rw [← h.taken key]
  exact List.mem_append_right _ hp

theorem taken_or_left (h : Served pool log rest) {key : κ} {item : ι} (hp : item ∈ pool key) :
    (key, some item) ∈ log ∨ item ∈ rest key := by
  rw [← h.taken key] at hp
  exact (List.mem_append.mp hp).imp_left mem_taken.mp

/-- As many takers as items leave nothing and nobody empty-handed. -/
theorem exhausted (h : Served pool log rest) {key : κ}
    (hcount : log.countP (fun p => p.1 = key) = (pool key).length) :
    rest key = [] ∧ (key, none) ∉ log := by
  have hlength : ∀ log : List (κ × Option ι),
      (log.filterMap fun p => if p.1 = key then p.2 else none).length +
        log.countP (fun p => p.1 = key && p.2.isNone) = log.countP fun p => p.1 = key := by
    intro log
    induction log with
    | nil => rfl
    | cons p log ih =>
      obtain ⟨k, got⟩ := p
      by_cases hk : k = key <;> cases got <;> simp [hk] at ih ⊢ <;> omega
  have htaken := congrArg List.length (h.taken key)
  rw [List.length_append] at htaken
  have hsplit := hlength log
  have hnone : (key, none) ∉ log := by
    intro hmem
    have hpos : 0 < log.countP fun p => p.1 = key && p.2.isNone :=
      List.countP_pos_iff.mpr ⟨_, hmem, by simp⟩
    have hempty := congrArg List.length (h.full key hmem)
    rw [List.length_nil] at hempty
    omega
  have hzero : log.countP (fun p => p.1 = key && p.2.isNone) = 0 := by
    rw [List.countP_eq_zero]
    rintro ⟨k, got⟩ hp hboth
    simp only [Bool.and_eq_true, decide_eq_true_eq, Option.isNone_iff_eq_none] at hboth
    rw [hboth.1, hboth.2] at hp
    exact hnone hp
  refine ⟨List.length_eq_zero_iff.mp ?_, hnone⟩
  omega

/-! ### A pool that holds each item once -/

/-- An item is given out under one key only. -/
theorem key_unique (h : Served pool log rest) (hpool : pool.Distinct) {k l : κ} {item : ι}
    (hk : (k, some item) ∈ log) (hl : (l, some item) ∈ log) : k = l :=
  hpool.key (h.mem_pool hk) (h.mem_pool hl)

/-- No item is given out twice. -/
theorem nodup (h : Served pool log rest) (hpool : pool.Distinct) :
    (log.filterMap Prod.snd).Nodup := by
  have hkeys : ∀ key, (log.filterMap fun p => if p.1 = key then p.2 else none).Nodup := by
    intro key
    have hnodup := hpool.nodup key
    rw [← h.taken key] at hnodup
    exact hnodup.of_append_left
  have hunique : ∀ {k l : κ} {item : ι}, (k, some item) ∈ log → (l, some item) ∈ log → k = l :=
    fun hk hl => h.key_unique hpool hk hl
  clear h
  induction log with
  | nil => exact List.nodup_nil
  | cons p log ih =>
    have hrest := ih (fun key => ((List.sublist_cons_self p log).filterMap _).nodup (hkeys key))
      fun hk hl => hunique (List.mem_cons_of_mem _ hk) (List.mem_cons_of_mem _ hl)
    obtain ⟨key, got⟩ := p
    cases got with
    | none => simpa using hrest
    | some item =>
      rw [List.filterMap_cons]
      refine List.nodup_cons.mpr ⟨fun hmem => ?_, hrest⟩
      obtain ⟨⟨k, got⟩, hq, hgot⟩ := List.mem_filterMap.mp hmem
      simp only at hgot
      subst hgot
      have hsame := hunique List.mem_cons_self (List.mem_cons_of_mem _ hq)
      have htwice := hkeys key
      rw [List.filterMap_cons] at htwice
      simp only [if_pos] at htwice
      refine (List.nodup_cons.mp htwice).1 ?_
      rw [mem_taken, hsame]
      exact hq

/-- What is left has been given to nobody. -/
theorem not_taken (h : Served pool log rest) (hpool : pool.Distinct) {k l : κ} {item : ι}
    (hrest : item ∈ rest k) : (l, some item) ∉ log := by
  intro hl
  have hsame := hpool.key (h.mem_pool_of_rest hrest) (h.mem_pool hl)
  subst hsame
  have hnodup := hpool.nodup k
  rw [← h.taken k] at hnodup
  exact List.disjoint_of_nodup_append hnodup (mem_taken.mpr hl) hrest

end Served

end Throned.Library
