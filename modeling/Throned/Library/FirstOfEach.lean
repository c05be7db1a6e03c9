import Mathlib.Data.List.Nodup
import Mathlib.Data.List.Perm.Basic
import Mathlib.Logic.Function.Basic

/-!
# The first item of each key

Some items of a list have a key.  Those that are the first of their key are changed, each in the
way of its key, and all others are left: changes of this kind compose key by key.
-/

set_option autoImplicit false

namespace Throned.Library

variable {α κ : Type*}

/-- The first item with `p` is changed. -/
def changeFirst (p : α → Bool) (f : α → α) : List α → List α
  | [] => []
  | x :: xs => if p x then f x :: xs else x :: changeFirst p f xs

theorem changeFirst_const {p : α → Bool} {xs : List α} {x : α} (h : xs.find? p = some x)
    (f : α → α) : changeFirst p (fun _ => f x) xs = changeFirst p f xs := by
  induction xs with
  | nil => rfl
  | cons y xs ih =>
    rw [List.find?_cons] at h
    rw [changeFirst, changeFirst]
    by_cases hy : p y = true
    · rw [hy] at h
      rw [if_pos hy, if_pos hy, Option.some_inj.mp h]
    · rw [Bool.eq_false_iff.mpr hy] at h
      rw [if_neg hy, if_neg hy, ih h]

theorem mem_changeFirst {p : α → Bool} {f : α → α} {xs : List α} {x : α}
    (h : x ∈ changeFirst p f xs) : x ∈ xs ∨ ∃ y ∈ xs, p y = true ∧ x = f y := by
  induction xs with
  | nil => exact .inl h
  | cons y xs ih =>
    rw [changeFirst] at h
    split at h
    · rename_i hy
      rcases List.mem_cons.mp h with rfl | hmem
      · exact .inr ⟨y, List.mem_cons_self, hy, rfl⟩
      · exact .inl (List.mem_cons_of_mem y hmem)
    · rcases List.mem_cons.mp h with rfl | hmem
      · exact .inl List.mem_cons_self
      · rcases ih hmem with hmem | ⟨z, hz, hpz, rfl⟩
        · exact .inl (List.mem_cons_of_mem y hmem)
        · exact .inr ⟨z, List.mem_cons_of_mem y hz, hpz, rfl⟩

/-- Items of another sort are left. -/
theorem filter_changeFirst {p q : α → Bool} {f : α → α} (hp : ∀ x, p x = true → q x = false)
    (hf : ∀ x, p x = true → q (f x) = false) (xs : List α) :
    (changeFirst p f xs).filter q = xs.filter q := by
  induction xs with
  | nil => rfl
  | cons x xs ih =>
    rw [changeFirst]
    split
    · rename_i hx
      rw [List.filter_cons_of_neg (by simp [hf x hx]), List.filter_cons_of_neg (by simp [hp x hx])]
    · rw [List.filter_cons, List.filter_cons, ih]

theorem exists_mem_changeFirst {p : α → Bool} {f : α → α} {xs : List α}
    (h : xs.any p = true) : ∃ x ∈ xs, p x = true ∧ f x ∈ changeFirst p f xs := by
  induction xs with
  | nil => cases h
  | cons x xs ih =>
    rw [changeFirst]
    by_cases hx : p x = true
    · rw [if_pos hx]
      exact ⟨x, List.mem_cons_self, hx, List.mem_cons_self⟩
    · rw [List.any_cons, Bool.or_eq_true, or_iff_right hx] at h
      obtain ⟨y, hy, hpy, hmem⟩ := ih h
      rw [if_neg hx]
      exact ⟨y, List.mem_cons_of_mem x hy, hpy, List.mem_cons_of_mem x hmem⟩

variable [DecidableEq κ]

/-- The first item of each key that is not among those seen is changed. -/
def changeFirsts (key : α → Option κ) (f : κ → α → α) : List κ → List α → List α
  | _, [] => []
  | seen, x :: xs =>
    match key x with
    | none => x :: changeFirsts key f seen xs
    | some k =>
      if k ∈ seen then x :: changeFirsts key f seen xs
      else f k x :: changeFirsts key f (k :: seen) xs

/-- The first item of each key that is not among those seen, with its key. -/
def firsts (key : α → Option κ) : List κ → List α → List (κ × α)
  | _, [] => []
  | seen, x :: xs =>
    match key x with
    | none => firsts key seen xs
    | some k => if k ∈ seen then firsts key seen xs else (k, x) :: firsts key (k :: seen) xs

/-- The items that are not the first of a key. -/
def others (key : α → Option κ) : List κ → List α → List α
  | _, [] => []
  | seen, x :: xs =>
    match key x with
    | none => x :: others key seen xs
    | some k => if k ∈ seen then x :: others key seen xs else others key (k :: seen) xs

variable {key : α → Option κ}

theorem changeFirsts_cons_none {x : α} (h : key x = none) (f : κ → α → α) (seen : List κ)
    (xs : List α) : changeFirsts key f seen (x :: xs) = x :: changeFirsts key f seen xs := by
  rw [changeFirsts, h]

theorem changeFirsts_cons_seen {x : α} {k : κ} {seen : List κ} (h : key x = some k) (hk : k ∈ seen)
    (f : κ → α → α) (xs : List α) :
    changeFirsts key f seen (x :: xs) = x :: changeFirsts key f seen xs := by
  rw [changeFirsts, h]
  exact if_pos hk

theorem changeFirsts_cons_new {x : α} {k : κ} {seen : List κ} (h : key x = some k) (hk : k ∉ seen)
    (f : κ → α → α) (xs : List α) :
    changeFirsts key f seen (x :: xs) = f k x :: changeFirsts key f (k :: seen) xs := by
  rw [changeFirsts, h]
  exact if_neg hk

/-- Changes that keep the keys compose key by key. -/
theorem changeFirsts_changeFirsts {g : κ → α → α} (f : κ → α → α)
    (hg : ∀ k x, key x = some k → key (g k x) = some k) (seen : List κ) (xs : List α) :
    changeFirsts key f seen (changeFirsts key g seen xs) =
      changeFirsts key (fun k x => f k (g k x)) seen xs := by
  induction xs generalizing seen with
  | nil => rfl
  | cons x xs ih =>
    cases hx : key x with
    | none => simp only [changeFirsts_cons_none hx, ih]
    | some k =>
      by_cases hk : k ∈ seen
      · simp only [changeFirsts_cons_seen hx hk, ih]
      · simp only [changeFirsts_cons_new hx hk, changeFirsts_cons_new (hg k x hx) hk, ih]

theorem changeFirsts_congr {f g : κ → α → α} {seen : List κ} {xs : List α}
    (h : ∀ e ∈ firsts key seen xs, f e.1 e.2 = g e.1 e.2) :
    changeFirsts key f seen xs = changeFirsts key g seen xs := by
  induction xs generalizing seen with
  | nil => rfl
  | cons x xs ih =>
    rw [firsts] at h
    cases hx : key x with
    | none =>
      rw [hx] at h
      rw [changeFirsts_cons_none hx, changeFirsts_cons_none hx, ih h]
    | some k =>
      simp only [hx] at h
      by_cases hk : k ∈ seen
      · rw [if_pos hk] at h
        rw [changeFirsts_cons_seen hx hk, changeFirsts_cons_seen hx hk, ih h]
      · rw [if_neg hk] at h
        rw [changeFirsts_cons_new hx hk, changeFirsts_cons_new hx hk,
          h (k, x) List.mem_cons_self, ih fun e he => h e (List.mem_cons_of_mem _ he)]

theorem changeFirsts_id (seen : List κ) (xs : List α) :
    changeFirsts key (fun _ x => x) seen xs = xs := by
  induction xs generalizing seen with
  | nil => rfl
  | cons x xs ih =>
    cases hx : key x with
    | none => rw [changeFirsts_cons_none hx, ih]
    | some k =>
      by_cases hk : k ∈ seen
      · rw [changeFirsts_cons_seen hx hk, ih]
      · rw [changeFirsts_cons_new hx hk, ih]

theorem changeFirsts_eq_self {f : κ → α → α} {seen : List κ} {xs : List α}
    (h : ∀ e ∈ firsts key seen xs, f e.1 e.2 = e.2) : changeFirsts key f seen xs = xs :=
  (changeFirsts_congr h).trans (changeFirsts_id seen xs)

/-! ## The first items -/

/-- What is found to be first has its key, stands in the list, and was not seen before. -/
theorem mem_firsts {seen : List κ} {xs : List α} {e : κ × α} (h : e ∈ firsts key seen xs) :
    key e.2 = some e.1 ∧ e.2 ∈ xs ∧ e.1 ∉ seen := by
  induction xs generalizing seen with
  | nil => exact absurd h List.not_mem_nil
  | cons x xs ih =>
    rw [firsts] at h
    cases hx : key x with
    | none =>
      rw [hx] at h
      obtain ⟨hkey, hmem, hnew⟩ := ih h
      exact ⟨hkey, List.mem_cons_of_mem x hmem, hnew⟩
    | some k =>
      simp only [hx] at h
      split at h
      · obtain ⟨hkey, hmem, hnew⟩ := ih h
        exact ⟨hkey, List.mem_cons_of_mem x hmem, hnew⟩
      · rename_i hk
        rcases List.mem_cons.mp h with rfl | h
        · exact ⟨hx, List.mem_cons_self, hk⟩
        · obtain ⟨hkey, hmem, hnew⟩ := ih h
          exact ⟨hkey, List.mem_cons_of_mem x hmem, fun hseen =>
            hnew (List.mem_cons_of_mem k hseen)⟩

theorem nodup_firsts (seen : List κ) (xs : List α) :
    ((firsts key seen xs).map Prod.fst).Nodup := by
  induction xs generalizing seen with
  | nil => exact List.nodup_nil
  | cons x xs ih =>
    rw [firsts]
    cases hx : key x with
    | none => exact ih seen
    | some k =>
      dsimp only
      split
      · exact ih seen
      · refine List.nodup_cons.mpr ⟨fun hmem => ?_, ih _⟩
        obtain ⟨e, he, hek⟩ := List.mem_map.mp hmem
        exact (mem_firsts he).2.2 (hek ▸ List.mem_cons_self)

/-- A key that an item has is the key of a first item. -/
theorem mem_keys_firsts {seen : List κ} {xs : List α} {k : κ} :
    k ∈ (firsts key seen xs).map Prod.fst ↔ k ∉ seen ∧ ∃ x ∈ xs, key x = some k := by
  induction xs generalizing seen with
  | nil => simp [firsts]
  | cons x xs ih =>
    rw [firsts, List.exists_mem_cons_iff]
    cases hx : key x with
    | none => simpa using ih
    | some j =>
      dsimp only
      rw [Option.some_inj]
      split
      · rename_i hj
        rw [ih]
        constructor
        · exact fun h => ⟨h.1, .inr h.2⟩
        · exact fun h => ⟨h.1, h.2.resolve_left fun heq => h.1 (heq ▸ hj)⟩
      · rename_i hj
        rw [List.map_cons, List.mem_cons, ih, List.mem_cons, not_or]
        constructor
        · rintro (rfl | ⟨⟨-, hk⟩, hx⟩)
          · exact ⟨hj, .inl rfl⟩
          · exact ⟨hk, .inr hx⟩
        · rintro ⟨hk, hor⟩
          by_cases heq : k = j
          · exact .inl heq
          · exact .inr ⟨⟨heq, hk⟩, hor.resolve_left (Ne.symm heq)⟩

/-- **The first item of a key** is what a search for the key finds. -/
theorem mem_firsts_iff {seen : List κ} {xs : List α} {e : κ × α} :
    e ∈ firsts key seen xs ↔
      e.1 ∉ seen ∧ (xs.find? fun x => key x = some e.1) = some e.2 := by
  induction xs generalizing seen with
  | nil => simp [firsts]
  | cons x xs ih =>
    rw [firsts, List.find?_cons]
    cases hx : key x with
    | none => exact ih
    | some k =>
      dsimp only
      by_cases hek : k = e.1
      · subst hek
        rw [decide_eq_true rfl]
        dsimp only
        split
        · rename_i hk
          exact ⟨fun hmem => absurd hk (mem_firsts hmem).2.2, fun h => absurd hk h.1⟩
        · rename_i hk
          rw [List.mem_cons, ih, Option.some_inj]
          constructor
          · rintro (heq | ⟨hnot, -⟩)
            · exact ⟨hk, (congrArg Prod.snd heq).symm⟩
            · exact absurd List.mem_cons_self hnot
          · rintro ⟨-, heq⟩
            exact .inl (Prod.ext rfl heq.symm)
      · rw [decide_eq_false (by rwa [Option.some_inj])]
        dsimp only
        split
        · exact ih
        · rw [List.mem_cons, ih, List.mem_cons, not_or]
          constructor
          · rintro (heq | ⟨⟨-, hseen⟩, hfind⟩)
            · exact absurd (congrArg Prod.fst heq).symm hek
            · exact ⟨hseen, hfind⟩
          · rintro ⟨hseen, hfind⟩
            exact .inr ⟨⟨Ne.symm hek, hseen⟩, hfind⟩

/-- The keys of the first items, in their order. -/
theorem map_fst_firsts (seen : List κ) (xs : List α) :
    (firsts key seen xs).map Prod.fst =
      ((xs.filterMap key).filter fun k => k ∉ seen).eraseDups := by
  induction xs generalizing seen with
  | nil => rfl
  | cons x xs ih =>
    rw [firsts]
    cases hx : key x with
    | none => rw [List.filterMap_cons_none hx, ← ih]
    | some k =>
      rw [List.filterMap_cons_some hx]
      dsimp only
      split
      · rename_i hk
        rw [List.filter_cons_of_neg (by simpa using hk), ← ih]
      · rename_i hk
        rw [List.filter_cons_of_pos (by simpa using hk), List.eraseDups_cons, List.map_cons, ih,
          List.filter_filter]
        refine congrArg _ (congrArg List.eraseDups (List.filter_congr fun j _ => ?_))
        rw [Bool.eq_iff_iff]
        simp [not_or]

theorem nodup_eraseDups (xs : List κ) : xs.eraseDups.Nodup := by
  have h := @map_fst_firsts _ _ _ some [] xs
  rw [List.filterMap_some, List.filter_eq_self.mpr (by simp)] at h
  exact h ▸ nodup_firsts [] xs

theorem eraseDups_of_nodup {xs : List κ} (h : xs.Nodup) : xs.eraseDups = xs := by
  induction xs with
  | nil => rfl
  | cons x xs ih =>
    obtain ⟨hx, hxs⟩ := List.nodup_cons.mp h
    rw [List.eraseDups_cons, List.filter_eq_self.mpr, ih hxs]
    intro y hy
    have hne : (y == x) = false := by
      rw [beq_eq_false_iff_ne]
      rintro rfl
      exact hx hy
    rw [hne]
    rfl

/-- A list gathered without repetition. -/
theorem foldl_append_new (p : κ → Bool) (xs gathered : List κ) :
    xs.foldl (fun gathered x => if p x = true ∧ x ∉ gathered then gathered ++ [x] else gathered)
        gathered =
      gathered ++ ((xs.filter p).filter fun x => x ∉ gathered).eraseDups := by
  induction xs generalizing gathered with
  | nil => simp
  | cons x xs ih =>
    rw [List.foldl_cons, ih]
    by_cases hp : p x = true
    · rw [List.filter_cons_of_pos hp]
      by_cases hmem : x ∈ gathered
      · rw [if_neg (by simp [hmem]), List.filter_cons_of_neg (by simpa using hmem)]
      · rw [if_pos ⟨hp, hmem⟩, List.filter_cons_of_pos (by simpa using hmem),
          List.eraseDups_cons, List.append_assoc, List.singleton_append, List.filter_filter]
        refine congrArg _ (congrArg _ (congrArg List.eraseDups ?_))
        rw [List.filter_filter, List.filter_filter]
        refine List.filter_congr fun y _ => ?_
        rw [Bool.eq_iff_iff]
        simp only [List.mem_append, List.mem_singleton, not_or, Bool.and_eq_true,
          decide_eq_true_eq, Bool.not_eq_true', beq_eq_false_iff_ne]
        tauto
    · rw [if_neg (by simp [hp]), List.filter_cons_of_neg hp]

theorem foldl_append_new_nil (p : κ → Bool) (xs : List κ) :
    xs.foldl (fun gathered x => if p x = true ∧ x ∉ gathered then gathered ++ [x] else gathered)
        [] = (xs.filter p).eraseDups := by
  rw [foldl_append_new, List.nil_append, List.filter_filter]
  simp

theorem others_sublist (f : κ → α → α) (seen : List κ) (xs : List α) :
    (others key seen xs).Sublist (changeFirsts key f seen xs) := by
  induction xs generalizing seen with
  | nil => exact List.Sublist.refl _
  | cons x xs ih =>
    rw [others, changeFirsts]
    cases key x with
    | none => exact (ih seen).cons_cons x
    | some k =>
      dsimp only
      split
      · exact (ih seen).cons_cons x
      · exact (ih _).cons _

/-- **A list of this kind is its other items and its changed first ones.** -/
theorem changeFirsts_perm (f : κ → α → α) (seen : List κ) (xs : List α) :
    (changeFirsts key f seen xs).Perm
      (others key seen xs ++ (firsts key seen xs).map fun e => f e.1 e.2) := by
  induction xs generalizing seen with
  | nil => exact List.Perm.refl _
  | cons x xs ih =>
    rw [changeFirsts, others, firsts]
    cases key x with
    | none => exact (ih seen).cons x
    | some k =>
      dsimp only
      split
      · exact (ih seen).cons x
      · exact ((ih _).cons _).trans List.perm_middle.symm

theorem mem_others_of_none {seen : List κ} {xs : List α} {x : α} (h : x ∈ xs) (hx : key x = none) :
    x ∈ others key seen xs := by
  have hperm := @changeFirsts_perm _ _ _ key (fun _ x => x) seen xs
  rw [changeFirsts_id] at hperm
  refine (List.mem_append.mp (hperm.mem_iff.mp h)).resolve_right fun hfirst => ?_
  obtain ⟨e, he, rfl⟩ := List.mem_map.mp hfirst
  rw [(mem_firsts he).1] at hx
  cases hx

theorem mem_of_mem_others {seen : List κ} {xs : List α} {x : α} (h : x ∈ others key seen xs) :
    x ∈ xs := by
  have hperm := @changeFirsts_perm _ _ _ key (fun _ x => x) seen xs
  rw [changeFirsts_id] at hperm
  exact hperm.mem_iff.mpr (List.mem_append_left _ h)

/-- A change of one key. -/
theorem changeFirst_eq (k : κ) (f : α → α) {seen : List κ} (hk : k ∉ seen) (xs : List α) :
    changeFirst (fun x => key x = some k) f xs =
      changeFirsts key (fun j x => if j = k then f x else x) seen xs := by
  induction xs generalizing seen with
  | nil => rfl
  | cons x xs ih =>
    rw [changeFirst]
    cases hx : key x with
    | none =>
      rw [changeFirsts_cons_none hx, if_neg (by simp), ih hk]
    | some j =>
      by_cases hj : j = k
      · subst hj
        rw [changeFirsts_cons_new hx hk, if_pos (by simp), if_pos rfl]
        -- no later item of the key is reached
        have hrest : changeFirsts key (fun i x => if i = j then f x else x) (j :: seen) xs = xs := by
          refine changeFirsts_eq_self fun e he => if_neg ?_
          rintro rfl
          exact (mem_firsts he).2.2 List.mem_cons_self
        rw [hrest]
      · rw [if_neg (by simpa using hj)]
        by_cases hseen : j ∈ seen
        · rw [changeFirsts_cons_seen hx hseen, ih hk]
        · have hk' : k ∉ j :: seen := by simp [Ne.symm hj, hk]
          rw [changeFirsts_cons_new hx hseen, if_neg hj, ih hk']

theorem changeFirst_of_none {p : α → Bool} {xs : List α} (h : ∀ x ∈ xs, p x = false) (f : α → α) :
    changeFirst p f xs = xs := by
  induction xs with
  | nil => rfl
  | cons x xs ih =>
    rw [changeFirst, if_neg (by simp [h x List.mem_cons_self]),
      ih fun y hy => h y (List.mem_cons_of_mem x hy)]

theorem changeFirst_append_left {p : α → Bool} {xs : List α} (h : ∃ x ∈ xs, p x = true)
    (f : α → α) (ys : List α) : changeFirst p f (xs ++ ys) = changeFirst p f xs ++ ys := by
  induction xs with
  | nil => exact absurd h (by simp)
  | cons x xs ih =>
    rw [List.cons_append, changeFirst, changeFirst]
    by_cases hx : p x = true
    · rw [if_pos hx, if_pos hx, List.cons_append]
    · rw [if_neg hx, if_neg hx, List.cons_append, ih]
      obtain ⟨y, hy, hpy⟩ := h
      exact ⟨y, (List.mem_cons.mp hy).resolve_left fun heq => hx (heq ▸ hpy), hpy⟩

theorem changeFirst_append_right {p : α → Bool} {xs : List α} (h : ∀ x ∈ xs, p x = false)
    (f : α → α) (ys : List α) : changeFirst p f (xs ++ ys) = xs ++ changeFirst p f ys := by
  induction xs with
  | nil => rfl
  | cons x xs ih =>
    rw [List.cons_append, changeFirst, if_neg (by simp [h x List.mem_cons_self]),
      ih fun y hy => h y (List.mem_cons_of_mem x hy), List.cons_append]

/-- Over a list with one item for each key. -/
theorem changeFirst_map {item : κ → α} {keys : List κ} (hitem : ∀ k ∈ keys, key (item k) = some k)
    (k : κ) (f : α → α) (hkeys : keys.Nodup) :
    changeFirst (fun x => key x = some k) f (keys.map item) =
      keys.map fun j => if j = k then f (item j) else item j := by
  induction keys with
  | nil => rfl
  | cons j keys ih =>
    obtain ⟨hj, hkeys⟩ := List.nodup_cons.mp hkeys
    have hlater := fun i hi => hitem i (List.mem_cons_of_mem j hi)
    rw [List.map_cons, changeFirst, List.map_cons, hitem j List.mem_cons_self]
    by_cases heq : j = k
    · subst heq
      rw [if_pos (by simp), if_pos rfl]
      refine congrArg _ (List.map_congr_left fun i hi => (if_neg ?_).symm)
      rintro rfl
      exact hj hi
    · rw [if_neg (by simp [heq]), if_neg heq, ih hlater hkeys]

/-- The keys stay where they are. -/
theorem map_key_changeFirsts {f : κ → α → α} (hf : ∀ k x, key x = some k → key (f k x) = some k)
    (seen : List κ) (xs : List α) : (changeFirsts key f seen xs).map key = xs.map key := by
  induction xs generalizing seen with
  | nil => rfl
  | cons x xs ih =>
    cases hx : key x with
    | none => rw [changeFirsts_cons_none hx, List.map_cons, List.map_cons, ih]
    | some k =>
      by_cases hk : k ∈ seen
      · rw [changeFirsts_cons_seen hx hk, List.map_cons, List.map_cons, ih]
      · rw [changeFirsts_cons_new hx hk, List.map_cons, List.map_cons, ih, hf k x hx, hx]

/-! ## One item for each key -/

/-- The first items changed, and an item made for each key that none has. -/
def firstsAndMade (key : α → Option κ) (f : κ → α → α) (item : κ → α) (keys : List κ)
    (xs : List α) : List α :=
  changeFirsts key f [] xs ++ (keys.filter fun k => xs.all fun x => key x ≠ some k).map item

theorem any_changeFirsts {f : κ → α → α} (hf : ∀ k x, key x = some k → key (f k x) = some k)
    (k : κ) (xs : List α) :
    ((changeFirsts key f [] xs).any fun x => key x = some k) = xs.any fun x => key x = some k := by
  have hmap := congrArg (fun l => l.any fun o => decide (o = some k))
    (map_key_changeFirsts hf [] xs)
  rw [List.any_map, List.any_map] at hmap
  exact hmap

/-- **A change of one key** of a list of this form. -/
theorem changeFirst_firstsAndMade {f : κ → α → α} {item : κ → α} {keys : List κ} {xs : List α}
    (hf : ∀ k x, key x = some k → key (f k x) = some k)
    (hitem : ∀ k ∈ keys, key (item k) = some k) (hkeys : keys.Nodup) (k : κ) (g : α → α) :
    changeFirst (fun x => key x = some k) g (firstsAndMade key f item keys xs) =
      firstsAndMade key (fun j x => if j = k then g (f j x) else f j x)
        (fun j => if j = k then g (item j) else item j) keys xs := by
  unfold firstsAndMade
  by_cases hany : (xs.any fun x => key x = some k) = true
  · have hany' := (any_changeFirsts hf k xs).trans hany
    rw [changeFirst_append_left (List.any_eq_true.mp hany'), changeFirst_eq k g List.not_mem_nil,
      changeFirsts_changeFirsts _ hf]
    refine congrArg _ (List.map_congr_left fun j hj => (if_neg ?_).symm)
    rintro rfl
    obtain ⟨x, hx, hxj⟩ := List.any_eq_true.mp hany
    exact of_decide_eq_true (List.all_eq_true.mp (List.mem_filter.mp hj).2 x hx)
      (of_decide_eq_true hxj)
  · have hnone : ∀ x ∈ changeFirsts key f [] xs, decide (key x = some k) = false := by
      intro x hx
      by_contra hkey
      apply hany
      rw [← any_changeFirsts hf k xs]
      exact List.any_eq_true.mpr ⟨x, hx, (Bool.not_eq_false _).mp hkey⟩
    rw [changeFirst_append_right hnone,
      changeFirst_map (fun j hj => hitem j (List.mem_of_mem_filter hj)) k g (hkeys.filter _)]
    refine congrArg (· ++ _) (changeFirsts_congr fun e he => (if_neg ?_).symm)
    rintro rfl
    obtain ⟨hkey, hmem, -⟩ := mem_firsts he
    exact hany (List.any_eq_true.mpr ⟨e.2, hmem, by simpa using hkey⟩)

/-- **One key more**: its first item is changed, or one is made. -/
theorem firstsAndMade_append {f : κ → α → α} {item : κ → α} {keys : List κ} {xs : List α}
    (hf : ∀ k x, key x = some k → key (f k x) = some k)
    (hitem : ∀ k ∈ keys, key (item k) = some k) (hkeys : keys.Nodup) {k : κ} (hk : k ∉ keys)
    (g : α → α) :
    (if (firstsAndMade key f item keys xs).any fun x => key x = some k then
        changeFirst (fun x => key x = some k) g (firstsAndMade key f item keys xs)
      else firstsAndMade key f item keys xs ++ [item k]) =
      firstsAndMade key (fun j x => if j = k then g (f j x) else f j x) item (keys ++ [k]) xs := by
  have hmade : ((keys.filter fun k => xs.all fun x => key x ≠ some k).map item).any
      (fun x => key x = some k) = false := by
    rw [Bool.eq_false_iff]
    intro hany
    obtain ⟨x, hx, hkey⟩ := List.any_eq_true.mp hany
    obtain ⟨j, hj, rfl⟩ := List.mem_map.mp hx
    have hmem := List.mem_of_mem_filter hj
    rw [hitem j hmem, decide_eq_true_eq, Option.some_inj] at hkey
    exact hk (hkey ▸ hmem)
  have hany : ((firstsAndMade key f item keys xs).any fun x => key x = some k) =
      xs.any fun x => key x = some k := by
    unfold firstsAndMade
    rw [List.any_append, hmade, Bool.or_false, any_changeFirsts hf]
  rw [hany]
  split
  · rename_i hsome
    have hlast : (xs.all fun x => key x ≠ some k) = false := by
      obtain ⟨x, hx, hkey⟩ := List.any_eq_true.mp hsome
      rw [Bool.eq_false_iff]
      intro hall
      exact of_decide_eq_true (List.all_eq_true.mp hall x hx) (of_decide_eq_true hkey)
    rw [changeFirst_firstsAndMade hf hitem hkeys]
    unfold firstsAndMade
    rw [List.filter_append, List.filter_cons_of_neg (by rw [hlast]; decide), List.filter_nil,
      List.append_nil]
    refine congrArg _ (List.map_congr_left fun j hj => if_neg ?_)
    rintro rfl
    exact hk (List.mem_of_mem_filter hj)
  · rename_i hnone
    have hlast : (xs.all fun x => key x ≠ some k) = true := by
      rw [List.all_eq_true]
      intro x hx
      rw [decide_eq_true_eq]
      exact fun hkey => hnone (List.any_eq_true.mpr ⟨x, hx, by simpa using hkey⟩)
    unfold firstsAndMade
    rw [List.filter_append, List.filter_cons_of_pos (by exact hlast), List.filter_nil,
      List.map_append, List.map_cons, List.map_nil, List.append_assoc]
    refine congrArg (· ++ _) (changeFirsts_congr fun e he => (if_neg ?_).symm)
    rintro rfl
    obtain ⟨hkey, hmem, -⟩ := mem_firsts he
    exact hnone (List.any_eq_true.mpr ⟨e.2, hmem, by simpa using hkey⟩)

end Throned.Library
