import Mathlib.Data.Rat.Defs
import Throned.Library.Text

/-!
# JSON values

An object is the list of its members.  Objects are built from members that are there on a
condition, so what keys an object has is read off its parts.
-/

set_option autoImplicit false

namespace Throned.Library

inductive Json where
  | null
  | bool (b : Bool)
  /-- A number that is held as an integer. -/
  | num (n : ℤ)
  /-- A number that is held as a double. -/
  | double (x : ℚ)
  | str (t : Text)
  | arr (items : List Json)
  | obj (members : List (String × Json))

abbrev JsonObject := List (String × Json)

namespace JsonObject

def keys (object : JsonObject) : List String := object.map Prod.fst

/-- A member that is there on a condition. -/
def member (c : Prop) [Decidable c] (key : String) (value : Json) : JsonObject :=
  if c then [(key, value)] else []

@[simp] theorem keys_nil : keys [] = [] := rfl

@[simp] theorem keys_append (a b : JsonObject) : keys (a ++ b) = keys a ++ keys b :=
  List.map_append

@[simp] theorem keys_cons (key : String) (value : Json) (rest : JsonObject) :
    keys ((key, value) :: rest) = key :: keys rest := rfl

@[simp] theorem mem_keys_member {c : Prop} [Decidable c] {key k : String} {value : Json} :
    k ∈ keys (member c key value) ↔ c ∧ k = key := by
  unfold member
  split <;> simp_all [keys]

@[simp] theorem member_of_not {c : Prop} [Decidable c] (h : ¬ c) (key : String) (value : Json) :
    member c key value = [] := if_neg h

/-! ### Members by key -/

def contains (object : JsonObject) (key : String) : Bool := (object.lookup key).isSome

/-- A member in the place of the one with its key, or a new one. -/
def insert (object : JsonObject) (key : String) (value : Json) : JsonObject :=
  if contains object key then object.map fun m => if m.1 = key then (key, value) else m
  else object ++ [(key, value)]

def insertIf (c : Prop) [Decidable c] (object : JsonObject) (key : String) (value : Json) :
    JsonObject :=
  if c then insert object key value else object

def remove (object : JsonObject) (key : String) : JsonObject := object.filter fun m => m.1 ≠ key

/-- The members of another object are put in. -/
def merge (object other : JsonObject) : JsonObject :=
  other.foldl (fun object m => insert object m.1 m.2) object

@[simp] theorem lookup_member {c : Prop} [Decidable c] (key k : String) (value : Json) :
    (member c key value).lookup k = if c ∧ k = key then some value else none := by
  unfold member
  by_cases hc : c
  · by_cases hk : k = key
    · simp [hc, hk]
    · rw [if_pos hc, if_neg (by simp [hk]), List.lookup_cons, beq_false_of_ne hk]
      rfl
  · simp [hc]

theorem lookup_map_replace (object : JsonObject) (key k : String) (value : Json) :
    (object.map fun m => if m.1 = key then (key, value) else m).lookup k =
      if k = key then (object.lookup k).map fun _ => value else object.lookup k := by
  induction object with
  | nil => simp
  | cons m object ih =>
    obtain ⟨j, v⟩ := m
    rw [List.map_cons]
    by_cases hj : j = key
    · subst hj
      rw [if_pos rfl, List.lookup_cons, List.lookup_cons]
      by_cases hk : k = j
      · simp [hk]
      · rw [beq_false_of_ne hk]
        exact ih
    · rw [if_neg hj, List.lookup_cons, List.lookup_cons]
      by_cases hk : k = j
      · have hne : k ≠ key := hk ▸ hj
        simp [hk, hj]
      · rw [beq_false_of_ne hk]
        exact ih

@[simp] theorem lookup_insert (object : JsonObject) (key k : String) (value : Json) :
    (insert object key value).lookup k = if k = key then some value else object.lookup k := by
  unfold insert contains
  by_cases hsome : (object.lookup key).isSome = true
  · rw [if_pos hsome, lookup_map_replace]
    by_cases hk : k = key
    · subst hk
      obtain ⟨v, hv⟩ := Option.isSome_iff_exists.mp hsome
      rw [if_pos rfl, if_pos rfl, hv]
      rfl
    · rw [if_neg hk, if_neg hk]
  · rw [if_neg hsome, List.lookup_append]
    by_cases hk : k = key
    · subst hk
      rw [Option.not_isSome_iff_eq_none.mp hsome]
      simp
    · rw [if_neg hk, List.lookup_cons, beq_false_of_ne hk]
      simp

@[simp] theorem lookup_insertIf {c : Prop} [Decidable c] (object : JsonObject) (key k : String)
    (value : Json) :
    (insertIf c object key value).lookup k =
      if c ∧ k = key then some value else object.lookup k := by
  unfold insertIf
  by_cases hc : c
  · simp [hc]
  · simp [hc]

theorem lookup_remove (object : JsonObject) (key k : String) :
    (remove object key).lookup k = if k = key then none else object.lookup k := by
  unfold remove
  induction object with
  | nil => simp
  | cons m object ih =>
    obtain ⟨j, v⟩ := m
    by_cases hj : j = key
    · rw [List.filter_cons_of_neg (by simp [hj]), ih, List.lookup_cons]
      by_cases hk : k = key
      · rw [if_pos hk, if_pos hk]
      · rw [if_neg hk, if_neg hk, beq_false_of_ne (hj ▸ hk)]
    · rw [List.filter_cons_of_pos (by simp [hj]), List.lookup_cons, List.lookup_cons, ih]
      by_cases hk : k = j
      · simp [hk, hj]
      · rw [beq_false_of_ne hk]

theorem lookup_merge_of_notMem (other : JsonObject) {key : String} (h : key ∉ keys other) :
    ∀ object : JsonObject, (merge object other).lookup key = object.lookup key := by
  unfold merge
  induction other with
  | nil => exact fun object => rfl
  | cons m other ih =>
    intro object
    rw [keys_cons, List.mem_cons, not_or] at h
    rw [List.foldl_cons, ih h.2, lookup_insert, if_neg h.1]

end JsonObject

end Throned.Library
