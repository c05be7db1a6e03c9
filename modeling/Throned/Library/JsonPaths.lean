import Mathlib.Tactic.Common
import Throned.Library.Json

/-!
# Places in a JSON value

A place is named by the steps that lead to it.  A value is known by its shape at every place, so a
function that rewrites some members and keeps the rest is described place by place.
-/

set_option autoImplicit false

namespace Throned.Library

namespace Json

/-- Everything that holds of a value where it holds of its parts. -/
@[elab_as_elim]
theorem parts_induction {motive : Json → Prop} (null : motive .null) (bool : ∀ b, motive (.bool b))
    (num : ∀ n, motive (.num n)) (double : ∀ x, motive (.double x)) (str : ∀ t, motive (.str t))
    (arr : ∀ items, (∀ v ∈ items, motive v) → motive (.arr items))
    (obj : ∀ members, (∀ m ∈ members, motive m.2) → motive (.obj members)) (j : Json) :
    motive j :=
  @Json.rec motive (fun items => ∀ v ∈ items, motive v) (fun members => ∀ m ∈ members, motive m.2)
    (fun m => motive m.2) null bool num double str arr obj (fun _ hv => absurd hv List.not_mem_nil)
    (fun _ _ hhead htail v hv => (List.mem_cons.mp hv).elim (fun h => h ▸ hhead) (htail v))
    (fun _ hm => absurd hm List.not_mem_nil)
    (fun _ _ hhead htail m hm => (List.mem_cons.mp hm).elim (fun h => h ▸ hhead) (htail m))
    (fun _ _ hvalue => hvalue) j

/-- To an item, or to a member with its key. -/
inductive Step where
  | item (i : ℕ)
  | member (i : ℕ) (key : String)
  deriving DecidableEq, Repr

def child : Json → Step → Option Json
  | .arr items, .item i => items[i]?
  | .obj members, .member i key => (members[i]?.filter fun m => m.1 = key).map Prod.snd
  | _, _ => none

/-- The value at a place. -/
def valueAt (j : Json) : List Step → Option Json
  | [] => some j
  | s :: p => (j.child s).bind fun v => v.valueAt p

/-- What a value is, without what its items and members hold. -/
def shape : Json → Json
  | .arr items => .arr (items.map fun _ => .null)
  | .obj members => .obj (members.map fun m => (m.1, .null))
  | j => j

/-- A value that holds no others. -/
def isScalar : Json → Bool
  | .arr _ => false
  | .obj _ => false
  | _ => true

theorem child_of_isScalar {j : Json} (h : j.isScalar = true) (s : Step) : j.child s = none := by
  cases j with
  | arr | obj => cases h
  | null | bool | num | double | str => cases s <;> rfl

theorem shape_of_isScalar {j : Json} (h : j.isScalar = true) : j.shape = j := by
  cases j with
  | arr | obj => cases h
  | null | bool | num | double | str => rfl

/-- A function of the members with their keys. -/
theorem child_map_members (f : String → Json → Json) (members : JsonObject) (i : ℕ)
    (key : String) :
    (Json.obj (members.map fun m => (m.1, f m.1 m.2))).child (.member i key) =
      ((Json.obj members).child (.member i key)).map (f key) := by
  simp only [child, List.getElem?_map]
  cases members[i]? with
  | none => rfl
  | some m =>
    by_cases hkey : m.1 = key
    · simp [Option.filter, hkey]
    · simp [Option.filter, hkey]

section Rewrites

/-- The values of a kind at places of a kind, which are scalars. -/
structure Targets where
  isTarget : Step → Json → Bool
  scalar : ∀ s v, isTarget s v = true → v.isScalar = true
  shape : ∀ s v w, v.shape = w.shape → isTarget s v = isTarget s w

variable (targets : Targets)

/-- The target at a place. -/
def targetAt (j : Json) : List Step → Option Json
  | [] => none
  | s :: p =>
    (j.child s).bind fun v =>
      if p = [] ∧ targets.isTarget s v = true then some v else v.targetAt p

/-- A function that puts scalars in the place of the targets and keeps the rest. -/
structure Rewrites (f g : Json → Json) : Prop where
  scalar : ∀ v, (f v).isScalar = true
  shape : ∀ j, (g j).shape = j.shape
  child : ∀ j s, (g j).child s =
    (j.child s).map fun v => if targets.isTarget s v = true then f v else g v

variable {targets} {f g : Json → Json}

theorem targetAt_of_isScalar {j : Json} (h : j.isScalar = true) (p : List Step) :
    j.targetAt targets p = none := by
  cases p with
  | nil => rfl
  | cons s p => rw [targetAt, child_of_isScalar h, Option.bind_none]

theorem valueAt_cons_of_isScalar {j : Json} (h : j.isScalar = true) (s : Step) (p : List Step) :
    j.valueAt (s :: p) = none := by
  rw [valueAt, child_of_isScalar h, Option.bind_none]

/-- **What a rewrite leaves at every place.** -/
theorem Rewrites.shapeAt (h : Rewrites targets f g) (p : List Step) (j : Json) :
    ((g j).valueAt p).map Json.shape =
      match j.targetAt targets p with
      | some v => some (f v)
      | none => (j.valueAt p).map Json.shape := by
  induction p generalizing j with
  | nil =>
    rw [targetAt]
    exact congrArg some (h.shape j)
  | cons s p ih =>
    rw [valueAt, valueAt, targetAt, h.child]
    cases hv : j.child s with
    | none => rfl
    | some v =>
      simp only [Option.map_some, Option.bind_some]
      by_cases htarget : targets.isTarget s v = true
      · have hscalar := targets.scalar s v htarget
        rw [if_pos htarget]
        cases p with
        | nil =>
          rw [if_pos ⟨rfl, htarget⟩]
          exact congrArg some (shape_of_isScalar (h.scalar v))
        | cons s' p =>
          rw [if_neg (fun hp => List.cons_ne_nil _ _ hp.1), targetAt_of_isScalar hscalar,
            valueAt_cons_of_isScalar hscalar, valueAt_cons_of_isScalar (h.scalar v)]
      · rw [if_neg htarget, if_neg (fun hp => htarget hp.2)]
        exact ih v

/-- **Where the targets are behind a rewrite**: at the places they were at, or nowhere. -/
theorem Rewrites.targetAt (h : Rewrites targets f g) (keeps : Bool)
    (hkeeps : ∀ s v, targets.isTarget s v = true → targets.isTarget s (f v) = keeps)
    (p : List Step) (j : Json) :
    (g j).targetAt targets p = if keeps = true then (j.targetAt targets p).map f else none := by
  induction p generalizing j with
  | nil => exact (ite_self none).symm
  | cons s p ih =>
    rw [Json.targetAt, Json.targetAt, h.child]
    cases hv : j.child s with
    | none => exact (ite_self none).symm
    | some v =>
      simp only [Option.map_some, Option.bind_some]
      by_cases htarget : targets.isTarget s v = true
      · rw [if_pos htarget, hkeeps s v htarget, targetAt_of_isScalar (targets.scalar s v htarget),
          targetAt_of_isScalar (h.scalar v)]
        cases p with
        | nil => cases keeps <;> simp [htarget]
        | cons s' p => cases keeps <;> simp
      · have hother : targets.isTarget s (g v) = false := by
          rw [targets.shape s (g v) v (h.shape v)]
          exact Bool.eq_false_iff.mpr htarget
        rw [if_neg htarget, hother]
        simp only [Bool.false_eq_true, and_false, if_false, htarget]
        exact ih v

end Rewrites

end Json

end Throned.Library
