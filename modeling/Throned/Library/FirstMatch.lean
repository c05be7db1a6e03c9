import Mathlib.Data.List.Basic

/-!
# Rule lists

The first rule whose conditions a query meets decides it.  Decisions that are renamed in the
rules are renamed in the answers, whatever the conditions mean.
-/

set_option autoImplicit false

namespace Throned.Library

variable {κ δ δ' : Type*}

structure Rule (κ δ : Type*) where
  conditions : κ
  decision : δ
  deriving DecidableEq, Repr

namespace Rule

def map (f : δ → δ') (rule : Rule κ δ) : Rule κ δ' := ⟨rule.conditions, f rule.decision⟩

@[simp] theorem map_mk (f : δ → δ') (conditions : κ) (decision : δ) :
    map f ⟨conditions, decision⟩ = ⟨conditions, f decision⟩ := rfl

/-- What the list decides on a query that meets the conditions `holds`. -/
def answer (holds : κ → Bool) (rules : List (Rule κ δ)) : Option δ :=
  (rules.find? fun rule => holds rule.conditions).map Rule.decision

theorem answer_map (holds : κ → Bool) (f : δ → δ') (rules : List (Rule κ δ)) :
    answer holds (rules.map (map f)) = (answer holds rules).map f := by
  unfold answer
  rw [List.find?_map, Option.map_map, Option.map_map]
  rfl

end Rule

end Throned.Library
