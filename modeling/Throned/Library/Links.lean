import Mathlib.Data.List.Basic
import Mathlib.Data.List.Nodup

/-!
# Linked nodes

Nodes of a table with a name each, some of which lead on to another one by its name.  A path is
what a walk along the links visits, and the name that it stops at.
-/

set_option autoImplicit false

namespace Throned.Library

variable {α κ : Type} [DecidableEq κ]

/-- How the nodes of a table are named, and where they lead. -/
structure Links (α κ : Type) where
  name : α → Option κ
  next : α → Option κ

namespace Links

variable (links : Links α κ) (nodes : List α)

/-- The first node of a name. -/
def node (t : κ) : Option α := nodes.find? fun a => links.name a = some t

/-- A walk from a name visits the nodes of the list, and leaves the last one for `exit`. -/
inductive Path : κ → List α → Option κ → Prop where
  | last {t : κ} {a : α} (ha : links.node nodes t = some a) : Path t [a] (links.next a)
  | step {t u : κ} {a : α} {visited : List α} {exit : Option κ}
      (ha : links.node nodes t = some a) (hnext : links.next a = some u)
      (hrest : Path u visited exit) : Path t (a :: visited) exit

variable {links nodes}

theorem Path.ne_nil {t : κ} {visited : List α} {exit : Option κ}
    (h : links.Path nodes t visited exit) : visited ≠ [] := by
  cases h <;> simp

/-- What a walk of a length visits is determined. -/
theorem Path.unique {t : κ} {as bs : List α} {e e' : Option κ} (ha : links.Path nodes t as e)
    (hb : links.Path nodes t bs e') (hlength : as.length = bs.length) : as = bs ∧ e = e' := by
  induction ha generalizing bs with
  | last ha =>
    cases hb with
    | last hb =>
      rw [ha] at hb
      cases hb
      exact ⟨rfl, rfl⟩
    | step _ _ hrest =>
      have hlen := List.length_pos_of_ne_nil hrest.ne_nil
      simp only [List.length_cons, List.length_nil] at hlength
      omega
  | step ha hnext hrest ih =>
    cases hb with
    | last hb =>
      have hlen := List.length_pos_of_ne_nil hrest.ne_nil
      simp only [List.length_cons, List.length_nil] at hlength
      omega
    | step hb hnext' hrest' =>
      rw [ha] at hb
      cases hb
      rw [hnext] at hnext'
      cases hnext'
      obtain ⟨rfl, rfl⟩ := ih hrest' (by simpa using hlength)
      exact ⟨rfl, rfl⟩

/-- With names of their own the nodes are found by them. -/
theorem node_of_mem {t : κ} {a : α} (hnodup : (nodes.map links.name).Nodup) (hmem : a ∈ nodes)
    (hname : links.name a = some t) : links.node nodes t = some a := by
  induction nodes with
  | nil => exact absurd hmem List.not_mem_nil
  | cons b rest ih =>
    rw [List.map_cons, List.nodup_cons] at hnodup
    unfold node
    rw [List.find?_cons]
    obtain rfl | hrest := List.mem_cons.mp hmem
    · rw [decide_eq_true hname]
    · have hother : links.name b ≠ some t := by
        intro hsame
        exact hnodup.1 (List.mem_map.mpr ⟨a, hrest, hname.trans hsame.symm⟩)
      rw [decide_eq_false hother]
      exact ih hnodup.2 hrest

/-- A row of nodes, each of which leads to the name of the next one. -/
inductive Row (links : Links α κ) : κ → List α → Option κ → Prop where
  | last {t : κ} {a : α} (hname : links.name a = some t) : Row links t [a] (links.next a)
  | step {t u : κ} {a : α} {rest : List α} {exit : Option κ} (hname : links.name a = some t)
      (hnext : links.next a = some u) (hrest : Row links u rest exit) :
      Row links t (a :: rest) exit

/-- **A row is walked from end to end**, wherever its nodes stand. -/
theorem Row.path {t : κ} {row : List α} {exit : Option κ} (h : links.Row t row exit)
    (hnodup : (nodes.map links.name).Nodup) (hmem : ∀ a ∈ row, a ∈ nodes) :
    links.Path nodes t row exit := by
  induction h with
  | last hname => exact .last (node_of_mem hnodup (hmem _ List.mem_cons_self) hname)
  | step hname hnext _ ih =>
    rw [List.forall_mem_cons] at hmem
    exact .step (node_of_mem hnodup hmem.1 hname) hnext (ih hmem.2)

end Links

end Throned.Library
