import Mathlib.Data.List.Lex
import Throned.Library.Text

/-!
# The units of a text

A `QString` compares by its UTF-16 units, which determine the text.
-/

set_option autoImplicit false

namespace Throned.Library

/-- The UTF-16 units of a character. -/
def charUnits (c : Char) : List ℕ :=
  if c.toNat < 0x10000 then [c.toNat]
  else [0xd800 + (c.toNat - 0x10000) / 0x400, 0xdc00 + (c.toNat - 0x10000) % 0x400]

def utf16 (text : Text) : List ℕ := text.flatMap charUnits

/-- No character is a surrogate. -/
theorem toNat_not_surrogate (c : Char) : c.toNat < 0xd800 ∨ 0xe000 ≤ c.toNat ∧ c.toNat < 0x110000 := by
  have hvalid : c.val.toNat < 0xd800 ∨ 0xdfff < c.val.toNat ∧ c.val.toNat < 0x110000 := c.valid
  unfold Char.toNat
  omega

/-- The first units tell the characters apart. -/
theorem charUnits_append_inj {c d : Char} {r s : List ℕ}
    (h : charUnits c ++ r = charUnits d ++ s) : c = d ∧ r = s := by
  have hc := toNat_not_surrogate c
  have hd := toNat_not_surrogate d
  unfold charUnits at h
  have hsame : c.toNat = d.toNat ∧ r = s := by
    split at h
    · split at h
      · simp only [List.cons_append, List.nil_append, List.cons.injEq] at h
        exact h
      · simp only [List.cons_append, List.nil_append, List.cons.injEq] at h
        omega
    · split at h
      · simp only [List.cons_append, List.nil_append, List.cons.injEq] at h
        omega
      · simp only [List.cons_append, List.nil_append, List.cons.injEq] at h
        obtain ⟨hhigh, hlow, hrest⟩ := h
        exact ⟨by omega, hrest⟩
  exact ⟨Char.toNat_inj.mp hsame.1, hsame.2⟩

theorem charUnits_ne_nil (c : Char) : charUnits c ≠ [] := by
  unfold charUnits
  split
  · exact List.cons_ne_nil _ _
  · exact List.cons_ne_nil _ _

/-- **A text is its units.** -/
theorem utf16_inj {s t : Text} (h : utf16 s = utf16 t) : s = t := by
  induction s generalizing t with
  | nil =>
    cases t with
    | nil => rfl
    | cons d t =>
      have hempty := (List.append_eq_nil_iff.mp h.symm).1
      exact absurd hempty (charUnits_ne_nil d)
  | cons c s ih =>
    cases t with
    | nil =>
      have hempty := (List.append_eq_nil_iff.mp h).1
      exact absurd hempty (charUnits_ne_nil c)
    | cons d t =>
      obtain ⟨rfl, hrest⟩ := charUnits_append_inj h
      rw [ih hrest]

end Throned.Library
