import Throned.Library.Utf8Runes

/-!
# Texts mapped rune by rune

A rune may change its length when it is mapped, so a position in a mapped text is none of the text
itself.  `cutMapped` cuts the text where the mapped text has what is looked for; `indexOf` finds
the length of what stands before, mapped.
-/

set_option autoImplicit false

namespace Throned.Library

variable (f : Char → Char)

/-- The text of some runes after each has been mapped. -/
def mapRunes (rs : List Rune) : ByteText := rs.flatMap fun r => String.utf8EncodeChar (f r.value)

def mapText (s : ByteText) : ByteText := mapRunes f (runes s)

@[simp] theorem mapRunes_cons (r : Rune) (rs : List Rune) :
    mapRunes f (r :: rs) = String.utf8EncodeChar (f r.value) ++ mapRunes f rs := rfl

@[simp] theorem mapRunes_append (l r : List Rune) :
    mapRunes f (l ++ r) = mapRunes f l ++ mapRunes f r :=
  List.flatMap_append

/-- A text of ASCII is mapped apart from what follows it. -/
theorem mapText_ascii_append {s : ByteText} (h : ∀ b ∈ s, b.toNat < 128) (rest : ByteText) :
    mapText f (s ++ rest) = mapText f s ++ mapText f rest := by
  induction s with
  | nil => rfl
  | cons b s ih =>
    have hb := h b (by simp)
    have hrest := ih fun x hx => h x (List.mem_cons_of_mem _ hx)
    unfold mapText at hrest ⊢
    rw [List.cons_append, runes_ascii_cons hb, runes_ascii_cons hb, mapRunes_cons, mapRunes_cons,
      hrest, List.append_assoc]

/-- **A word of ASCII parts a text**: what stands around it is mapped apart. -/
theorem mapText_append_ascii {s : ByteText} (hne : s ≠ []) (h : ∀ b ∈ s, b.toNat < 128)
    (l rest : ByteText) :
    mapText f (l ++ s ++ rest) = mapText f l ++ mapText f s ++ mapText f rest := by
  have hword := mapText_ascii_append f h rest
  cases s with
  | nil => exact absurd rfl hne
  | cons b s =>
    rw [List.append_assoc, List.append_assoc, ← hword]
    unfold mapText
    rw [List.cons_append, runes_append (h b (by simp)), mapRunes_append]

/-- What stands before and from where the mapped text starts with `word`. -/
def cutMapped (word : ByteText) : List Rune → Option (List Rune × List Rune)
  | [] => if word = [] then some ([], []) else none
  | r :: rs =>
    if word <+: mapRunes f (r :: rs) then some ([], r :: rs)
    else (cutMapped word rs).map fun (before, after) => (r :: before, after)

/-- A cut is a cut of the text, and the word stands behind it. -/
theorem cutMapped_spec {word : ByteText} {rs before after : List Rune}
    (h : cutMapped f word rs = some (before, after)) :
    rs = before ++ after ∧ word <+: mapRunes f after := by
  induction rs generalizing before with
  | nil =>
    unfold cutMapped at h
    split at h
    next hword =>
      simp only [Option.some.injEq, Prod.mk.injEq] at h
      rw [← h.1, ← h.2, hword]
      exact ⟨rfl, List.nil_prefix⟩
    next => simp at h
  | cons r rs ih =>
    unfold cutMapped at h
    split at h
    next hstarts =>
      simp only [Option.some.injEq, Prod.mk.injEq] at h
      rw [← h.1, ← h.2]
      exact ⟨rfl, hstarts⟩
    next =>
      obtain ⟨⟨before', after'⟩, hcut, heq⟩ := Option.map_eq_some_iff.mp h
      simp only [Prod.mk.injEq] at heq
      rw [heq.2] at hcut
      obtain ⟨hrs, hword⟩ := ih hcut
      rw [← heq.1, hrs]
      exact ⟨rfl, hword⟩

/-- **Positions in a mapped text.** A word that starts with ASCII is found at the length of what
stands before it, mapped. -/
theorem indexOf_mapRunes {a : UInt8} (ha : a.toNat < 128) (word : ByteText) (rs : List Rune) :
    indexOf (a :: word) (mapRunes f rs) =
      (cutMapped f (a :: word) rs).map fun cut => (mapRunes f cut.1).length := by
  induction rs with
  | nil => simp [mapRunes, indexOf, cutMapped]
  | cons r rs ih =>
    by_cases hstarts : a :: word <+: mapRunes f (r :: rs)
    · rw [indexOf_of_isPrefix hstarts, cutMapped, if_pos hstarts]
      rfl
    · have hskip : indexOf (a :: word) (mapRunes f (r :: rs)) =
          (indexOf (a :: word) (mapRunes f rs)).map
            (· + (String.utf8EncodeChar (f r.value)).length) := by
        rw [mapRunes_cons] at hstarts ⊢
        refine indexOf_append fun i hi => ?_
        rcases utf8EncodeChar_cases (f r.value) with ⟨-, heq⟩ | ⟨-, hall⟩
        · obtain rfl : i = 0 := by
            rw [heq, List.length_singleton] at hi
            omega
          exact hstarts
        · rw [List.drop_append_of_le_length hi.le, List.drop_eq_getElem_cons hi,
            List.cons_append, List.cons_prefix_cons]
          rintro ⟨rfl, -⟩
          have hge := hall _ (List.getElem_mem hi)
          omega
      rw [hskip, ih, cutMapped, if_neg hstarts, Option.map_map, Option.map_map]
      congr 1
      funext cut
      simp only [Function.comp_apply, mapRunes_cons, List.length_append]
      omega

/-! ## Words that lack a byte -/

/-- A word that lacks a byte stands before it or behind it. -/
theorem infix_of_notMem {α : Type*} {x : α} {word l r : List α} (hx : x ∉ word)
    (h : word <:+: l ++ x :: r) : word <:+: l ∨ word <:+: r := by
  obtain ⟨s, t, heq⟩ := h
  rw [List.append_assoc, List.append_eq_append_iff] at heq
  rcases heq with ⟨a, rfl, heq⟩ | ⟨c, rfl, heq⟩
  · rw [List.append_eq_append_iff] at heq
    rcases heq with ⟨b, rfl, -⟩ | ⟨b, rfl, heq⟩
    · exact Or.inl ⟨s, b, by simp⟩
    · cases b with
      | nil => exact Or.inl ⟨s, [], by simp⟩
      | cons y b =>
        rw [List.cons_append, List.cons.injEq] at heq
        exact absurd (by simp [heq.1]) hx
  · cases c with
    | nil =>
      cases word with
      | nil => exact Or.inl List.nil_infix
      | cons y word =>
        simp only [List.nil_append, List.cons_append, List.cons.injEq] at heq
        exact absurd (by simp [heq.1]) hx
    | cons y c =>
      rw [List.cons_append, List.cons.injEq] at heq
      exact Or.inr ⟨c, t, by rw [heq.2, List.append_assoc]⟩

theorem infix_of_head {α : Type*} {x : α} {word s : List α} (hx : word.head? ≠ some x)
    (h : word <:+: x :: s) : word <:+: s := by
  rcases List.infix_cons_iff.mp h with hstarts | hin
  · cases word with
    | nil => exact List.nil_infix
    | cons y word =>
      rw [List.cons_prefix_cons] at hstarts
      exact absurd (by rw [List.head?_cons, hstarts.1]) hx
  · exact hin

theorem infix_of_getLast {α : Type*} {x : α} {word s : List α} (hx : word.getLast? ≠ some x)
    (h : word <:+: s ++ [x]) : word <:+: s := by
  rcases List.infix_concat_iff.mp h with hsuffix | hin
  · rcases List.suffix_concat_iff.mp hsuffix with rfl | ⟨t, rfl, -⟩
    · exact List.nil_infix
    · exact absurd (by simp) hx
  · exact hin

end Throned.Library
