import Throned.Library.Text

/-!
# Host names and dotted numbers

A name is labels between dots, with a dot of its own for the root at the end if it is absolute.
`hostName` decides it on the text; `IsHostName` says how the text is put together.
-/

set_option autoImplicit false

namespace Throned.Library

/-! ## Names -/

/-- What a label ends and starts with. -/
def isLabelEnd (c : Char) : Bool := c.isAlphanum || c = '_'

def isLabelChar (c : Char) : Bool := isLabelEnd c || c = '-'

/-- Letters, digits, underscores and inner hyphens, 63 at most. -/
def isLabel (label : Text) : Bool :=
  label ≠ [] && label.length ≤ 63 && label.all isLabelChar && label.head?.all isLabelEnd &&
    label.getLast?.all isLabelEnd

/-- A name without the dot of the root. -/
def relativeName (name : Text) : Text := if name.getLast? = some '.' then name.dropLast else name

/-- Labels between dots, 253 characters at most without the dot of the root. -/
def hostName (name : Text) : Bool :=
  (relativeName name).length ≤ 253 && ((relativeName name).splitOn '.').all isLabel

/-- A name is its labels, with or without the dot of the root. -/
structure IsHostName (name : Text) : Prop where
  labels : ∃ labels : List Text, labels ≠ [] ∧ (∀ label ∈ labels, isLabel label = true) ∧
    (List.intercalate ['.'] labels).length ≤ 253 ∧
    (name = List.intercalate ['.'] labels ∨ name = List.intercalate ['.'] labels ++ ['.'])

theorem ne_dot_of_isLabelChar {c : Char} (h : isLabelChar c = true) : c ≠ '.' := by
  rintro rfl
  exact absurd h (by decide)

theorem dot_notMem_of_isLabel {label : Text} (h : isLabel label = true) : '.' ∉ label := by
  intro hmem
  simp only [isLabel, Bool.and_eq_true, List.all_eq_true] at h
  exact ne_dot_of_isLabelChar (h.1.1.2 _ hmem) rfl

/-- A joined list of labels does not end in a dot. -/
theorem getLast?_intercalate_labels {labels : List Text} (hne : labels ≠ [])
    (h : ∀ label ∈ labels, isLabel label = true) :
    (List.intercalate ['.'] labels).getLast? ≠ some '.' := by
  have hend : ∀ label, isLabel label = true → label.getLast? ≠ some '.' := by
    intro label hlabel hlast
    simp only [isLabel, Bool.and_eq_true] at hlabel
    simp only [hlast, Option.all_some] at hlabel
    exact absurd hlabel.2 (by decide)
  induction labels with
  | nil => exact absurd rfl hne
  | cons label rest ih =>
    cases rest with
    | nil => simpa [List.intercalate] using hend label (h label (by simp))
    | cons next more =>
      have hrest := ih (by simp) fun l hl => h l (List.mem_cons_of_mem _ hl)
      rw [List.intercalate_cons_cons]
      have hnonempty : List.intercalate ['.'] (next :: more) ≠ [] := by
        intro hnil
        have hlabel := h next (by simp)
        cases more with
        | nil =>
          simp only [List.intercalate_singleton] at hnil
          simp [isLabel, hnil] at hlabel
        | cons _ _ => simp [List.intercalate_cons_cons] at hnil
      rwa [List.getLast?_append_of_ne_nil _ hnonempty]

/-- **Host names.** `hostName` decides whether a text is a host name. -/
theorem hostName_iff (name : Text) : hostName name = true ↔ IsHostName name := by
  constructor
  · intro h
    simp only [hostName, Bool.and_eq_true, decide_eq_true_eq, List.all_eq_true] at h
    refine ⟨(relativeName name).splitOn '.', List.splitOn_ne_nil _ _, h.2, ?_, ?_⟩
    · rw [List.intercalate_splitOn]
      exact h.1
    · rw [List.intercalate_splitOn]
      unfold relativeName
      split
      next hlast =>
        right
        exact (List.dropLast_append_getLast? '.' hlast).symm
      next => exact Or.inl rfl
  · rintro ⟨labels, hne, hlabels, hlength, hname⟩
    have hrelative : relativeName name = List.intercalate ['.'] labels := by
      rcases hname with rfl | rfl
      · exact if_neg (getLast?_intercalate_labels hne hlabels)
      · simp [relativeName]
    have hsplit : (List.intercalate ['.'] labels).splitOn '.' = labels :=
      List.splitOn_intercalate '.' (fun l hl => dot_notMem_of_isLabel (hlabels l hl)) hne
    simp only [hostName, hrelative, hsplit, Bool.and_eq_true, decide_eq_true_eq,
      List.all_eq_true]
    exact ⟨hlength, hlabels⟩

example : hostName "dns.example.com.".toList = true := by decide
example : hostName "-a.example".toList = false := by decide

/-! ## Texts around a separator -/

/-- The text before and after the first `sep`. -/
def cutText (sep : Text) : Text → Option (Text × Text)
  | [] => if sep = [] then some ([], []) else none
  | c :: s =>
    if sep <+: c :: s then some ([], (c :: s).drop sep.length)
    else (cutText sep s).map fun (l, r) => (c :: l, r)

/-- A cut is where the text says it is. -/
theorem eq_append_of_cutText {sep s l r : Text} (h : cutText sep s = some (l, r)) :
    s = l ++ sep ++ r := by
  induction s generalizing l with
  | nil =>
    unfold cutText at h
    split at h
    next hsep => simp_all
    next => simp at h
  | cons c s ih =>
    unfold cutText at h
    split at h
    next hstarts =>
      obtain ⟨rest, hrest⟩ := hstarts
      simp only [Option.some.injEq, Prod.mk.injEq] at h
      rw [← h.1, ← h.2, ← hrest]
      simp
    next =>
      obtain ⟨⟨l', r'⟩, hcut, heq⟩ := Option.map_eq_some_iff.mp h
      simp only [Prod.mk.injEq] at heq
      rw [← heq.1, ih (heq.2 ▸ hcut)]
      simp

/-- A separator is not found where one of its characters is missing. -/
theorem cutText_eq_none {c : Char} {sep s : Text} (hc : c ∈ sep) (h : c ∉ s) :
    cutText sep s = none := by
  cases hcut : cutText sep s with
  | none => rfl
  | some parts =>
    obtain ⟨l, r⟩ := parts
    have heq := eq_append_of_cutText hcut
    exact absurd (by simp [heq, hc]) h

/-- The first separator is the one behind a text without its first character. -/
theorem cutText_append {c : Char} {sep l : Text} (h : c ∉ l) (r : Text) :
    cutText (c :: sep) (l ++ (c :: sep) ++ r) = some (l, r) := by
  induction l with
  | nil => simp [cutText]
  | cons d l ih =>
    have hd : ¬ c :: sep <+: (d :: l) ++ (c :: sep) ++ r := by
      intro hstarts
      simp only [List.cons_append, List.cons_prefix_cons] at hstarts
      exact h (by simp [hstarts.1])
    have hrest := ih fun hmem => h (List.mem_cons_of_mem _ hmem)
    simp only [List.cons_append] at hd hrest ⊢
    rw [cutText, if_neg hd, hrest]
    rfl

/-- The pieces of a joined text are in it. -/
theorem mem_intercalate_of_mem {c x : Char} {pieces : List Text} {piece : Text}
    (hpiece : piece ∈ pieces) (hx : x ∈ piece) : x ∈ List.intercalate [c] pieces := by
  induction pieces with
  | nil => simp at hpiece
  | cons first rest ih =>
    cases rest with
    | nil =>
      rw [List.mem_singleton] at hpiece
      rwa [List.intercalate_singleton, ← hpiece]
    | cons next more =>
      rw [List.intercalate_cons_cons, List.mem_append, List.mem_append]
      rcases List.mem_cons.mp hpiece with rfl | hlater
      · exact Or.inl (Or.inl hx)
      · exact Or.inr (ih hlater)

/-- A joined text holds the separator and its pieces. -/
theorem mem_intercalate {c x : Char} {pieces : List Text} (h : x ∈ List.intercalate [c] pieces) :
    x = c ∨ ∃ piece ∈ pieces, x ∈ piece := by
  induction pieces with
  | nil => simp at h
  | cons first rest ih =>
    cases rest with
    | nil =>
      rw [List.intercalate_singleton] at h
      exact Or.inr ⟨first, by simp, h⟩
    | cons next more =>
      rw [List.intercalate_cons_cons, List.mem_append, List.mem_append, List.mem_singleton] at h
      obtain (hfirst | hsep) | hrest := h
      · exact Or.inr ⟨first, by simp, hfirst⟩
      · exact Or.inl hsep
      · obtain hsep | ⟨piece, hpiece, hx⟩ := ih hrest
        · exact Or.inl hsep
        · exact Or.inr ⟨piece, List.mem_cons_of_mem _ hpiece, hx⟩

/-- What stands around a separator that is found. -/
theorem takeWhile_append_stop {p : Char → Bool} {l : Text} (h : ∀ c ∈ l, p c = true) {c : Char}
    (hc : p c = false) (r : Text) :
    (l ++ c :: r).takeWhile p = l ∧ (l ++ c :: r).dropWhile p = c :: r := by
  constructor
  · rw [List.takeWhile_append_of_pos h]
    simp [hc]
  · rw [List.dropWhile_append_of_pos h]
    simp [hc]

end Throned.Library
