import Mathlib
import Throned.Model.RuleLine

/-!
# The normal form of rule lines

What a line is brought to, which lines are brought to a normal form, and that an alias is read
like its kind.  The second loop chops commas and quotes without the spaces between them, and one
dot of a suffix is taken off whatever follows it.
-/

set_option autoImplicit false

namespace Throned.Routes

open Throned.Library

variable (qt : LineText)

/-! ## Ends of texts -/

theorem rdropWhile_append_cons {p : Char → Bool} {c : Char} (h : p c = false) (a v : Text) :
    (a ++ c :: v).rdropWhile p = a ++ c :: v.rdropWhile p := by
  induction v using List.reverseRecOn with
  | nil => rw [List.rdropWhile_concat_neg _ _ _ (by simp [h]), List.rdropWhile_nil]
  | append_singleton v d ih =>
    rw [← List.cons_append, ← List.append_assoc]
    cases hd : p d with
    | true => rw [List.rdropWhile_concat_pos _ _ _ hd, ih, List.rdropWhile_concat_pos _ _ _ hd]
    | false =>
      rw [List.rdropWhile_concat_neg _ _ _ (by simp [hd]),
        List.rdropWhile_concat_neg _ _ _ (by simp [hd]), List.append_assoc, List.cons_append]

/-- Only the end of a text is trimmed when it starts with something else than a space. -/
theorem trimSpace_of_head {s : Text} (h : ∀ c ∈ s.head?, isSpace c = false) :
    trimSpace s = s.rdropWhile isSpace := by
  unfold trimSpace
  congr 1
  cases s with
  | nil => rfl
  | cons c s => exact List.dropWhile_cons_of_neg (by simp [h c rfl])

theorem getLast?_dropWhile {p : Char → Bool} {s : Text} (h : s.dropWhile p ≠ []) :
    (s.dropWhile p).getLast? = s.getLast? := by
  obtain ⟨front, hfront⟩ : s.dropWhile p <:+ s := List.dropWhile_suffix p
  conv_rhs => rw [← hfront, List.getLast?_append_of_ne_nil _ h]

/-- Only the front of a text is trimmed when it does not end in a space. -/
theorem trimSpace_of_last {s : Text} (h : ∀ c ∈ s.getLast?, isSpace c = false) :
    trimSpace s = s.dropWhile isSpace := by
  unfold trimSpace
  apply List.rdropWhile_eq_self_iff.mpr
  intro hne
  have hlast := getLast?_dropWhile hne
  rw [List.getLast?_eq_some_getLast hne] at hlast
  simp [h _ hlast.symm]

/-- A text whose end is trimmed holds more than spaces, or nothing. -/
theorem rdropWhile_of_trimSpace_nil {s : Text} (h : trimSpace (s.rdropWhile isSpace) = []) :
    s.rdropWhile isSpace = [] := by
  unfold trimSpace at h
  have hdrop : (s.rdropWhile isSpace).dropWhile isSpace = [] := by
    cases hrest : (s.rdropWhile isSpace).dropWhile isSpace with
    | nil => rfl
    | cons c rest =>
      rw [hrest] at h
      have hspace := List.rdropWhile_eq_nil_iff.mp h c List.mem_cons_self
      have hnot := List.head?_dropWhile_not isSpace (s.rdropWhile isSpace)
      rw [hrest] at hnot
      exact absurd hspace (by simpa using hnot)
  by_contra hne
  have hall := List.dropWhile_eq_nil_iff.mp hdrop
  exact List.rdropWhile_last_not isSpace s hne (hall _ (List.getLast_mem hne))

/-! ## The two loops -/

/-- What opens a line before its rule. -/
def isLead (c : Char) : Bool := c = '-' || c = '"' || isSpace c

def isTail (c : Char) : Bool := c = ',' || c = '"'

theorem stripTail_eq (text : Text) : stripTail text = text.rdropWhile isTail := by
  unfold stripTail isTail
  congr 1
  funext c
  rw [Bool.decide_or]

/-- **The first loop** drops the whole run of dashes, quotes and spaces. -/
theorem stripLead_eq : ∀ (n : ℕ) (text : Text), text.length ≤ n → trimSpace text = text →
    stripLead text = text.dropWhile isLead := by
  intro n
  induction n with
  | zero =>
    intro text hn _
    rw [List.length_eq_zero_iff.mp (Nat.le_zero.mp hn), stripLead]
    rfl
  | succ n ih =>
    intro text hn htrim
    cases text with
    | nil =>
      rw [stripLead]
      rfl
    | cons c rest =>
      rw [stripLead]
      have hspace : isSpace c = false := isSpace_head_trimSpace c (by rw [htrim]; rfl)
      by_cases hc : c = '-' ∨ c = '"'
      · have hlead : isLead c = true := by
          rcases hc with rfl | rfl <;> rfl
        rw [if_pos hc, List.dropWhile_cons_of_pos hlead]
        have hlength := (trimSpace_isInfix rest).length_le
        rw [List.length_cons] at hn
        rw [ih _ (by omega) (trimSpace_trimSpace rest)]
        -- the end of the rest is trimmed with the text, so only its front loses spaces
        have hrest : trimSpace rest = rest.dropWhile isSpace := by
          apply trimSpace_of_last
          intro d hd
          apply isSpace_getLast_trimSpace (s := c :: rest)
          rw [htrim, Option.mem_def, List.getLast?_cons, Option.mem_def.mp hd]
          rfl
        rw [hrest]
        clear * -
        induction rest with
        | nil => rfl
        | cons d rest ih =>
          by_cases hd : isSpace d = true
          · rw [List.dropWhile_cons_of_pos hd,
              List.dropWhile_cons_of_pos (by simp [isLead, hd]), ih]
          · rw [List.dropWhile_cons_of_neg hd]
      · rw [if_neg hc, List.dropWhile_cons_of_neg]
        rw [not_or] at hc
        simp [isLead, hc.1, hc.2, hspace]

/-- The text between what opens a line and the commas and quotes that close it. -/
def undecorated (line : Text) : Text :=
  trimSpace (((trimSpace line).dropWhile isLead).rdropWhile isTail)

theorem strip_eq_undecorated (line : Text) :
    trimSpace (stripTail (stripLead (trimSpace line))) = undecorated line := by
  rw [stripLead_eq _ _ le_rfl (trimSpace_trimSpace line), stripTail_eq]
  rfl

/-! ## The rule of a text -/

/-- The kinds of a normal form. -/
def ruleLineKinds : List Text :=
  ["domain".toList, "suffix".toList, "keyword".toList, "regex".toList, "ruleset".toList,
    "ip".toList, "processName".toList, "processPath".toList]

/-- A line that holds no rule by its first characters. -/
def IsComment (line : Text) : Prop :=
  trimSpace line = [] ∨ (trimSpace line).head? = some '#' ∨ "//".toList <+: trimSpace line

def guessedRule (clean : Text) : Option (Text × Text) :=
  if guessRuleKind qt clean = [] then none else some (guessRuleKind qt clean, clean)

/-- The kind and the value that a text names, or else suggests. -/
def foundRule (clean : Text) : Option (Text × Text) :=
  match cut ':' clean with
  | none => guessedRule qt clean
  | some (left, right) =>
    let kind := ruleLineKind (qt.toLower (trimSpace left))
    let value := trimSpace right
    if left ≠ [] ∧ kind ≠ [] ∧ value ≠ [] then some (kind, value) else guessedRule qt clean

theorem guessRuleKind_nil : guessRuleKind qt [] = [] := by
  simp [guessRuleKind, endsWithLetters]

/-- Only what starts with a dot is taken for a suffix. -/
theorem head?_of_guess_suffix {clean : Text} (h : guessRuleKind qt clean = suffixKind) :
    clean.head? = some '.' := by
  unfold guessRuleKind at h
  simp only at h
  split at h
  · exact absurd h (by decide)
  · split at h
    · exact absurd h (by decide)
    · split at h
      · exact absurd h (by decide)
      · split at h
        · exact absurd h (by decide)
        · split at h
          · exact absurd h (by decide)
          · split at h
            · assumption
            · split at h
              · exact absurd h (by decide)
              · split at h
                · exact absurd h (by decide)
                · exact absurd h (by decide)

theorem guessRuleKind_mem (clean : Text) :
    guessRuleKind qt clean = [] ∨ guessRuleKind qt clean ∈ ruleLineKinds := by
  unfold guessRuleKind
  simp only
  split
  · exact Or.inr (by decide)
  · split
    · exact Or.inl rfl
    · split
      · exact Or.inr (by decide)
      · split
        · exact Or.inr (by decide)
        · split
          · exact Or.inr (by decide)
          · split
            · exact Or.inr (by decide)
            · split
              · exact Or.inr (by decide)
              · split
                · exact Or.inr (by decide)
                · exact Or.inl rfl

theorem guessedLine_eq (clean : Text) :
    guessedLine qt clean =
      ((guessedRule qt clean).map fun rule => namedLine rule.1 rule.2).getD [] := by
  unfold guessedLine guessedRule
  simp only
  by_cases hnone : guessRuleKind qt clean = []
  · rw [if_pos hnone, if_pos hnone]
    rfl
  · rw [if_neg hnone, if_neg hnone]
    show _ = namedLine (guessRuleKind qt clean) clean
    unfold namedLine
    by_cases hsuffix : guessRuleKind qt clean = suffixKind
    · have hboth : guessRuleKind qt clean = suffixKind ∧ clean.head? = some '.' :=
        ⟨hsuffix, head?_of_guess_suffix qt hsuffix⟩
      rw [if_pos hsuffix, if_pos hboth]
    · rw [if_neg hsuffix, if_neg fun h => hsuffix h.1]

/-- **A line's normal form is that of the rule found in what its decoration leaves.** -/
theorem NormalizeRuleLine_eq {line : Text} (hrule : ¬IsComment line) :
    NormalizeRuleLine qt line =
      ((foundRule qt (undecorated line)).map fun rule => namedLine rule.1 rule.2).getD [] := by
  unfold IsComment at hrule
  unfold NormalizeRuleLine
  simp only
  rw [if_neg hrule, strip_eq_undecorated]
  by_cases hnil : undecorated line = []
  · rw [if_pos hnil, hnil]
    show [] = ((guessedRule qt []).map _).getD []
    rw [guessedRule, if_pos (guessRuleKind_nil qt)]
    rfl
  · rw [if_neg hnil]
    unfold foundRule
    cases hcut : cut ':' (undecorated line) with
    | none => exact guessedLine_eq qt _
    | some parts =>
      simp only
      split
      · rfl
      · exact guessedLine_eq qt _

theorem NormalizeRuleLine_comment {line : Text} (h : IsComment line) :
    NormalizeRuleLine qt line = [] := by
  unfold NormalizeRuleLine
  simp only
  exact if_pos h

theorem ruleLineKind_mem (name : Text) :
    ruleLineKind name = [] ∨ ruleLineKind name ∈ ruleLineKinds := by
  unfold ruleLineKind
  cases hfound : ruleLineAliases.lookup name with
  | none => exact Or.inl rfl
  | some kind =>
    right
    obtain ⟨before, after, hsplit, -⟩ := List.lookup_eq_some_iff.mp hfound
    have hmem : (name, kind) ∈ ruleLineAliases := by
      rw [hsplit]
      exact List.mem_append_right _ List.mem_cons_self
    have hall : ∀ entry ∈ ruleLineAliases, entry.2 ∈ ruleLineKinds := by decide
    exact hall _ hmem

/-- What is found is a rule of one of the kinds with a trimmed value. -/
theorem foundRule_spec {clean kind value : Text} (htrim : trimSpace clean = clean)
    (h : foundRule qt clean = some (kind, value)) :
    kind ∈ ruleLineKinds ∧ value ≠ [] ∧ trimSpace value = value := by
  have hguess : guessedRule qt clean = some (kind, value) →
      kind ∈ ruleLineKinds ∧ value ≠ [] ∧ trimSpace value = value := by
    intro hguessed
    unfold guessedRule at hguessed
    split at hguessed
    · cases hguessed
    · rename_i hsome
      cases hguessed
      refine ⟨(guessRuleKind_mem qt clean).resolve_left hsome, ?_, htrim⟩
      rintro rfl
      exact hsome (guessRuleKind_nil qt)
  unfold foundRule at h
  split at h
  · exact hguess h
  · simp only at h
    split at h
    · rename_i hnamed
      cases h
      exact ⟨(ruleLineKind_mem _).resolve_left hnamed.2.1, hnamed.2.2, trimSpace_trimSpace _⟩
    · exact hguess h

/-! ## A line that names its kind -/

/-- A name of letters that are no digits of an address throughout. -/
structure IsName (name : Text) : Prop where
  plain : ∀ c ∈ name, c.isAlpha = true ∨ c = '_'
  letter : ∃ c ∈ name, c.isAlpha = true ∧ (hexDigit c).isSome = false ∧ c.toLower ≠ 'x'
  known : ruleLineKind (name.map Char.toLower) ∈ ruleLineKinds

instance (name : Text) : Decidable (IsName name) :=
  decidable_of_iff (name.all (fun c => c.isAlpha || c == '_') = true ∧
      name.any (fun c => c.isAlpha && (hexDigit c).isNone && c.toLower != 'x') = true ∧
      ruleLineKind (name.map Char.toLower) ∈ ruleLineKinds)
    ⟨fun ⟨hplain, hletter, hknown⟩ => ⟨by simpa using hplain,
        by simpa [and_assoc] using hletter, hknown⟩,
      fun h => ⟨by simpa using h.plain, by simpa [and_assoc] using h.letter, h.known⟩⟩

theorem isName_of_alias : ∀ entry ∈ ruleLineAliases, IsName entry.1 := by decide

theorem isName_of_kind : ∀ kind ∈ ruleLineKinds, IsName kind := by decide

/-- What the loops leave of a value. -/
def chopped (value : Text) : Text :=
  trimSpace (((value.rdropWhile isSpace).rdropWhile isTail).rdropWhile isSpace)

variable {qt}

theorem IsName.not_mem {name : Text} (h : IsName name) {c : Char} (hletter : c.isAlpha = false)
    (hline : c ≠ '_') : c ∉ name := by
  intro hc
  rcases h.plain c hc with halpha | rfl
  · rw [hletter] at halpha
    cases halpha
  · exact hline rfl

theorem IsName.ne_nil {name : Text} (h : IsName name) : name ≠ [] := by
  rintro rfl
  obtain ⟨c, hc, -⟩ := h.letter
  exact absurd hc List.not_mem_nil

theorem not_isSpace_of_alpha {c : Char} (h : c.isAlpha = true ∨ c = '_') : isSpace c = false := by
  rcases h with halpha | rfl
  · have hrange : 0x41 ≤ c.toNat ∧ c.toNat ≤ 0x7a := by
      simp only [Char.isAlpha, Char.isUpper, Char.isLower, Bool.or_eq_true, Bool.and_eq_true,
        decide_eq_true_eq, ge_iff_le, UInt32.le_iff_toNat_le] at halpha
      have htoNat : c.toNat = c.val.toNat := rfl
      simp only [Char.reduceVal, UInt32.reduceToNat] at halpha
      omega
    have hval : c.val.toNat = c.toNat := rfl
    simp only [isSpace, Bool.or_eq_false_iff, beq_eq_false_iff_ne, ne_eq, ← UInt32.toNat_inj,
      Bool.and_eq_false_iff, decide_eq_false_iff_not, UInt32.le_iff_toNat_le, hval,
      UInt32.reduceToNat]
    omega
  · rfl

theorem IsName.trimSpace_eq {name : Text} (h : IsName name) : trimSpace name = name :=
  trimSpace_eq_self fun c hc => not_isSpace_of_alpha (h.plain c hc)

theorem IsName.head?_space {name rest : Text} (h : IsName name) :
    ∀ c ∈ (name ++ rest).head?, isSpace c = false := by
  cases name with
  | nil => exact absurd rfl h.ne_nil
  | cons d name =>
    intro c hc
    cases hc
    exact not_isSpace_of_alpha (h.plain d List.mem_cons_self)

theorem IsName.toLower_eq {name : Text} (h : IsName name) :
    qt.toLower name = name.map Char.toLower := by
  apply qt.toLower_ascii
  intro c hc
  rcases h.plain c hc with halpha | rfl
  · simp only [Char.isAlpha, Char.isUpper, Char.isLower, Bool.or_eq_true, Bool.and_eq_true,
      decide_eq_true_eq, ge_iff_le, UInt32.le_iff_toNat_le, Char.reduceVal,
      UInt32.reduceToNat] at halpha
    have htoNat : c.toNat = c.val.toNat := rfl
    omega
  · decide

/-- A name and a colon alone suggest no kind. -/
theorem IsName.guess_nil {name : Text} (h : IsName name) :
    guessRuleKind qt (name ++ [':']) = [] := by
  have hnot : ∀ {c : Char}, c.isAlpha = false → c ≠ '_' → c ≠ ':' → c ∉ name ++ [':'] := by
    intro c halpha hline hcolon hc
    rcases List.mem_append.mp hc with hname | hlast
    · exact h.not_mem halpha hline hname
    · exact hcolon (List.mem_singleton.mp hlast)
  have hhead : ∀ {c : Char}, (name ++ [':']).head? = some c → c.isAlpha = true ∨ c = '_' := by
    intro c hc
    cases name with
    | nil => exact absurd rfl h.ne_nil
    | cons d name =>
      have hd : d = c := by simpa using hc
      exact hd ▸ h.plain d List.mem_cons_self
  have hsection : (name ++ [':']).takeWhile (· ≠ '/') = name ++ [':'] := by
    apply List.takeWhile_eq_self_iff.mpr
    intro c hc
    simp only [ne_eq, decide_eq_true_eq]
    rintro rfl
    exact hnot rfl (by decide) (by decide) hc
  have hzone : (name ++ [':']).takeWhile (· ≠ '%') = name ++ [':'] := by
    apply List.takeWhile_eq_self_iff.mpr
    intro c hc
    simp only [ne_eq, decide_eq_true_eq]
    rintro rfl
    exact hnot rfl (by decide) (by decide) hc
  have haddress : ¬qt.isAddress (name ++ [':']) = true := by
    intro haddr
    obtain ⟨c, hc, halpha, hhex, hx⟩ := h.letter
    rcases qt.isAddress_letters _ haddr c (by
      rw [hzone]
      exact List.mem_append_left _ hc) halpha with hsome | hlower
    · rw [hhex] at hsome
      cases hsome
    · exact hx hlower
  have hdash : '-' ∉ name ++ [':'] := hnot rfl (by decide) (by decide)
  have hdot : '.' ∉ name ++ [':'] := hnot rfl (by decide) (by decide)
  have hexe : endsWithLetters (name ++ [':']) ".exe".toList = false := by
    unfold endsWithLetters
    rw [decide_eq_false_iff_not]
    intro heq
    have hlast := congrArg List.getLast? heq
    rw [List.getLast?_map, show (".exe".toList).length = 4 from rfl] at hlast
    have hcolon : ((name ++ [':']).drop ((name ++ [':']).length - 4)).getLast? = some ':' := by
      rw [List.getLast?_drop, if_neg, List.getLast?_append]
      · rfl
      · rw [List.length_append, List.length_singleton]
        omega
    rw [hcolon] at hlast
    exact absurd hlast (by decide)
  unfold guessRuleKind
  simp only
  rw [if_neg, if_neg (hnot rfl (by decide) (by decide)), if_neg,
    if_neg (Bool.not_eq_true _ ▸ hexe), hsection, if_neg fun hboth => haddress hboth.2, if_neg,
    if_neg, if_neg hdot]
  · intro hstar
    rcases hhead (c := '*') (by
      obtain ⟨rest, hrest⟩ := hstar
      rw [← hrest]
      rfl) with halpha | hline
    · exact absurd halpha (by decide)
    · exact absurd hline (by decide)
  · intro hstart
    exact hdot (List.mem_of_head? hstart)
  · rintro (hgeo | hgeo)
    · exact hdash (hgeo.subset (by decide))
    · exact hdash (hgeo.subset (by decide))
  · rintro (hback | hslash)
    · exact hnot rfl (by decide) (by decide) hback
    · rcases hhead hslash with halpha | hline
      · exact absurd halpha (by decide)
      · exact absurd hline (by decide)

theorem not_isComment_of_name {name : Text} (h : IsName name) (value : Text) :
    ¬IsComment (name ++ ':' :: value) := by
  have htrim : trimSpace (name ++ ':' :: value) = name ++ ':' :: value.rdropWhile isSpace := by
    rw [trimSpace_of_head h.head?_space, rdropWhile_append_cons (by decide)]
  have hhead : ∀ {c : Char}, (name ++ ':' :: value.rdropWhile isSpace).head? = some c →
      c.isAlpha = true ∨ c = '_' := by
    intro c hc
    cases name with
    | nil => exact absurd rfl h.ne_nil
    | cons d name =>
      have hd : d = c := by simpa using hc
      exact hd ▸ h.plain d List.mem_cons_self
  unfold IsComment
  rw [htrim]
  rintro (hnil | hhash | hslash)
  · exact absurd hnil (by simp)
  · rcases hhead hhash with halpha | hline
    · exact absurd halpha (by decide)
    · exact absurd hline (by decide)
  · rcases hhead (c := '/') (by
      obtain ⟨rest, hrest⟩ := hslash
      rw [← hrest]
      rfl) with halpha | hline
    · exact absurd halpha (by decide)
    · exact absurd hline (by decide)

theorem undecorated_of_name {name : Text} (h : IsName name) (value : Text) :
    undecorated (name ++ ':' :: value) =
      name ++ ':' :: ((value.rdropWhile isSpace).rdropWhile isTail).rdropWhile isSpace := by
  have hlead : ∀ rest : Text, (name ++ rest).dropWhile isLead = name ++ rest := by
    intro rest
    cases name with
    | nil => exact absurd rfl h.ne_nil
    | cons d name =>
      have hd := h.plain d List.mem_cons_self
      refine List.dropWhile_cons_of_neg ?_
      have hspace := not_isSpace_of_alpha hd
      have hdash : d ≠ '-' := by
        rintro rfl
        exact absurd hd (by decide)
      have hquote : d ≠ '"' := by
        rintro rfl
        exact absurd hd (by decide)
      simp [isLead, hdash, hquote, hspace]
  unfold undecorated
  rw [trimSpace_of_head h.head?_space, rdropWhile_append_cons (by decide), hlead,
    rdropWhile_append_cons (by decide), trimSpace_of_head h.head?_space,
    rdropWhile_append_cons (by decide)]

/-- **A line that names its kind** has the normal form of what the loops leave of its value. -/
theorem NormalizeRuleLine_of_name {name : Text} (h : IsName name) (value : Text) :
    NormalizeRuleLine qt (name ++ ':' :: value) =
      if chopped value = [] then []
      else namedLine (ruleLineKind (name.map Char.toLower)) (chopped value) := by
  have hcolon : ':' ∉ name := h.not_mem rfl (by decide)
  have hkind : ruleLineKind (name.map Char.toLower) ≠ [] := by
    intro hnil
    have hknown := h.known
    rw [hnil] at hknown
    exact absurd hknown (by decide)
  rw [NormalizeRuleLine_eq qt (not_isComment_of_name h value), undecorated_of_name h]
  unfold foundRule
  rw [cut_append hcolon]
  simp only
  rw [h.trimSpace_eq, h.toLower_eq]
  by_cases hnil : chopped value = []
  · -- without a value the name alone would have to suggest a kind
    have hempty : ((value.rdropWhile isSpace).rdropWhile isTail).rdropWhile isSpace = [] :=
      rdropWhile_of_trimSpace_nil hnil
    rw [if_pos hnil, if_neg fun hall => hall.2.2 hnil, guessedRule, hempty, if_pos h.guess_nil]
    rfl
  · rw [if_neg hnil, if_pos ⟨h.ne_nil, hkind, hnil⟩]
    rfl

/-! ## Normal forms -/

variable (qt) in
/-- What a line is brought to. -/
structure NormalForm (line : Text) : Prop where
  /-- Nothing, or a kind with a trimmed value which splits back; the value of a suffix does
  not begin with a dot. -/
  shape : NormalizeRuleLine qt line = [] ∨ ∃ kind ∈ ruleLineKinds, ∃ value,
    NormalizeRuleLine qt line = kind ++ ':' :: value ∧ value ≠ [] ∧ trimSpace value = value ∧
      SplitRuleLine (NormalizeRuleLine qt line) = (kind, value) ∧
      (kind = suffixKind → value.head? ≠ some '.')
  idempotent : NormalizeRuleLine qt (NormalizeRuleLine qt line) = NormalizeRuleLine qt line

theorem ruleLineKind_of_kind : ∀ kind ∈ ruleLineKinds,
    ruleLineKind (kind.map Char.toLower) = kind := by decide

theorem rdropWhile_of_trimmed {value : Text} (h : trimSpace value = value) :
    value.rdropWhile isSpace = value := by
  apply List.rdropWhile_eq_self_iff.mpr
  intro hne hlast
  have hclean := isSpace_getLast_trimSpace (s := value) (value.getLast hne) (by
    rw [h, List.getLast?_eq_some_getLast hne]
    rfl)
  rw [hclean] at hlast
  cases hlast

theorem SplitRuleLine_rule {kind value : Text} (hkind : kind ∈ ruleLineKinds)
    (htrim : trimSpace value = value) : SplitRuleLine (kind ++ ':' :: value) = (kind, value) := by
  have hname := isName_of_kind kind hkind
  unfold SplitRuleLine
  rw [trimSpace_of_head hname.head?_space, rdropWhile_append_cons (by decide),
    rdropWhile_of_trimmed htrim, cut_append (hname.not_mem rfl (by decide))]
  simp only
  rw [if_neg hname.ne_nil, hname.trimSpace_eq, htrim]

/-- A kind and its value are read off a rule. -/
theorem rule_inj {kind kind' value value' : Text} (hkind : kind ∈ ruleLineKinds)
    (hkind' : kind' ∈ ruleLineKinds) (h : kind ++ ':' :: value = kind' ++ ':' :: value') :
    kind = kind' ∧ value = value' := by
  have hcut := congrArg (cut ':') h
  rw [cut_append ((isName_of_kind kind hkind).not_mem rfl (by decide)),
    cut_append ((isName_of_kind kind' hkind').not_mem rfl (by decide))] at hcut
  simpa using hcut

theorem chopped_eq_self {value : Text} (htrim : trimSpace value = value)
    (hend : ∀ c ∈ value.getLast?, isTail c = false) : chopped value = value := by
  have htail : value.rdropWhile isTail = value := by
    apply List.rdropWhile_eq_self_iff.mpr
    intro hne
    rw [hend _ (by rw [List.getLast?_eq_some_getLast hne]; rfl)]
    simp
  unfold chopped
  rw [rdropWhile_of_trimmed htrim, htail, rdropWhile_of_trimmed htrim, htrim]

/-- What ends in a comma or a quote is chopped. -/
theorem length_chopped_lt {value : Text} (htrim : trimSpace value = value) {c : Char}
    (hc : c ∈ value.getLast?) (htail : isTail c = true) :
    (chopped value).length < value.length := by
  unfold chopped
  rw [rdropWhile_of_trimmed htrim]
  obtain ⟨front, rfl⟩ := List.getLast?_eq_some_iff.mp hc
  rw [List.rdropWhile_concat_pos _ _ _ htail]
  have htrims := (trimSpace_isInfix ((front.rdropWhile isTail).rdropWhile isSpace)).length_le
  have hspaces := (List.rdropWhile_prefix isSpace (front.rdropWhile isTail)).length_le
  have htails := (List.rdropWhile_prefix isTail front).length_le
  rw [List.length_append, List.length_singleton]
  omega

theorem length_namedLine_le (kind value : Text) :
    (namedLine kind value).length ≤ kind.length + 1 + value.length := by
  unfold namedLine
  split
  · simp only
    split
    · simp
    · simp only [List.length_append, List.length_cons, List.length_tail]
      omega
  · simp only [List.length_append, List.length_cons]
    omega

/-- **A rule is its own normal form** unless its value ends in a comma or a quote. -/
theorem NormalizeRuleLine_rule_iff {kind value : Text} (hkind : kind ∈ ruleLineKinds)
    (hne : value ≠ []) (htrim : trimSpace value = value)
    (hdot : kind = suffixKind → value.head? ≠ some '.') :
    NormalizeRuleLine qt (kind ++ ':' :: value) = kind ++ ':' :: value ↔
      ∀ c ∈ value.getLast?, isTail c = false := by
  rw [NormalizeRuleLine_of_name (isName_of_kind kind hkind), ruleLineKind_of_kind kind hkind]
  constructor
  · intro heq c hc
    by_contra htail
    have hshort := length_chopped_lt htrim hc (by simpa using htail)
    have hlength := congrArg List.length heq
    rw [List.length_append, List.length_cons] at hlength
    split at hlength
    · rw [List.length_nil] at hlength
      omega
    · have := length_namedLine_le kind (chopped value)
      omega
  · intro hend
    rw [chopped_eq_self htrim hend, if_neg hne]
    unfold namedLine
    exact if_neg fun h => hdot h.1 h.2

variable (qt) in
/-- The lines that are brought to a normal form: those that hold no rule, and those whose
undecorated text neither ends in another comma or quote nor, as a suffix, has a dot or a space
behind its first dot. -/
def Settles (line : Text) : Prop :=
  IsComment line ∨ ∀ kind value, foundRule qt (undecorated line) = some (kind, value) →
    (∀ c ∈ (undecorated line).getLast?, isTail c = false) ∧
      (kind = suffixKind → ∀ c bare, value = '.' :: c :: bare → c ≠ '.' ∧ isSpace c = false)

theorem normalForm_of_eq_nil {line : Text} (h : NormalizeRuleLine qt line = []) :
    NormalForm qt line where
  shape := Or.inl h
  idempotent := by
    rw [h]
    exact NormalizeRuleLine_comment qt (Or.inl rfl)

/-- When a rule is the normal form of a line. -/
theorem normalForm_rule_iff {line kind value : Text} (hkind : kind ∈ ruleLineKinds)
    (hne : value ≠ []) (h : NormalizeRuleLine qt line = kind ++ ':' :: value) :
    NormalForm qt line ↔ trimSpace value = value ∧ (∀ c ∈ value.getLast?, isTail c = false) ∧
      (kind = suffixKind → value.head? ≠ some '.') := by
  constructor
  · rintro ⟨hshape, hidem⟩
    rw [h] at hshape hidem
    rcases hshape with hnil | ⟨kind', hkind', value', heq, -, htrim, -, hdot⟩
    · exact absurd hnil (by simp)
    · obtain ⟨rfl, rfl⟩ := rule_inj hkind hkind' heq
      exact ⟨htrim, (NormalizeRuleLine_rule_iff hkind hne htrim hdot).mp hidem, hdot⟩
  · rintro ⟨htrim, hend, hdot⟩
    refine ⟨Or.inr ⟨kind, hkind, value, h, hne, htrim, ?_, hdot⟩, ?_⟩
    · rw [h]
      exact SplitRuleLine_rule hkind htrim
    · rw [h]
      exact (NormalizeRuleLine_rule_iff hkind hne htrim hdot).mpr hend

/-- The end of what is found is the end of the text. -/
theorem getLast?_foundRule {clean kind value : Text} (htrim : trimSpace clean = clean)
    (h : foundRule qt clean = some (kind, value)) : value.getLast? = clean.getLast? := by
  have hguess : guessedRule qt clean = some (kind, value) → value.getLast? = clean.getLast? := by
    intro hguessed
    unfold guessedRule at hguessed
    split at hguessed
    · cases hguessed
    · cases hguessed
      rfl
  unfold foundRule at h
  split at h
  · exact hguess h
  · rename_i left right hcut
    simp only at h
    split at h
    · rename_i hnamed
      cases h
      obtain ⟨hsplit, -⟩ := eq_append_of_cut hcut
      have hlast : ∀ c ∈ right.getLast?, isSpace c = false := by
        intro c hc
        apply isSpace_getLast_trimSpace (s := clean)
        rw [htrim, hsplit, List.getLast?_append, List.getLast?_cons, Option.mem_def.mp hc]
        rfl
      have hvalue := trimSpace_of_last hlast
      have hne : right.dropWhile isSpace ≠ [] := hvalue ▸ hnamed.2.2
      have hright : right ≠ [] := by
        rintro rfl
        exact hne rfl
      rw [hvalue, getLast?_dropWhile hne, hsplit, List.getLast?_append, List.getLast?_cons,
        List.getLast?_eq_some_getLast hright]
      rfl
    · exact hguess h

theorem trimSpace_tail_iff {c : Char} {bare : Text}
    (htrim : trimSpace ('.' :: c :: bare) = '.' :: c :: bare) :
    trimSpace (c :: bare) = c :: bare ↔ isSpace c = false := by
  constructor
  · intro h
    apply isSpace_head_trimSpace (s := c :: bare)
    rw [h]
    rfl
  · intro h
    apply trimSpace_of_ends
    · rintro d hd
      cases hd
      exact h
    · intro d hd
      apply isSpace_getLast_trimSpace (s := '.' :: c :: bare)
      rw [htrim, Option.mem_def, List.getLast?_cons_cons]
      exact hd

/-- Which lines with a rule are brought to a normal form. -/
theorem normalForm_found_iff {line kind value : Text} (hrule : ¬IsComment line)
    (hfound : foundRule qt (undecorated line) = some (kind, value)) :
    NormalForm qt line ↔ (∀ c ∈ value.getLast?, isTail c = false) ∧
      (kind = suffixKind → ∀ c bare, value = '.' :: c :: bare → c ≠ '.' ∧ isSpace c = false) := by
  obtain ⟨hkind, hne, htrim⟩ := foundRule_spec qt (trimSpace_trimSpace _) hfound
  have hout : NormalizeRuleLine qt line = namedLine kind value := by
    rw [NormalizeRuleLine_eq qt hrule, hfound]
    rfl
  by_cases hdot : kind = suffixKind ∧ value.head? = some '.'
  · obtain ⟨hsuffix, hhead⟩ := hdot
    obtain ⟨rest, rfl⟩ := List.head?_eq_some_iff.mp hhead
    cases rest with
    | nil =>
      -- a bare dot gives nothing, which is a normal form
      have hnil : NormalizeRuleLine qt line = [] := by
        rw [hout, hsuffix]
        rfl
      refine ⟨fun _ => ⟨?_, ?_⟩, fun _ => normalForm_of_eq_nil hnil⟩
      · rintro c hc
        cases hc
        rfl
      · intro _ c bare heq
        cases heq
    | cons c bare =>
      have hbare : NormalizeRuleLine qt line = kind ++ ':' :: c :: bare := by
        rw [hout]
        unfold namedLine
        rw [if_pos ⟨hsuffix, rfl⟩]
        exact if_neg (List.cons_ne_nil _ _)
      rw [normalForm_rule_iff hkind (List.cons_ne_nil _ _) hbare, trimSpace_tail_iff htrim,
        List.getLast?_cons_cons]
      constructor
      · rintro ⟨hspace, hend, hdots⟩
        refine ⟨hend, fun _ d rest heq => ?_⟩
        cases heq
        exact ⟨fun hd => hdots hsuffix (by rw [hd]; rfl), hspace⟩
      · rintro ⟨hend, hdots⟩
        obtain ⟨hd, hspace⟩ := hdots hsuffix c bare rfl
        exact ⟨hspace, hend, fun _ hhead => hd (by simpa using hhead)⟩
  · have hplain : NormalizeRuleLine qt line = kind ++ ':' :: value := by
      rw [hout]
      exact if_neg hdot
    rw [normalForm_rule_iff hkind hne hplain]
    constructor
    · rintro ⟨-, hend, -⟩
      refine ⟨hend, fun hsuffix c bare heq => ?_⟩
      exact absurd ⟨hsuffix, by rw [heq]; rfl⟩ hdot
    · rintro ⟨hend, -⟩
      exact ⟨htrim, hend, fun hsuffix hhead => hdot ⟨hsuffix, hhead⟩⟩

variable (qt) in
theorem normalForm_iff_settles (line : Text) : NormalForm qt line ↔ Settles qt line := by
  by_cases hcomment : IsComment line
  · exact ⟨fun _ => Or.inl hcomment,
      fun _ => normalForm_of_eq_nil (NormalizeRuleLine_comment qt hcomment)⟩
  · unfold Settles
    cases hfound : foundRule qt (undecorated line) with
    | none =>
      refine ⟨fun _ => Or.inr fun _ _ h => (by cases h), fun _ => normalForm_of_eq_nil ?_⟩
      rw [NormalizeRuleLine_eq qt hcomment, hfound]
      rfl
    | some rule =>
      obtain ⟨kind, value⟩ := rule
      rw [normalForm_found_iff hcomment hfound]
      have hlast := getLast?_foundRule (trimSpace_trimSpace _) hfound
      rw [hlast]
      constructor
      · rintro h
        refine Or.inr fun k v heq => ?_
        cases heq
        exact h
      · rintro (h | h)
        · exact absurd h hcomment
        · exact h kind value rfl

/-! ## Aliases -/

variable (qt) in
/-- An alias is read like its kind, whatever stands behind it. -/
def AliasesAgree : Prop :=
  ∀ entry ∈ ruleLineAliases, ∀ value,
    NormalizeRuleLine qt (entry.1 ++ ':' :: value) = NormalizeRuleLine qt (entry.2 ++ ':' :: value)

variable (qt) in
theorem aliasesAgree : AliasesAgree qt := by
  intro entry hentry value
  have hkinds : ∀ entry ∈ ruleLineAliases, entry.2 ∈ ruleLineKinds ∧
      ruleLineKind (entry.1.map Char.toLower) = ruleLineKind (entry.2.map Char.toLower) := by
    decide
  obtain ⟨hkind, hsame⟩ := hkinds entry hentry
  rw [NormalizeRuleLine_of_name (isName_of_alias entry hentry),
    NormalizeRuleLine_of_name (isName_of_kind _ hkind), hsame]

/-! ## The result -/

/-- **Exactly the lines whose closing commas and quotes stand together, and whose suffix has
one dot at most, are brought to a normal form**; every alias is read like its kind. -/
theorem NormalizeRuleLine_normalForm_iff (qt : LineText) :
    (∀ line, NormalForm qt line ↔ Settles qt line) ∧ AliasesAgree qt :=
  ⟨normalForm_iff_settles qt, aliasesAgree qt⟩

/-- Lower case of ASCII letters, and addresses of digits and dots. -/
def LineText.ascii : LineText where
  toLower := List.map Char.toLower
  toLower_ascii _ _ := rfl
  isAddress text := decide (text ≠ []) && text.all fun c => c.isDigit || c = '.'
  isAddress_letters := by
    intro text h c hc halpha
    simp only [Bool.and_eq_true, List.all_eq_true, Bool.or_eq_true, decide_eq_true_eq] at h
    have hplain := h.2 c ((List.takeWhile_prefix _).subset hc)
    rcases hplain with hdigit | rfl
    · left
      have hrange : '0' ≤ c ∧ c ≤ '9' := by
        simpa [Char.isDigit, Char.le_def, and_comm] using hdigit
      rw [hexDigit, if_pos hrange]
      rfl
    · exact absurd halpha (by decide)

/-- A quote before a space and a comma is left at the end of a rule, where the next call chops
it, and one of two dots is taken off a suffix. -/
theorem quote_and_dots_unsettled :
    ¬NormalForm .ascii "domain:example.com\" ,".toList ∧
      ¬NormalForm .ascii "suffix:..example.com".toList := by
  have hdomain : IsName "domain".toList := isName_of_kind _ (by decide)
  have hsuffix : IsName "suffix".toList := isName_of_kind _ (by decide)
  have hquote : NormalizeRuleLine .ascii ("domain".toList ++ ':' :: "example.com\" ,".toList) =
      "domain".toList ++ ':' :: "example.com\"".toList := by
    rw [NormalizeRuleLine_of_name hdomain]
    decide
  have hdots : NormalizeRuleLine .ascii ("suffix".toList ++ ':' :: "..example.com".toList) =
      "suffix".toList ++ ':' :: ".example.com".toList := by
    rw [NormalizeRuleLine_of_name hsuffix]
    decide
  have hquoteTwice : NormalizeRuleLine .ascii (NormalizeRuleLine .ascii
      ("domain".toList ++ ':' :: "example.com\" ,".toList)) =
      "domain:example.com".toList := by
    rw [hquote, NormalizeRuleLine_of_name hdomain]
    decide
  have hdotsTwice : NormalizeRuleLine .ascii (NormalizeRuleLine .ascii
      ("suffix".toList ++ ':' :: "..example.com".toList)) = "suffix:example.com".toList := by
    rw [hdots, NormalizeRuleLine_of_name hsuffix]
    decide
  constructor
  · intro h
    have hidem := (hquoteTwice.symm.trans h.idempotent).trans hquote
    exact absurd hidem (by decide)
  · intro h
    have hidem := (hdotsTwice.symm.trans h.idempotent).trans hdots
    exact absurd hidem (by decide)

end Throned.Routes
