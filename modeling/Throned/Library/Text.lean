import Mathlib.Data.List.DropRight
import Mathlib.Tactic.IntervalCases
import Mathlib.Tactic.Ring
import Mathlib.Tactic.Tauto

/-!
# Texts and numbers

A text is a list of characters.  `parseDecimal` and `parseHex` read numbers without a
sign, `decimal` and `hex` write them, and a written number reads back; `cut` splits a
text at the first place where a character stands.
-/

set_option autoImplicit false

namespace Throned.Library

/-- A text as its characters. -/
abbrev Text := List Char

/-- Texts are compared as the lists they are. -/
instance lawfulBEq_text : LawfulBEq Text := inferInstance

instance lawfulBEq_bytes : LawfulBEq (List UInt8) := inferInstance

/-- White space, by the Unicode property. -/
def isSpace (c : Char) : Bool :=
  c.val == 0x20 || (0x09 ≤ c.val && c.val ≤ 0x0d) || c.val == 0x85 || c.val == 0xa0 ||
    c.val == 0x1680 || (0x2000 ≤ c.val && c.val ≤ 0x200a) || c.val == 0x2028 ||
    c.val == 0x2029 || c.val == 0x202f || c.val == 0x205f || c.val == 0x3000

/-- A text without the white space at its ends. -/
def trimSpace (s : Text) : Text := (s.dropWhile isSpace).rdropWhile isSpace

/-- The text before and after the first `c`. -/
def cut (c : Char) : Text → Option (Text × Text)
  | [] => none
  | d :: s => if d = c then some ([], s) else (cut c s).map fun (l, r) => (d :: l, r)

/-- The text before and after the first `cc`. -/
def cutDouble (c : Char) : Text → Option (Text × Text)
  | [] => none
  | d :: s =>
    if d = c ∧ s.head? = some c then some ([], s.tail)
    else (cutDouble c s).map fun (l, r) => (d :: l, r)

/-- Nothing is trimmed from a text that neither starts nor ends with white space. -/
theorem trimSpace_of_ends {s : Text} (hhead : ∀ c ∈ s.head?, isSpace c = false)
    (hlast : ∀ c ∈ s.getLast?, isSpace c = false) : trimSpace s = s := by
  have hdrop : s.dropWhile isSpace = s := by
    cases s with
    | nil => rfl
    | cons c s => simp [hhead c (by simp)]
  unfold trimSpace
  rw [hdrop]
  apply List.rdropWhile_eq_self_iff.mpr
  intro hne
  simp [hlast _ (List.getLast_mem_getLast? hne)]

theorem trimSpace_eq_self {s : Text} (h : ∀ c ∈ s, isSpace c = false) : trimSpace s = s :=
  trimSpace_of_ends (fun c hc => h c (List.mem_of_head? hc))
    fun c hc => h c (List.mem_of_getLast? hc)

theorem isSpace_head_trimSpace {s : Text} : ∀ c ∈ (trimSpace s).head?, isSpace c = false := by
  intro c hc
  unfold trimSpace at hc
  have hhead : c ∈ (s.dropWhile isSpace).head? := by
    obtain ⟨rest, hrest⟩ := List.rdropWhile_prefix isSpace (s.dropWhile isSpace)
    rw [← hrest, List.head?_append, Option.mem_def]
    rw [Option.mem_def] at hc
    rw [hc]
    rfl
  have hnot := List.head?_dropWhile_not isSpace s
  rw [Option.mem_def.mp hhead] at hnot
  exact hnot

theorem isSpace_getLast_trimSpace {s : Text} : ∀ c ∈ (trimSpace s).getLast?, isSpace c = false := by
  intro c hc
  unfold trimSpace at hc
  have hne : (s.dropWhile isSpace).rdropWhile isSpace ≠ [] := by
    rintro hnil
    rw [hnil] at hc
    cases hc
  have hnot := List.rdropWhile_last_not isSpace (s.dropWhile isSpace) hne
  rw [Option.mem_def, List.getLast?_eq_some_getLast hne, Option.some_inj] at hc
  rw [hc] at hnot
  exact Bool.eq_false_iff.mpr hnot

@[simp] theorem trimSpace_trimSpace (s : Text) : trimSpace (trimSpace s) = trimSpace s :=
  trimSpace_of_ends isSpace_head_trimSpace isSpace_getLast_trimSpace

theorem trimSpace_isInfix (s : Text) : trimSpace s <:+: s :=
  (List.rdropWhile_prefix isSpace _).isInfix.trans (List.dropWhile_suffix isSpace).isInfix

theorem cut_eq_none {c : Char} {s : Text} (h : c ∉ s) : cut c s = none := by
  induction s with
  | nil => rfl
  | cons d s ih =>
    simp only [List.mem_cons, not_or] at h
    simp [cut, Ne.symm h.1, ih h.2]

theorem cut_append {c : Char} {l : Text} (h : c ∉ l) (r : Text) :
    cut c (l ++ c :: r) = some (l, r) := by
  induction l with
  | nil => simp [cut]
  | cons d l ih =>
    simp only [List.mem_cons, not_or] at h
    simp [cut, Ne.symm h.1, ih h.2]

theorem eq_append_of_cut {c : Char} {s l r : Text} (h : cut c s = some (l, r)) :
    s = l ++ c :: r ∧ c ∉ l := by
  by_cases hc : c ∈ s
  · obtain ⟨l', r', rfl, hl'⟩ := List.eq_append_cons_of_mem hc
    rw [cut_append hl'] at h
    cases h
    exact ⟨rfl, hl'⟩
  · rw [cut_eq_none hc] at h
    cases h

/-- No piece of a split text holds what it was split at. -/
theorem notMem_of_mem_splitOn {c : Char} {s piece : Text} (h : piece ∈ s.splitOn c) : c ∉ piece := by
  induction hn : s.length using Nat.strong_induction_on generalizing s with
  | _ n ih =>
    by_cases hc : c ∈ s
    · obtain ⟨left, right, rfl, hleft⟩ := List.eq_append_cons_of_mem hc
      rw [List.splitOn_append_cons_self_of_not_mem hleft] at h
      rcases List.mem_cons.mp h with rfl | hlater
      · exact hleft
      · refine ih right.length ?_ hlater rfl
        rw [← hn, List.length_append, List.length_cons]
        omega
    · rw [List.splitOn_eq_singleton hc] at h
      rw [List.mem_singleton.mp h]
      exact hc

theorem cutDouble_cons {c d : Char} {s : Text} (h : d ≠ c ∨ s.head? ≠ some c) :
    cutDouble c (d :: s) = (cutDouble c s).map fun (l, r) => (d :: l, r) := by
  rw [cutDouble, if_neg (by tauto)]

theorem cutDouble_append {c : Char} {p : Text} (h : c ∉ p) (s : Text) :
    cutDouble c (p ++ s) = (cutDouble c s).map fun (l, r) => (p ++ l, r) := by
  induction p with
  | nil => simp
  | cons d p ih =>
    simp only [List.mem_cons, not_or] at h
    rw [List.cons_append, cutDouble_cons (Or.inl (Ne.symm h.1)), ih h.2, Option.map_map]
    rfl

theorem eq_append_of_cutDouble {c : Char} {s : Text} :
    ∀ {l r : Text}, cutDouble c s = some (l, r) → s = l ++ c :: c :: r := by
  induction s with
  | nil => simp [cutDouble]
  | cons d s ih =>
    intro l r h
    rw [cutDouble] at h
    split at h
    · rename_i hd
      obtain ⟨rfl, hs⟩ := hd
      obtain ⟨t, rfl⟩ := List.head?_eq_some_iff.mp hs
      simp only [List.tail_cons, Option.some.injEq, Prod.mk.injEq] at h
      obtain ⟨rfl, rfl⟩ := h
      rfl
    · obtain ⟨⟨l', r'⟩, hcut, heq⟩ := Option.map_eq_some_iff.mp h
      simp only [Prod.mk.injEq] at heq
      obtain ⟨rfl, rfl⟩ := heq
      rw [ih hcut, List.cons_append]

theorem cutDouble_eq_none {c : Char} {s : Text} (h : s.count c ≤ 1) : cutDouble c s = none := by
  cases hcut : cutDouble c s with
  | none => rfl
  | some parts =>
    obtain ⟨l, r⟩ := parts
    rw [eq_append_of_cutDouble hcut, List.count_append, List.count_cons_self,
      List.count_cons_self] at h
    omega

/-! ## Numbers -/

/-- The value of an ASCII decimal digit. -/
def decimalDigit (c : Char) : Option ℕ :=
  if '0' ≤ c ∧ c ≤ '9' then some (c.toNat - '0'.toNat) else none

/-- The value of an ASCII hexadecimal digit of either case. -/
def hexDigit (c : Char) : Option ℕ :=
  if '0' ≤ c ∧ c ≤ '9' then some (c.toNat - '0'.toNat)
  else if 'a' ≤ c ∧ c ≤ 'f' then some (c.toNat - 'a'.toNat + 10)
  else if 'A' ≤ c ∧ c ≤ 'F' then some (c.toNat - 'A'.toNat + 10)
  else none

/-- The digits of a text appended to a number that has been read so far. -/
def readDigits (base : ℕ) (digit : Char → Option ℕ) : ℕ → Text → Option ℕ
  | acc, [] => some acc
  | acc, c :: s =>
    match digit c with
    | none => none
    | some d => readDigits base digit (acc * base + d) s

/-- A decimal number without a sign. -/
def parseDecimal (s : Text) : Option ℕ :=
  if s = [] then none else readDigits 10 decimalDigit 0 s

/-- A hexadecimal number without a sign. -/
def parseHex (s : Text) : Option ℕ := if s = [] then none else readDigits 16 hexDigit 0 s

def decimal (n : ℕ) : Text := Nat.toDigits 10 n

/-- In lower case, without leading zeros. -/
def hex (n : ℕ) : Text := Nat.toDigits 16 n

theorem decimalDigit_digitChar {d : ℕ} (h : d < 10) : decimalDigit d.digitChar = some d := by
  interval_cases d <;> decide

theorem hexDigit_digitChar {d : ℕ} (h : d < 16) : hexDigit d.digitChar = some d := by
  interval_cases d <;> decide

theorem readDigits_append {base : ℕ} {digit : Char → Option ℕ} (s t : Text) (acc : ℕ) :
    readDigits base digit acc (s ++ t) =
      (readDigits base digit acc s).bind fun v => readDigits base digit v t := by
  induction s generalizing acc with
  | nil => rfl
  | cons c s ih =>
    simp only [List.cons_append, readDigits]
    cases digit c with
    | none => rfl
    | some d => exact ih _

/-- A written number reads back. -/
theorem readDigits_toDigits {base : ℕ} {digit : Char → Option ℕ} (hbase : 1 < base)
    (hdigit : ∀ d < base, digit d.digitChar = some d) (n : ℕ) :
    readDigits base digit 0 (Nat.toDigits base n) = some n := by
  induction n using Nat.strong_induction_on with
  | _ n ih =>
    rcases Nat.lt_or_ge n base with hlt | hge
    · simp [Nat.toDigits_of_lt_base hlt, readDigits, hdigit n hlt]
    · have hdiv : n / base < n := Nat.div_lt_self (by omega) hbase
      have hmod : n % base < base := Nat.mod_lt _ (by omega)
      rw [Nat.toDigits_of_base_le hbase hge, readDigits_append, ih _ hdiv]
      simp only [Option.bind_some, readDigits, hdigit _ hmod]
      rw [Nat.div_add_mod']

/-- Reading more digits never makes the number smaller. -/
theorem le_of_readDigits {base : ℕ} {digit : Char → Option ℕ} {s : Text} :
    ∀ {acc v : ℕ}, readDigits base digit acc s = some v → acc * base ^ s.length ≤ v := by
  induction s with
  | nil =>
    intro acc v h
    simp only [readDigits, Option.some.injEq] at h
    simp [h]
  | cons c s ih =>
    intro acc v h
    simp only [readDigits] at h
    cases hc : digit c with
    | none => simp [hc] at h
    | some d =>
      rw [hc] at h
      have hle := ih h
      calc acc * base ^ (s.length + 1) = acc * base * base ^ s.length := by ring
        _ ≤ (acc * base + d) * base ^ s.length := Nat.mul_le_mul_right _ (by omega)
        _ ≤ v := hle

/-- Only digits are read. -/
theorem digit_of_readDigits {base : ℕ} {digit : Char → Option ℕ} {s : Text} :
    ∀ {acc v : ℕ}, readDigits base digit acc s = some v → ∀ c ∈ s, (digit c).isSome := by
  induction s with
  | nil => simp
  | cons c s ih =>
    intro acc v h
    simp only [readDigits] at h
    cases hc : digit c with
    | none => simp [hc] at h
    | some d =>
      rw [hc] at h
      simp only [List.mem_cons, forall_eq_or_imp, hc, Option.isSome_some, true_and]
      exact ih h

theorem acc_le_of_readDigits {base : ℕ} {digit : Char → Option ℕ} (hbase : 0 < base) {s : Text}
    {acc v : ℕ} (h : readDigits base digit acc s = some v) : acc ≤ v :=
  calc acc ≤ acc * base ^ s.length := Nat.le_mul_of_pos_right _ (Nat.pow_pos hbase)
    _ ≤ v := le_of_readDigits h

@[simp] theorem decimal_ne_nil (n : ℕ) : decimal n ≠ [] := Nat.toDigits_ne_nil

@[simp] theorem hex_ne_nil (n : ℕ) : hex n ≠ [] := Nat.toDigits_ne_nil

@[simp] theorem parseDecimal_decimal (n : ℕ) : parseDecimal (decimal n) = some n := by
  simp only [parseDecimal, decimal_ne_nil, if_false]
  exact readDigits_toDigits (by omega) (fun _ => decimalDigit_digitChar) n

@[simp] theorem parseHex_hex (n : ℕ) : parseHex (hex n) = some n := by
  simp only [parseHex, hex_ne_nil, if_false]
  exact readDigits_toDigits (by omega) (fun _ => hexDigit_digitChar) n

theorem length_decimal_le {n k : ℕ} (hk : 0 < k) : (decimal n).length ≤ k ↔ n < 10 ^ k :=
  Nat.length_toDigits_le_iff (by omega) hk

theorem length_hex_le {n k : ℕ} (hk : 0 < k) : (hex n).length ≤ k ↔ n < 16 ^ k :=
  Nat.length_toDigits_le_iff (by omega) hk

/-- Every character of a written number is a digit. -/
theorem mem_toDigits {base : ℕ} (hbase : 1 < base) {n : ℕ} {c : Char}
    (h : c ∈ Nat.toDigits base n) : ∃ d < base, c = d.digitChar := by
  induction n using Nat.strong_induction_on with
  | _ n ih =>
    rcases Nat.lt_or_ge n base with hlt | hge
    · rw [Nat.toDigits_of_lt_base hlt, List.mem_singleton] at h
      exact ⟨n, hlt, h⟩
    · rw [Nat.toDigits_of_base_le hbase hge, List.mem_append, List.mem_singleton] at h
      rcases h with h | h
      · exact ih _ (Nat.div_lt_self (by omega) hbase) h
      · exact ⟨n % base, Nat.mod_lt _ (by omega), h⟩

theorem decimalDigit_of_mem_decimal {n : ℕ} {c : Char} (h : c ∈ decimal n) :
    (decimalDigit c).isSome := by
  obtain ⟨d, hd, rfl⟩ := mem_toDigits (by omega) h
  rw [decimalDigit_digitChar hd, Option.isSome_some]

theorem hexDigit_of_mem_hex {n : ℕ} {c : Char} (h : c ∈ hex n) : (hexDigit c).isSome := by
  obtain ⟨d, hd, rfl⟩ := mem_toDigits (by omega) h
  rw [hexDigit_digitChar hd, Option.isSome_some]

/-- Only zero is written with a leading zero. -/
theorem head_decimal_ne_zero {n : ℕ} (h : n ≠ 0) : (decimal n).head? ≠ some '0' := by
  unfold decimal
  induction n using Nat.strong_induction_on with
  | _ n ih =>
    rcases Nat.lt_or_ge n 10 with hlt | hge
    · rw [Nat.toDigits_of_lt_base hlt]
      interval_cases n <;> simp_all
    · rw [Nat.toDigits_of_base_le (by omega) hge, List.head?_append_of_ne_nil _ Nat.toDigits_ne_nil]
      exact ih _ (by omega) (by omega)

theorem head_decimal_of_length {n : ℕ} (h : 1 < (decimal n).length) :
    (decimal n).head? ≠ some '0' := by
  apply head_decimal_ne_zero
  rintro rfl
  simp [decimal] at h

end Throned.Library
