import Mathlib.Data.List.Basic
import Mathlib.Data.List.Infix

/-!
# Bytes read as runes

A text of bytes is read rune by rune: a rune is the UTF-8 encoding of a character, or one byte
that starts no such encoding.  A byte below 128 is always a rune of its own, so what stands before
it and what stands behind it are read apart.
-/

set_option autoImplicit false

namespace Throned.Library

abbrev ByteText := List UInt8

/-- The bytes of a text. -/
def encode (text : List Char) : ByteText := text.flatMap String.utf8EncodeChar

/-- What a rune is read as, and its own bytes. -/
structure Rune where
  value : Char
  bytes : ByteText
  deriving DecidableEq, Repr

/-- What a byte is read as that starts no character. -/
def runeError : Char := '\uFFFD'

/-- The number that the bytes of an encoding spell. -/
def spelledNumber : ByteText → ℕ
  | [] => 0
  | [a] => a.toNat
  | [a, b] => a.toNat % 32 * 64 + b.toNat % 64
  | [a, b, c] => (a.toNat % 16 * 64 + b.toNat % 64) * 64 + c.toNat % 64
  | a :: b :: c :: d :: _ =>
    ((a.toNat % 8 * 64 + b.toNat % 64) * 64 + c.toNat % 64) * 64 + d.toNat % 64

/-- The character that some bytes encode. -/
def charOf (bytes : ByteText) : Option Char :=
  let c := Char.ofNat (spelledNumber bytes)
  if String.utf8EncodeChar c = bytes then some c else none

/-- The character that the first `k` bytes encode. -/
def charAt (s : ByteText) (k : ℕ) : Option Rune :=
  if k ≤ s.length then (charOf (s.take k)).map fun c => ⟨c, s.take k⟩ else none

/-- The first rune of a text that starts with the byte `b`. -/
def firstRune (b : UInt8) (s : ByteText) : Rune :=
  (([1, 2, 3, 4].findSome? (charAt (b :: s)))).getD ⟨runeError, [b]⟩

def runesFrom : ℕ → ByteText → List Rune
  | 0, _ => []
  | _ + 1, [] => []
  | n + 1, b :: s =>
    let r := firstRune b s
    r :: runesFrom n ((b :: s).drop r.bytes.length)

/-- The runes of a text. -/
def runes (s : ByteText) : List Rune := runesFrom s.length s

/-- The bytes of some runes. -/
def bytesOf (rs : List Rune) : ByteText := rs.flatMap (·.bytes)

@[simp] theorem bytesOf_nil : bytesOf [] = [] := rfl

@[simp] theorem bytesOf_cons (r : Rune) (rs : List Rune) :
    bytesOf (r :: rs) = r.bytes ++ bytesOf rs := rfl

@[simp] theorem bytesOf_append (l r : List Rune) : bytesOf (l ++ r) = bytesOf l ++ bytesOf r :=
  List.flatMap_append

/-! ## Encodings -/

theorem toNat_ofNat_byte {n : ℕ} (h : n < 256) : (UInt8.ofNat n).toNat = n :=
  Nat.mod_eq_of_lt h

/-- A character is one byte below 128, or bytes from 128 on. -/
theorem utf8EncodeChar_cases (c : Char) :
    (c.toNat < 128 ∧ String.utf8EncodeChar c = [UInt8.ofNat c.toNat]) ∨
      (128 ≤ c.toNat ∧ ∀ b ∈ String.utf8EncodeChar c, 128 ≤ b.toNat) := by
  have hbyte : ∀ n, 128 ≤ n % 256 → 128 ≤ (UInt8.ofNat n).toNat := fun n h => h
  unfold String.utf8EncodeChar
  simp only
  split
  next h => exact Or.inl ⟨Nat.lt_succ_of_le h, rfl⟩
  next h =>
    refine Or.inr ⟨not_le.mp h, ?_⟩
    split
    next =>
      intro b hb
      simp only [List.mem_cons, List.not_mem_nil, or_false] at hb
      rcases hb with rfl | rfl <;> exact hbyte _ (by omega)
    next =>
      split
      next =>
        intro b hb
        simp only [List.mem_cons, List.not_mem_nil, or_false] at hb
        rcases hb with rfl | rfl | rfl <;> exact hbyte _ (by omega)
      next =>
        intro b hb
        simp only [List.mem_cons, List.not_mem_nil, or_false] at hb
        rcases hb with rfl | rfl | rfl | rfl <;> exact hbyte _ (by omega)

theorem utf8EncodeChar_of_charOf {bytes : ByteText} {c : Char} (h : charOf bytes = some c) :
    String.utf8EncodeChar c = bytes := by
  unfold charOf at h
  simp only at h
  split at h
  next heq => rwa [Option.some.inj h] at heq
  next => simp at h

/-- A character is found where its bytes are. -/
theorem charAt_eq_some {s : ByteText} {k : ℕ} {r : Rune} (h : charAt s k = some r) :
    r.bytes = s.take k ∧ String.utf8EncodeChar r.value = r.bytes ∧ k ≤ s.length := by
  unfold charAt at h
  split at h
  next hk =>
    obtain ⟨c, hc, rfl⟩ := Option.map_eq_some_iff.mp h
    exact ⟨rfl, utf8EncodeChar_of_charOf hc, hk⟩
  next => simp at h

/-- The first rune is a part of its text, and not empty. -/
theorem firstRune_spec (b : UInt8) (s : ByteText) :
    (firstRune b s).bytes <+: b :: s ∧ (firstRune b s).bytes ≠ [] := by
  unfold firstRune
  cases hfound : [1, 2, 3, 4].findSome? (charAt (b :: s)) with
  | none => exact ⟨by simp, by simp⟩
  | some r =>
    obtain ⟨k, hk, hr⟩ := List.exists_of_findSome?_eq_some hfound
    obtain ⟨hbytes, hencode, -⟩ := charAt_eq_some hr
    exact ⟨hbytes ▸ List.take_prefix k _, hencode ▸ String.utf8EncodeChar_ne_nil⟩

theorem toNat_ofNat_ascii {b : UInt8} (h : b.toNat < 128) : (Char.ofNat b.toNat).toNat = b.toNat := by
  have hvalid : Nat.isValidChar b.toNat := Or.inl (by omega)
  unfold Char.ofNat
  rw [dif_pos hvalid]
  rfl

/-- A byte below 128 is a rune of its own. -/
theorem firstRune_ascii {b : UInt8} (h : b.toNat < 128) (s : ByteText) :
    firstRune b s = ⟨Char.ofNat b.toNat, [b]⟩ := by
  have hnat := toNat_ofNat_ascii h
  have hencode : String.utf8EncodeChar (Char.ofNat b.toNat) = [b] := by
    rcases utf8EncodeChar_cases (Char.ofNat b.toNat) with ⟨-, heq⟩ | ⟨hge, -⟩
    · rw [heq, hnat]
      simp
    · omega
  have hchar : charOf [b] = some (Char.ofNat b.toNat) := by
    simp only [charOf, spelledNumber, hencode, if_pos]
  have hat : charAt (b :: s) 1 = some ⟨Char.ofNat b.toNat, [b]⟩ := by
    simp [charAt, hchar]
  simp [firstRune, hat]

/-- A byte below 128 stops a rune that starts before it. -/
theorem firstRune_append {a : UInt8} (ha : a.toNat < 128) (b : UInt8) (s rest : ByteText) :
    firstRune b (s ++ a :: rest) = firstRune b s := by
  have hat : ∀ k, charAt (b :: (s ++ a :: rest)) k = charAt (b :: s) k := by
    intro k
    by_cases hk : k ≤ (b :: s).length
    · have htake : (b :: (s ++ a :: rest)).take k = (b :: s).take k := by
        rw [← List.cons_append, List.take_append_of_le_length hk]
      have hlength : k ≤ (b :: (s ++ a :: rest)).length := by
        simp only [List.length_cons, List.length_append] at hk ⊢
        omega
      rw [charAt, charAt, if_pos hk, if_pos hlength, htake]
    · rw [show charAt (b :: s) k = none from if_neg hk]
      cases hfound : charAt (b :: (s ++ a :: rest)) k with
      | none => rfl
      | some r =>
        exfalso
        obtain ⟨hbytes, hencode, -⟩ := charAt_eq_some hfound
        have hin : a ∈ r.bytes := by
          rw [hbytes, ← List.cons_append, List.take_append, List.mem_append]
          right
          obtain ⟨m, hm⟩ : ∃ m, k - (b :: s).length = m + 1 := ⟨k - (b :: s).length - 1, by omega⟩
          rw [hm]
          simp
        have htwo : 2 ≤ r.bytes.length := by
          rw [hbytes, List.length_take]
          simp only [List.length_cons, List.length_append] at hk ⊢
          omega
        rcases utf8EncodeChar_cases r.value with ⟨-, heq⟩ | ⟨-, hall⟩
        · rw [← hencode, heq] at htwo
          simp at htwo
        · have hge := hall a (hencode ▸ hin)
          omega
  unfold firstRune
  rw [show charAt (b :: (s ++ a :: rest)) = charAt (b :: s) from funext hat]

/-! ## Runes of a text -/

theorem runesFrom_eq {n : ℕ} {s : ByteText} (h : s.length ≤ n) : runesFrom n s = runes s := by
  have hfuel : ∀ (m n : ℕ) (s : ByteText), s.length ≤ m → s.length ≤ n →
      runesFrom m s = runesFrom n s := by
    intro m
    induction m with
    | zero =>
      intro n s hm _
      rw [List.eq_nil_of_length_eq_zero (Nat.le_zero.mp hm)]
      cases n <;> rfl
    | succ m ih =>
      intro n s hm hn
      cases s with
      | nil => cases n <;> rfl
      | cons b s =>
        cases n with
        | zero => simp at hn
        | succ n =>
          have hpos := List.length_pos_iff.mpr (firstRune_spec b s).2
          simp only [List.length_cons] at hm hn
          simp only [runesFrom]
          rw [ih n]
          · simp only [List.length_drop, List.length_cons]
            omega
          · simp only [List.length_drop, List.length_cons]
            omega
  exact hfuel n s.length s h le_rfl

@[simp] theorem runes_nil : runes [] = [] := rfl

theorem runes_cons (b : UInt8) (s : ByteText) :
    runes (b :: s) = firstRune b s :: runes ((b :: s).drop (firstRune b s).bytes.length) := by
  have hpos := List.length_pos_iff.mpr (firstRune_spec b s).2
  have hlength : ((b :: s).drop (firstRune b s).bytes.length).length ≤ s.length := by
    simp only [List.length_drop, List.length_cons]
    omega
  rw [← runesFrom_eq hlength]
  rfl

/-- The runes of a text are the text. -/
@[simp] theorem bytesOf_runes (s : ByteText) : bytesOf (runes s) = s := by
  induction hn : s.length using Nat.strong_induction_on generalizing s with
  | _ n ih =>
    cases s with
    | nil => rfl
    | cons b s =>
      obtain ⟨⟨rest, hrest⟩, hne⟩ := firstRune_spec b s
      have hpos := List.length_pos_iff.mpr hne
      have hdrop : (b :: s).drop (firstRune b s).bytes.length = rest := by
        rw [← hrest, List.drop_left]
      rw [runes_cons, bytesOf_cons, hdrop, ih rest.length _ rest rfl, hrest]
      rw [← hn, ← hrest, List.length_append]
      omega

theorem runes_ascii_cons {a : UInt8} (ha : a.toNat < 128) (s : ByteText) :
    runes (a :: s) = ⟨Char.ofNat a.toNat, [a]⟩ :: runes s := by
  rw [runes_cons, firstRune_ascii ha]
  rfl

theorem bytes_ne_nil_of_mem_runes {s : ByteText} {r : Rune} (h : r ∈ runes s) : r.bytes ≠ [] := by
  induction hn : s.length using Nat.strong_induction_on generalizing s with
  | _ n ih =>
    cases s with
    | nil => simp at h
    | cons b s =>
      have hne := (firstRune_spec b s).2
      have hpos := List.length_pos_iff.mpr hne
      rw [runes_cons] at h
      rcases List.mem_cons.mp h with rfl | hlater
      · exact hne
      · refine ih _ ?_ hlater rfl
        rw [← hn, List.length_drop, List.length_cons]
        omega

/-- **A byte below 128 parts a text.** -/
theorem runes_append {a : UInt8} (ha : a.toNat < 128) (l rest : ByteText) :
    runes (l ++ a :: rest) = runes l ++ runes (a :: rest) := by
  induction hn : l.length using Nat.strong_induction_on generalizing l with
  | _ n ih =>
    cases l with
    | nil => rfl
    | cons b l =>
      obtain ⟨hstarts, hne⟩ := firstRune_spec b l
      have hpos := List.length_pos_iff.mpr hne
      have hle := hstarts.length_le
      have hdrop : (b :: l ++ a :: rest).drop (firstRune b l).bytes.length =
          (b :: l).drop (firstRune b l).bytes.length ++ a :: rest :=
        List.drop_append_of_le_length hle
      rw [List.cons_append, runes_cons, firstRune_append ha, ← List.cons_append, hdrop,
        runes_cons b l, List.cons_append, ih _ _ _ rfl]
      rw [← hn, List.length_drop]
      omega

/-! ## Positions -/

/-- Where `sub` first stands in a text. -/
def indexOf (sub : ByteText) : ByteText → Option ℕ
  | [] => if sub = [] then some 0 else none
  | b :: s => if sub <+: b :: s then some 0 else (indexOf sub s).map (· + 1)

theorem indexOf_of_isPrefix {sub s : ByteText} (h : sub <+: s) : indexOf sub s = some 0 := by
  cases s with
  | nil => rw [indexOf, if_pos (List.prefix_nil.mp h)]
  | cons b s => rw [indexOf, if_pos h]

/-- Nothing is found where a text cannot start. -/
theorem indexOf_append {sub l s : ByteText}
    (h : ∀ i < l.length, ¬ sub <+: (l ++ s).drop i) :
    indexOf sub (l ++ s) = (indexOf sub s).map (· + l.length) := by
  induction l with
  | nil => simp
  | cons b l ih =>
    have hnot : ¬ sub <+: b :: (l ++ s) := h 0 (by simp)
    have hrest := ih fun i hi => h (i + 1) (by simpa using hi)
    rw [List.cons_append, indexOf, if_neg hnot, hrest, Option.map_map]
    rfl

/-- **A text is found exactly where it is contained.** -/
theorem isSome_indexOf_iff {sub s : ByteText} : (indexOf sub s).isSome = true ↔ sub <:+: s := by
  induction s with
  | nil => simp [indexOf, List.infix_nil]
  | cons b s ih =>
    unfold indexOf
    split
    next h => exact iff_of_true rfl h.isInfix
    next h => rw [Option.isSome_map, ih, List.infix_cons_iff, or_iff_right h]

theorem eq_append_of_indexOf {sub s : ByteText} {at' : ℕ} (h : indexOf sub s = some at') :
    s = s.take at' ++ sub ++ s.drop (at' + sub.length) := by
  induction s generalizing at' with
  | nil =>
    unfold indexOf at h
    split at h
    next hsub => simp [hsub]
    next => simp at h
  | cons b s ih =>
    unfold indexOf at h
    split at h
    next hstarts =>
      obtain ⟨rest, hrest⟩ := hstarts
      obtain rfl : 0 = at' := Option.some.inj h
      rw [← hrest]
      simp
    next =>
      obtain ⟨i, hi, rfl⟩ := Option.map_eq_some_iff.mp h
      have heq := ih hi
      rw [show i + 1 + sub.length = i + sub.length + 1 by omega, List.take_succ_cons,
        List.drop_succ_cons, List.cons_append, List.cons_append, ← heq]

end Throned.Library
