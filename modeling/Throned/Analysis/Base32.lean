import Throned.Library.Bits
import Throned.Model.OtpExports

/-!
# Secrets are keys

Base32 cuts the bits of a key into groups of five.  Reading them back gives the key, and a secret
is normalised once.
-/

set_option autoImplicit false

namespace Throned.OTP

open Throned.Library

/-- The bits of a byte. -/
def byteBits (byte : UInt8) : List Bool := bits 8 byte.toNat

/-- The bits of a letter. -/
def charBits (c : Char) : List Bool := bits 5 ((base32Value c).getD 0).toNat

/-- A letter of the alphabet, of either case. -/
structure Base32Letter (c : Char) : Prop where
  visible : isBase32Space c = false
  value : ∃ v, base32Value c = some v ∧ v.toNat < 2 ^ 5

theorem byteBits_inj {x y : UInt8} (h : byteBits x = byteBits y) : x = y :=
  UInt8.toNat_inj.mp (bits_inj x.toNat_lt y.toNat_lt h)

/-! ## Writing -/

theorem letter_of_value (n : ℕ) (hn : n < 32) :
    isBase32Space (BASE32_ALPHABET.getD n 'A') = false ∧
      base32Value (BASE32_ALPHABET.getD n 'A') = some (UInt32.ofNat n) := by
  interval_cases n <;> decide

theorem mask_toNat (value : UInt32) : (value &&& 0x1f).toNat = value.toNat % 2 ^ 5 := by
  rw [UInt32.toNat_and]
  exact Nat.and_two_pow_sub_one_eq_mod value.toNat 5

theorem base32Letter_base32Char (value : UInt32) : Base32Letter (base32Char value) := by
  have hlt : (value &&& 0x1f).toNat < 32 := by
    rw [mask_toNat]
    exact Nat.mod_lt _ (by decide)
  obtain ⟨hvisible, hvalue⟩ := letter_of_value _ hlt
  refine ⟨hvisible, _, hvalue, ?_⟩
  rw [UInt32.toNat_ofNat']
  omega

/-- A letter has the five low bits of its value. -/
theorem charBits_base32Char (value : UInt32) : charBits (base32Char value) = bits 5 value.toNat := by
  have hlt : (value &&& 0x1f).toNat < 32 := by
    rw [mask_toNat]
    exact Nat.mod_lt _ (by decide)
  have hsmall : (UInt32.ofNat (value &&& 0x1f).toNat).toNat = value.toNat % 2 ^ 5 := by
    rw [UInt32.toNat_ofNat', mask_toNat]
    omega
  unfold charBits base32Char
  rw [(letter_of_value _ hlt).2, Option.getD_some, hsmall, bits_mod]

/-- The letters that are emitted have the bits that went in, but for fewer than five. -/
theorem base32Emit_spec (buffer : UInt32) (bitsLeft : ℕ) (hleft : bitsLeft ≤ 32) :
    (base32Emit buffer bitsLeft).2 < 5 ∧
      (∀ c ∈ (base32Emit buffer bitsLeft).1, Base32Letter c) ∧
      (base32Emit buffer bitsLeft).1.flatMap charBits ++
        bits (base32Emit buffer bitsLeft).2 buffer.toNat = bits bitsLeft buffer.toNat := by
  fun_induction base32Emit buffer bitsLeft with
  | case1 bitsLeft out left heq ih =>
    rw [heq] at ih
    obtain ⟨hrest, hletters, hbits⟩ := ih (by omega)
    refine ⟨hrest, ?_, ?_⟩
    · intro c hc
      obtain rfl | hc := List.mem_cons.mp hc
      · exact base32Letter_base32Char _
      · exact hletters c hc
    · have hout := bits_shiftOut (k := bitsLeft) (w := 5) (by omega) buffer
      rw [Nat.add_comm 5 bitsLeft] at hout
      rw [hout, ← hbits, List.flatMap_cons, List.append_assoc, charBits_base32Char]
  | case2 bitsLeft hsmall =>
    have hlt : bitsLeft < 5 := by
      by_contra hge
      exact hsmall (bitsLeft - 5) (by omega)
    exact ⟨hlt, fun c hc => absurd hc List.not_mem_nil, rfl⟩

/-- What is written has the bits that were left, those of the bytes, and fewer than five more. -/
theorem base32EncodeLoop_spec (input : List UInt8) :
    ∀ (buffer : UInt32) (bitsLeft : ℕ), bitsLeft < 5 →
      (∀ c ∈ base32EncodeLoop buffer bitsLeft input, Base32Letter c) ∧
      ∃ padding, padding.length < 5 ∧
        (base32EncodeLoop buffer bitsLeft input).flatMap charBits =
          bits bitsLeft buffer.toNat ++ input.flatMap byteBits ++ padding := by
  induction input with
  | nil =>
    intro buffer bitsLeft hleft
    unfold base32EncodeLoop
    split
    · rename_i hpos
      refine ⟨fun c hc => List.mem_singleton.mp hc ▸ base32Letter_base32Char _,
        bits (5 - bitsLeft) 0, ?_, ?_⟩
      · rw [length_bits]
        omega
      · have hshift := bits_shiftIn (k := bitsLeft) (w := 5 - bitsLeft) (by omega) (by omega) buffer 0
          (Nat.two_pow_pos _)
        rw [UInt32.or_zero, show bitsLeft + (5 - bitsLeft) = 5 by omega] at hshift
        rw [List.flatMap_cons, List.flatMap_nil, charBits_base32Char, hshift]
        simp
    · have hzero : bitsLeft = 0 := by omega
      subst hzero
      exact ⟨fun c hc => absurd hc List.not_mem_nil, [], by decide, rfl⟩
  | cons c input ih =>
    intro buffer bitsLeft hleft
    have hbyte : c.toUInt32.toNat < 2 ^ 8 := by
      rw [UInt8.toNat_toUInt32]
      exact c.toNat_lt
    have hin : bits (bitsLeft + 8) ((buffer <<< 8) ||| c.toUInt32).toNat =
        bits bitsLeft buffer.toNat ++ byteBits c := by
      have hshift := bits_shiftIn (k := bitsLeft) (w := 8) (by omega) (by decide) buffer _ hbyte
      rwa [UInt8.toNat_toUInt32] at hshift
    obtain ⟨hrest, hletters, hbits⟩ :=
      base32Emit_spec ((buffer <<< 8) ||| c.toUInt32) (bitsLeft + 8) (by omega)
    obtain ⟨hlater, padding, hpadding, hall⟩ := ih ((buffer <<< 8) ||| c.toUInt32) _ hrest
    rw [base32EncodeLoop]
    refine ⟨?_, padding, hpadding, ?_⟩
    · intro d hd
      obtain hd | hd := List.mem_append.mp hd
      · exact hletters d hd
      · exact hlater d hd
    · rw [List.flatMap_append, hall, ← List.append_assoc, ← List.append_assoc, hbits, hin,
        List.flatMap_cons]
      simp only [List.append_assoc]

/-! ## Reading -/

/-- What is read has the bits that were left and those of the letters, without the last few. -/
theorem base32Loop_spec {text : Text} (hletters : ∀ c ∈ text, Base32Letter c) :
    ∀ (buffer : UInt32) (bitsLeft : ℕ) (out : List UInt8), bitsLeft < 8 →
      ∃ read rest, base32Loop buffer bitsLeft out text = some (out ++ read) ∧ rest.length < 8 ∧
        bits bitsLeft buffer.toNat ++ text.flatMap charBits = read.flatMap byteBits ++ rest := by
  induction text with
  | nil =>
    intro buffer bitsLeft out hleft
    refine ⟨[], bits bitsLeft buffer.toNat, by rw [List.append_nil]; rfl, ?_, by simp⟩
    rw [length_bits]
    exact hleft
  | cons c text ih =>
    intro buffer bitsLeft out hleft
    have hrest := fun d hd => hletters d (List.mem_cons_of_mem c hd)
    obtain ⟨hvisible, v, hvalue, hv⟩ := hletters c List.mem_cons_self
    have hchar : charBits c = bits 5 v.toNat := by
      unfold charBits
      rw [hvalue, Option.getD_some]
    have hin : bits (bitsLeft + 5) ((buffer <<< 5) ||| v).toNat =
        bits bitsLeft buffer.toNat ++ charBits c := by
      rw [hchar]
      exact bits_shiftIn (w := 5) (by omega) (by decide) buffer v hv
    rw [base32Loop, hvisible, hvalue]
    simp only [Bool.false_eq_true, if_false]
    split
    · rename_i hfull
      have hout : bits (bitsLeft + 5) ((buffer <<< 5) ||| v).toNat =
          byteBits (((buffer <<< 5) ||| v) >>> UInt32.ofNat (bitsLeft + 5 - 8)).toUInt8 ++
            bits (bitsLeft + 5 - 8) ((buffer <<< 5) ||| v).toNat := by
        have hshift := bits_shiftOut (k := bitsLeft + 5 - 8) (w := 8) (by omega) ((buffer <<< 5) ||| v)
        rw [show 8 + (bitsLeft + 5 - 8) = bitsLeft + 5 by omega] at hshift
        rw [hshift, byteBits, UInt32.toNat_toUInt8, bits_mod]
      obtain ⟨read, rest, hread, hlength, hbits⟩ := ih hrest ((buffer <<< 5) ||| v)
        (bitsLeft + 5 - 8) (out ++ [(((buffer <<< 5) ||| v) >>>
          UInt32.ofNat (bitsLeft + 5 - 8)).toUInt8]) (by omega)
      refine ⟨_ :: read, rest, by rw [hread, List.append_assoc]; rfl, hlength, ?_⟩
      rw [List.flatMap_cons, List.flatMap_cons, List.append_assoc, ← hbits, ← List.append_assoc,
        ← List.append_assoc, ← hout, hin]
    · rename_i hopen
      obtain ⟨read, rest, hread, hlength, hbits⟩ := ih hrest ((buffer <<< 5) ||| v)
        (bitsLeft + 5) out (by omega)
      refine ⟨read, rest, hread, hlength, ?_⟩
      rw [← hbits, hin, List.flatMap_cons, List.append_assoc]

/-- **A key reads back from its secret.** -/
theorem Base32Decode_Base32Encode (key : List UInt8) :
    Base32Decode (Base32Encode key) = some key := by
  obtain ⟨hletters, padding, hpadding, hwritten⟩ :=
    base32EncodeLoop_spec key 0 0 (by decide)
  obtain ⟨read, rest, hread, hrest, hbits⟩ :=
    base32Loop_spec hletters 0 0 [] (by decide)
  rw [hwritten] at hbits
  have hlength : ∀ x, (byteBits x).length = 8 := fun x => length_bits 8 x.toNat
  obtain ⟨rfl, -⟩ := groups_unique hlength (fun x y => byteBits_inj)
    (hpadding.trans (by decide)) hrest hbits
  rw [Base32Decode, Base32Encode, hread, List.nil_append]

/-! ## Normalised secrets -/

theorem NormalizeSecret_of_key {secret : Text} {key : List UInt8}
    (hdecode : Base32Decode secret = some key) (hkey : key ≠ []) :
    NormalizeSecret secret = Base32Encode key := by
  unfold NormalizeSecret
  rw [hdecode]
  split
  · rename_i hnone
    cases hnone
  · rename_i hempty
    exact absurd (Option.some.inj hempty) hkey
  · rename_i hsome
    rw [Option.some.inj hsome]

theorem Base32Encode_ne_nil {key : List UInt8} (hkey : key ≠ []) : Base32Encode key ≠ [] := by
  intro hempty
  have hdecode := Base32Decode_Base32Encode key
  rw [hempty] at hdecode
  exact hkey (Option.some.inj hdecode).symm

/-- **Normalising a secret again changes nothing.** -/
theorem NormalizeSecret_idempotent (secret : Text) :
    NormalizeSecret (NormalizeSecret secret) = NormalizeSecret secret := by
  cases hdecode : Base32Decode secret with
  | none =>
    have hempty : NormalizeSecret secret = [] := by
      unfold NormalizeSecret
      rw [hdecode]
    rw [hempty]
    rfl
  | some key =>
    rcases eq_or_ne key [] with rfl | hkey
    · have hempty : NormalizeSecret secret = [] := by
        unfold NormalizeSecret
        rw [hdecode]
      rw [hempty]
      rfl
    · rw [NormalizeSecret_of_key hdecode hkey]
      exact NormalizeSecret_of_key (Base32Decode_Base32Encode key) hkey

/-- **A normalised secret has the key of the secret.** -/
theorem Base32Decode_NormalizeSecret {secret : Text} {key : List UInt8}
    (hdecode : Base32Decode secret = some key) :
    Base32Decode (NormalizeSecret secret) = some key := by
  rcases eq_or_ne key [] with rfl | hkey
  · have hempty : NormalizeSecret secret = [] := by
      unfold NormalizeSecret
      rw [hdecode]
    rw [hempty]
    rfl
  · rw [NormalizeSecret_of_key hdecode hkey, Base32Decode_Base32Encode]

theorem Base32Letter.isSpace {c : Char} (h : Base32Letter c) : isSpace c = false := by
  obtain ⟨v, hvalue, -⟩ := h.value
  have hrange : (65 ≤ c.val.toNat ∧ c.val.toNat ≤ 122) ∨ (50 ≤ c.val.toNat ∧ c.val.toNat ≤ 55) := by
    unfold base32Value at hvalue
    split at hvalue
    · rename_i hupper
      have hlow : 65 ≤ c.val.toNat := hupper.1
      have hhigh : c.val.toNat ≤ 90 := hupper.2
      omega
    · split at hvalue
      · rename_i hlower
        have hlow : 97 ≤ c.val.toNat := hlower.1
        have hhigh : c.val.toNat ≤ 122 := hlower.2
        omega
      · split at hvalue
        · rename_i hdigit
          have hlow : 50 ≤ c.val.toNat := hdigit.1
          have hhigh : c.val.toNat ≤ 55 := hdigit.2
          omega
        · cases hvalue
  unfold Library.isSpace
  simp only [Bool.or_eq_false_iff, Bool.and_eq_false_iff, beq_eq_false_iff_ne,
    decide_eq_false_iff_not, UInt32.le_iff_toNat_le, ne_eq, ← UInt32.toNat_inj,
    UInt32.reduceToNat]
  omega

/-- A written secret is not trimmed. -/
theorem trimSpace_Base32Encode (key : List UInt8) :
    trimSpace (Base32Encode key) = Base32Encode key := by
  obtain ⟨hletters, -⟩ := base32EncodeLoop_spec key 0 0 (by decide)
  exact trimSpace_eq_self fun c hc => (hletters c hc).isSpace

end Throned.OTP
