import Mathlib.Tactic.Choose
import Throned.Library.NetipBits
import Throned.Library.NetipText
import Throned.Model.SubtractPrefix

/-!
# Ranges without the hole

The bytes of a prefix are read and flipped as the bits of its address, so a hole is cut out of a
list of ranges exactly: what lies inside goes, what lies outside stays as it is written, and a
range around the hole becomes the siblings on the way down to it.
-/

set_option autoImplicit false

namespace Throned.Configs

open Throned.Library

/-! ## Bits of bytes -/

/-- Bit `i` of some bytes, counted from the highest bit of the first byte. -/
def byteBit (bytes : List UInt8) (i : ℕ) : Bool := (bytes.getD (i / 8) 0).toNat.testBit (7 - i % 8)

theorem uint8_eq_of_bits {a b : UInt8} (h : ∀ j < 8, a.toNat.testBit j = b.toNat.testBit j) :
    a = b := by
  apply UInt8.toNat_inj.mp
  apply Nat.eq_of_testBit_eq
  intro j
  by_cases hj : j < 8
  · exact h j hj
  · have hwide : 2 ^ 8 ≤ 2 ^ j := Nat.pow_le_pow_right (by omega) (by omega)
    rw [Nat.testBit_lt_two_pow (a.toNat_lt.trans_le hwide),
      Nat.testBit_lt_two_pow (b.toNat_lt.trans_le hwide)]

theorem testBit_byte (x i : ℕ) (hi : i < 8) :
    (UInt8.ofNat (x &&& 0xff)).toNat.testBit i = x.testBit i := by
  rw [UInt8.toNat_ofNat', Nat.testBit_mod_two_pow, Nat.testBit_and,
    show (0xff : ℕ) = 2 ^ 8 - 1 from rfl, Nat.testBit_two_pow_sub_one]
  simp [hi]

theorem testBit_bitMask : ∀ i < 8, ∀ j < 8, (bitMask i).toNat.testBit (7 - j) = decide (j = i) := by
  decide

theorem testBit_restMask : ∀ r < 8, ∀ j < 8, 0 < r →
    (restMask r).toNat.testBit (7 - j) = decide (j < r) := by
  decide

/-- One bit of one byte is changed. -/
theorem byteBit_set {bytes : List UInt8} {i : ℕ} (hi : i < bytes.length * 8) (b : UInt8)
    (f : Bool → Bool) (hb : ∀ j < 8, b.toNat.testBit (7 - j) =
      if j = i % 8 then f ((bytes.getD (i / 8) 0).toNat.testBit (7 - j))
      else (bytes.getD (i / 8) 0).toNat.testBit (7 - j)) (j : ℕ) :
    byteBit (bytes.set (i / 8) b) j = if j = i then f (byteBit bytes j) else byteBit bytes j := by
  have hbyte : i / 8 < bytes.length := by omega
  unfold byteBit
  by_cases hsame : j / 8 = i / 8
  · have hget : (bytes.set (i / 8) b).getD (j / 8) 0 = b := by
      rw [hsame, List.getD_eq_getElem?_getD, List.getElem?_set_self hbyte, Option.getD_some]
    rw [hget, hb _ (Nat.mod_lt _ (by omega)), hsame]
    by_cases hij : j = i
    · rw [if_pos hij, if_pos (by rw [hij])]
    · rw [if_neg hij, if_neg (by omega)]
  · have hget : (bytes.set (i / 8) b).getD (j / 8) 0 = bytes.getD (j / 8) 0 := by
      rw [List.getD_eq_getElem?_getD, List.getElem?_set_ne (by omega), List.getD_eq_getElem?_getD]
    rw [hget, if_neg (by rintro rfl; exact hsame rfl)]

theorem getElem?_byte {bytes : List UInt8} {i : ℕ} (hi : i < bytes.length * 8) :
    bytes[i / 8]? = some (bytes.getD (i / 8) 0) := by
  rw [List.getElem?_eq_getElem (by omega), List.getD_eq_getElem _ _ (by omega)]

theorem flipBit_spec {bytes : List UInt8} {i : ℕ} (hi : i < bytes.length * 8) :
    ∃ out, flipBit bytes i = some out ∧ out.length = bytes.length ∧
      ∀ j, byteBit out j = if j = i then !byteBit bytes j else byteBit bytes j := by
  refine ⟨bytes.set (i / 8) (bytes.getD (i / 8) 0 ^^^ bitMask (i % 8)), ?_, List.length_set,
    byteBit_set hi _ (fun b => !b) fun j hj => ?_⟩
  · unfold flipBit
    rw [getElem?_byte hi]
    rfl
  · rw [UInt8.toNat_xor, Nat.testBit_xor, testBit_bitMask _ (Nat.mod_lt _ (by omega)) _ hj]
    by_cases hij : j = i % 8 <;> simp [hij]

theorem clearBit_spec {bytes : List UInt8} {i : ℕ} (hi : i < bytes.length * 8) :
    ∃ out, clearBit bytes i = some out ∧ out.length = bytes.length ∧
      ∀ j, byteBit out j = if j = i then false else byteBit bytes j := by
  refine ⟨bytes.set (i / 8) (bytes.getD (i / 8) 0 &&& ~~~bitMask (i % 8)), ?_, List.length_set,
    byteBit_set hi _ (fun _ => false) fun j hj => ?_⟩
  · unfold clearBit
    rw [getElem?_byte hi]
    rfl
  · have hmask : (~~~bitMask (i % 8)).toNat.testBit (7 - j) =
        !(bitMask (i % 8)).toNat.testBit (7 - j) := by
      have hall : ∀ r < 8, ∀ j < 8, (~~~bitMask r).toNat.testBit (7 - j) =
          !(bitMask r).toNat.testBit (7 - j) := by decide
      exact hall _ (Nat.mod_lt _ (by omega)) _ hj
    rw [UInt8.toNat_and, Nat.testBit_and, hmask, testBit_bitMask _ (Nat.mod_lt _ (by omega)) _ hj]
    by_cases hij : j = i % 8 <;> simp [hij]

/-- The clearing loop stays within the address and clears every bit from `start` on. -/
theorem foldlM_clearBit_spec (n : ℕ) : ∀ {start : ℕ} {bytes : List UInt8},
    start + n ≤ bytes.length * 8 → ∃ out,
      (List.range' start n).foldlM clearBit bytes = some out ∧ out.length = bytes.length ∧
        ∀ j, byteBit out j = if start ≤ j ∧ j < start + n then false else byteBit bytes j := by
  induction n with
  | zero =>
    intro start bytes _
    exact ⟨bytes, rfl, rfl, fun j => by rw [if_neg (by omega)]⟩
  | succ n ih =>
    intro start bytes h
    have hstart : start < bytes.length * 8 := by omega
    obtain ⟨cleared, hcleared, hlength, hbits⟩ := clearBit_spec hstart
    have hmore : start + 1 + n ≤ cleared.length * 8 := by omega
    obtain ⟨out, hout, hlen, hrest⟩ := ih hmore
    refine ⟨out, ?_, hlen.trans hlength, fun j => ?_⟩
    · rw [List.range'_succ, List.foldlM_cons, hcleared]
      exact hout
    · rw [hrest, hbits]
      by_cases hfirst : j = start
      · rw [if_neg (by omega), if_pos hfirst, if_pos (by omega)]
      · rw [if_neg hfirst]
        by_cases hlater : start + 1 ≤ j ∧ j < start + 1 + n
        · rw [if_pos hlater, if_pos (by omega)]
        · rw [if_neg hlater, if_neg (by omega)]

/-! ## Bytes of addresses -/

theorem length_addressBytes (a : Addr) : (addressBytes a).length * 8 = a.bitLen := by
  cases a with
  | v4 value => simp [addressBytes, Addr.bitLen]
  | v6 high low => simp [addressBytes, Addr.bitLen]

/-- **The bits of an address are those of its bytes.** -/
theorem byteBit_addressBytes (a : Addr) {i : ℕ} (hi : i < a.bitLen) :
    byteBit (addressBytes a) i = a.bit i := by
  unfold byteBit Addr.bit
  cases a with
  | v4 value =>
    have hbyte : i / 8 < 4 := by
      have : i < 32 := hi
      omega
    have hget : (addressBytes (.v4 value)).getD (i / 8) 0 =
        UInt8.ofNat ((value.toNat >>> (24 - 8 * (i / 8))) &&& 0xff) := by
      rw [addressBytes, List.getD_eq_getElem?_getD, List.getElem?_map,
        List.getElem?_range hbyte]
      rfl
    rw [hget, testBit_byte _ _ (by omega), Nat.testBit_shiftRight]
    show value.toNat.testBit _ = value.toNat.testBit (32 - 1 - i)
    congr 1
    omega
  | v6 high low =>
    have hlen : i < 128 := hi
    have hlow := low.isLt
    show _ = (high.toNat * 2 ^ 64 + low.toNat).testBit (128 - 1 - i)
    rw [Nat.mul_comm, Nat.testBit_two_pow_mul_add _ hlow]
    by_cases hfirst : i < 64
    · have hget : (addressBytes (.v6 high low)).getD (i / 8) 0 =
          UInt8.ofNat ((high.toNat >>> (56 - 8 * (i / 8))) &&& 0xff) := by
        rw [addressBytes, List.getD_eq_getElem?_getD,
          List.getElem?_append_left (by simp only [List.length_map, List.length_range]; omega),
          List.getElem?_map, List.getElem?_range (by omega)]
        rfl
      rw [hget, testBit_byte _ _ (by omega), Nat.testBit_shiftRight, if_neg (by omega)]
      congr 1
      omega
    · have hget : (addressBytes (.v6 high low)).getD (i / 8) 0 =
          UInt8.ofNat ((low.toNat >>> (56 - 8 * (i / 8 - 8))) &&& 0xff) := by
        rw [addressBytes, List.getD_eq_getElem?_getD,
          List.getElem?_append_right (by simp only [List.length_map, List.length_range]; omega),
          List.length_map, List.length_range, List.getElem?_map, List.getElem?_range (by omega)]
        rfl
      rw [hget, testBit_byte _ _ (by omega), Nat.testBit_shiftRight, if_pos (by omega)]
      congr 1
      omega

theorem bytesNumber_concat (bytes : List UInt8) (b : UInt8) :
    bytesNumber (bytes ++ [b]) = (bytesNumber bytes <<< 8) ||| b.toNat := by
  rw [bytesNumber, List.foldl_append]
  rfl

theorem bytesNumber_lt (bytes : List UInt8) : bytesNumber bytes < 2 ^ (8 * bytes.length) := by
  induction bytes using List.reverseRecOn with
  | nil => exact Nat.one_pos
  | append_singleton bytes b ih =>
    rw [bytesNumber_concat, List.length_append, List.length_singleton]
    apply Nat.or_lt_two_pow
    · rw [Nat.shiftLeft_eq, show 8 * (bytes.length + 1) = 8 * bytes.length + 8 by omega, Nat.pow_add]
      exact Nat.mul_lt_mul_of_pos_right ih (by decide)
    · exact b.toNat_lt.trans_le (Nat.pow_le_pow_right (by omega) (by omega))

theorem testBit_bytesNumber (bytes : List UInt8) {i : ℕ} (hi : i < 8 * bytes.length) :
    (bytesNumber bytes).testBit (8 * bytes.length - 1 - i) = byteBit bytes i := by
  induction bytes using List.reverseRecOn generalizing i with
  | nil => exact absurd hi (Nat.not_lt_zero _)
  | append_singleton bytes b ih =>
    rw [List.length_append, List.length_singleton] at hi ⊢
    rw [bytesNumber_concat, Nat.testBit_or, Nat.testBit_shiftLeft]
    by_cases hlast : i < 8 * bytes.length
    · have hhigh : b.toNat.testBit (8 * (bytes.length + 1) - 1 - i) = false :=
        Nat.testBit_lt_two_pow (b.toNat_lt.trans_le
          (Nat.pow_le_pow_right (by omega) (by omega : 8 ≤ 8 * (bytes.length + 1) - 1 - i)))
      have hget : byteBit (bytes ++ [b]) i = byteBit bytes i := by
        unfold byteBit
        rw [List.getD_append _ _ _ _ (by omega)]
      rw [hhigh, Bool.or_false, decide_eq_true (by omega), Bool.true_and, hget, ← ih hlast]
      congr 1
      omega
    · have hget : byteBit (bytes ++ [b]) i = b.toNat.testBit (7 - i % 8) := by
        unfold byteBit
        rw [List.getD_append_right _ _ _ _ (by omega), show i / 8 - bytes.length = 0 by omega]
        rfl
      rw [decide_eq_false (by omega), Bool.false_and, Bool.false_or, hget]
      congr 1
      omega

/-- The family of some bytes is told by their count. -/
theorem addressOfBytes_spec {bytes : List UInt8} {a : Addr}
    (hlength : bytes.length = (addressBytes a).length) :
    (addressOfBytes bytes).is4 = a.is4 ∧
      ∀ i < a.bitLen, (addressOfBytes bytes).bit i = byteBit bytes i := by
  unfold addressOfBytes Addr.bit
  cases a with
  | v4 value =>
    have hfour : bytes.length = 4 := hlength
    have hlt := bytesNumber_lt bytes
    rw [hfour] at hlt
    rw [if_pos hfour]
    refine ⟨rfl, fun i hi => ?_⟩
    show (BitVec.ofNat 32 (bytesNumber bytes)).toNat.testBit (32 - 1 - i) = _
    rw [BitVec.toNat_ofNat, Nat.mod_eq_of_lt hlt, ← testBit_bytesNumber bytes (by
      have : i < 32 := hi
      omega), hfour]
  | v6 high low =>
    have hsixteen : bytes.length = 16 := hlength
    rw [if_neg (by omega)]
    refine ⟨rfl, fun i hi => ?_⟩
    have hi128 : i < 128 := hi
    have hfirst : (bytes.take 8).length = 8 := by rw [List.length_take]; omega
    have hsecond : ((bytes.drop 8).take 8).length = 8 := by
      rw [List.length_take, List.length_drop]
      omega
    have hlt := bytesNumber_lt (bytes.take 8)
    have hlt' := bytesNumber_lt ((bytes.drop 8).take 8)
    rw [hfirst] at hlt
    rw [hsecond] at hlt'
    show ((BitVec.ofNat 64 (bytesNumber (bytes.take 8))).toNat * 2 ^ 64 +
      (BitVec.ofNat 64 (bytesNumber ((bytes.drop 8).take 8))).toNat).testBit (128 - 1 - i) = _
    rw [BitVec.toNat_ofNat, BitVec.toNat_ofNat, Nat.mod_eq_of_lt hlt, Nat.mod_eq_of_lt hlt',
      Nat.mul_comm, Nat.testBit_two_pow_mul_add _ hlt']
    by_cases hhalf : i < 64
    · have hbit := testBit_bytesNumber (bytes.take 8) (i := i) (by omega)
      have hget : byteBit (bytes.take 8) i = byteBit bytes i := by
        unfold byteBit
        rw [List.getD_eq_getElem?_getD, List.getElem?_take_of_lt (by omega),
          List.getD_eq_getElem?_getD]
      rw [if_neg (by omega), ← hget, ← hbit, hfirst]
      congr 1
      omega
    · have hbit := testBit_bytesNumber ((bytes.drop 8).take 8) (i := i - 64) (by omega)
      have hget : byteBit ((bytes.drop 8).take 8) (i - 64) = byteBit bytes i := by
        unfold byteBit
        rw [List.getD_eq_getElem?_getD, List.getElem?_take_of_lt (by omega), List.getElem?_drop,
          List.getD_eq_getElem?_getD, show 8 + (i - 64) / 8 = i / 8 by omega,
          show (i - 64) % 8 = i % 8 by omega]
      rw [if_pos (by omega), ← hget, ← hbit, hsecond]
      congr 1
      omega

theorem addressOfBytes_addressBytes (a : Addr) : addressOfBytes (addressBytes a) = a := by
  obtain ⟨hfamily, hbits⟩ := addressOfBytes_spec (a := a) rfl
  have hlen := Addr.bitLen_congr hfamily
  exact Addr.eq_of_bits hfamily fun i hi => by
    rw [hbits i (hlen ▸ hi), byteBit_addressBytes a (hlen ▸ hi)]

/-! ## One prefix -/

/-- What `parsePrefix` makes of a prefix. -/
def rawPrefix (p : Prefix) : RawPrefix := { addr := addressBytes p.addr, bits := p.bits }

theorem bytes_agree_iff {a b : Addr} (hlength : (addressBytes a).length = (addressBytes b).length)
    (n : ℕ) (hn : n * 8 ≤ a.bitLen) :
    (addressBytes a).take n = (addressBytes b).take n ↔ ∀ i < n * 8, a.bit i = b.bit i := by
  have hlen := length_addressBytes a
  have hlen' := length_addressBytes b
  have hget : ∀ (c : Addr) (i : ℕ), i < c.bitLen →
      c.bit i = ((addressBytes c).getD (i / 8) 0).toNat.testBit (7 - i % 8) := fun c i hi =>
    (byteBit_addressBytes c hi).symm
  constructor
  · intro h i hi
    rw [hget a i (by omega), hget b i (by omega)]
    have hbyte : (addressBytes a)[i / 8]? = (addressBytes b)[i / 8]? := by
      rw [← List.getElem?_take_of_lt (show i / 8 < n by omega), h,
        List.getElem?_take_of_lt (by omega)]
    rw [List.getD_eq_getElem?_getD, hbyte, List.getD_eq_getElem?_getD]
  · intro h
    apply List.ext_getElem?
    intro k
    by_cases hk : k < n
    · rw [List.getElem?_take_of_lt hk, List.getElem?_take_of_lt hk,
        List.getElem?_eq_getElem (by omega), List.getElem?_eq_getElem (by omega)]
      congr 1
      apply uint8_eq_of_bits
      intro j hj
      have hbit := h (k * 8 + (7 - j)) (by omega)
      rw [hget a _ (by omega), hget b _ (by omega), show (k * 8 + (7 - j)) / 8 = k by omega,
        show 7 - (k * 8 + (7 - j)) % 8 = j by omega, List.getD_eq_getElem _ _ (by omega),
        List.getD_eq_getElem _ _ (by omega)] at hbit
      exact hbit
    · rw [List.getElem?_eq_none (by rw [List.length_take]; omega),
        List.getElem?_eq_none (by rw [List.length_take]; omega)]

/-- The masked bytes are the same when the bits under the mask are. -/
theorem restMask_eq_iff {r : ℕ} (hpos : 0 < r) (hr : r < 8) (a b : UInt8) :
    a &&& restMask r = b &&& restMask r ↔
      ∀ j < r, a.toNat.testBit (7 - j) = b.toNat.testBit (7 - j) := by
  have hmasked : ∀ (c : UInt8), ∀ j < 8, (c &&& restMask r).toNat.testBit (7 - j) =
      (c.toNat.testBit (7 - j) && decide (j < r)) := by
    intro c j hj
    rw [UInt8.toNat_and, Nat.testBit_and, testBit_restMask r hr j hj hpos]
  constructor
  · intro h j hj
    have ha := hmasked a j (by omega)
    rw [h, hmasked b j (by omega), decide_eq_true hj, Bool.and_true, Bool.and_true] at ha
    exact ha.symm
  · intro h
    apply uint8_eq_of_bits
    intro j hj
    have hback : 7 - (7 - j) = j := by omega
    rw [← hback, hmasked a _ (by omega), hmasked b _ (by omega)]
    by_cases hin : 7 - j < r
    · rw [h _ hin]
    · rw [decide_eq_false hin, Bool.and_false, Bool.and_false]

theorem length_addressBytes_eq_iff (a b : Addr) :
    (addressBytes a).length = (addressBytes b).length ↔ a.is4 = b.is4 := by
  cases a <;> cases b <;> simp [addressBytes, Addr.is4]

/-- **`prefixContains` reads no byte outside of an address and says whether one prefix covers
the other.** -/
theorem prefixContains_spec (p q : Prefix) [Decidable (p.Covers q)] :
    prefixContains (rawPrefix p) (rawPrefix q) = some (decide (p.Covers q)) := by
  have hp := p.bits_le
  have hq := q.bits_le
  have hlen := length_addressBytes p.addr
  unfold prefixContains rawPrefix
  simp only
  rw [if_neg (by omega)]
  by_cases hfamily : p.addr.is4 = q.addr.is4
  · have hlength := (length_addressBytes_eq_iff p.addr q.addr).mpr hfamily
    have hwidth := Addr.bitLen_congr hfamily
    by_cases hle : p.bits ≤ q.bits
    · rw [if_neg (by omega), Int.toNat_natCast]
      by_cases hwhole : (addressBytes p.addr).take (p.bits / 8) =
          (addressBytes q.addr).take (p.bits / 8)
      · rw [if_neg (not_not.mpr hwhole)]
        rw [bytes_agree_iff hlength _ (by omega)] at hwhole
        by_cases hrest : p.bits % 8 = 0
        · rw [if_pos hrest, decide_eq_true]
          exact ⟨hfamily, hle, fun i hi => hwhole i (by omega)⟩
        · have hbyte : ∀ {c : Addr}, c.bitLen = p.addr.bitLen → (addressBytes c)[p.bits / 8]? =
              some ((addressBytes c).getD (p.bits / 8) 0) := by
            intro c hc
            have hclen := length_addressBytes c
            rw [List.getElem?_eq_getElem (by omega), List.getD_eq_getElem _ _ (by omega)]
          rw [if_neg hrest, hbyte rfl, hbyte hwidth.symm]
          simp only [Option.bind_eq_bind, Option.bind_some, Option.some.injEq]
          rw [beq_eq_decide, decide_eq_decide,
            restMask_eq_iff (by omega) (Nat.mod_lt _ (by omega))]
          have hread : ∀ {c : Addr}, c.bitLen = p.addr.bitLen → ∀ j < p.bits % 8,
              ((addressBytes c).getD (p.bits / 8) 0).toNat.testBit (7 - j) =
                c.bit (p.bits / 8 * 8 + j) := by
            intro c hc j hj
            rw [← byteBit_addressBytes c (by omega), byteBit,
              show (p.bits / 8 * 8 + j) / 8 = p.bits / 8 by omega,
              show (p.bits / 8 * 8 + j) % 8 = j by omega]
          constructor
          · intro h
            refine ⟨hfamily, hle, fun i hi => ?_⟩
            by_cases hin : i < p.bits / 8 * 8
            · exact hwhole i hin
            · have hbit := h (i - p.bits / 8 * 8) (by omega)
              rw [hread rfl _ (by omega), hread hwidth.symm _ (by omega),
                show p.bits / 8 * 8 + (i - p.bits / 8 * 8) = i by omega] at hbit
              exact hbit
          · intro h j hj
            rw [hread rfl j hj, hread hwidth.symm j hj]
            exact h.agree _ (by omega)
      · rw [if_pos hwhole, decide_eq_false]
        exact fun h => hwhole ((bytes_agree_iff hlength _ (by omega)).mpr fun i hi =>
          h.agree i (by omega))
    · rw [if_pos (Or.inr (by omega)), decide_eq_false fun h => hle h.bits_le]
  · have hlength := mt (length_addressBytes_eq_iff p.addr q.addr).mp hfamily
    rw [if_pos (Or.inl hlength), decide_eq_false fun h => hfamily h.family]

/-- What does not parse is neither inside nor around anything. -/
theorem prefixContains_invalid (p : RawPrefix) :
    prefixContains {} p = some false ∧ prefixContains p {} = some false := by
  constructor
  · exact if_pos (Or.inl (by decide))
  · exact if_pos (Or.inr (by decide))

/-- **The loop over the lengths writes siblings**: the bits of the hole with the last one
flipped and nothing behind it. -/
theorem siblingPrefix_spec (cut : Prefix) {k : ℕ} (hpos : 0 < k) (hk : k ≤ cut.bits) :
    ∃ s : Prefix, cut.IsSibling s k ∧ ∃ bytes,
      siblingPrefix (rawPrefix cut) k = some ⟨bytes, k⟩ ∧ addressOfBytes bytes = s.addr := by
  have hbits := cut.bits_le
  have hlen := length_addressBytes cut.addr
  obtain ⟨flipped, hflipped, hflen, hflip⟩ :=
    @flipBit_spec (addressBytes cut.addr) (k - 1) (by omega)
  obtain ⟨bytes, hbytes, hblen, hclear⟩ :=
    @foldlM_clearBit_spec (flipped.length * 8 - k) k flipped (by omega)
  obtain ⟨hfamily, hbit⟩ := addressOfBytes_spec (a := cut.addr) (hblen.trans hflen)
  have hwidth := Addr.bitLen_congr hfamily
  have hread : ∀ i < cut.addr.bitLen, (addressOfBytes bytes).bit i =
      if k ≤ i then false else if i = k - 1 then !cut.addr.bit i else cut.addr.bit i := by
    intro i hi
    rw [hbit i hi, hclear i, hflip i, byteBit_addressBytes _ hi]
    by_cases hlow : k ≤ i
    · rw [if_pos hlow, if_pos (by omega)]
    · rw [if_neg hlow, if_neg (by omega)]
  refine ⟨⟨addressOfBytes bytes, k, by omega⟩, ⟨rfl, hpos, hk, hfamily, ?_, ?_, ?_⟩, bytes, ?_, rfl⟩
  · intro i hi
    rw [hread i (by omega), if_neg (by omega), if_neg (by omega)]
  · rw [hread (k - 1) (by omega), if_neg (by omega), if_pos rfl]
  · intro i hi hlt
    rw [hread i (hwidth ▸ hlt), if_pos hi]
  · unfold siblingPrefix rawPrefix
    simp only [hflipped, hbytes, Option.bind_eq_bind, Option.bind_some]

/-! ## All ranges -/

theorem mapM_eq_some_map {α β : Type} {f : α → Option β} {g : α → β} {l : List α}
    (h : ∀ x ∈ l, f x = some (g x)) : l.mapM f = some (l.map g) := by
  induction l with
  | nil => rfl
  | cons x l ih =>
    rw [List.mapM_cons, h x List.mem_cons_self, ih fun y hy => h y (List.mem_cons_of_mem _ hy)]
    rfl

theorem exists_mapM {α β : Type} {f : α → Option β} {P : α → β → Prop} {l : List α}
    (h : ∀ x ∈ l, ∃ y, f x = some y ∧ P x y) : ∃ ys, l.mapM f = some ys ∧ List.Forall₂ P l ys := by
  induction l with
  | nil => exact ⟨[], rfl, .nil⟩
  | cons x l ih =>
    obtain ⟨y, hy, hP⟩ := h x List.mem_cons_self
    obtain ⟨ys, hys, hall⟩ := ih fun z hz => h z (List.mem_cons_of_mem _ hz)
    refine ⟨y :: ys, ?_, .cons hP hall⟩
    rw [List.mapM_cons, hy, hys]
    rfl

section Ranges

variable (qt : HostAddress)

/-- The text of a prefix. -/
def prefixText (p : Prefix) : Text := qt.toString p.addr ++ '/' :: decimal p.bits

/-- The addresses a text stands for, none where it does not parse. -/
def addresses (text : Text) : Set Addr := {a | ∃ p, qt.parseSubnet text = some p ∧ a ∈ p.hosts}

def allAddresses (texts : List Text) : Set Addr := {a | ∃ text ∈ texts, a ∈ addresses qt text}

/-- What takes the place of an entry when a hole is cut. -/
structure Piece (cut : Prefix) (entry : Text) (piece : List Text) : Prop where
  unparsed : qt.parseSubnet entry = none → piece = [entry]
  /-- A range inside the hole disappears. -/
  inside : ∀ range, qt.parseSubnet entry = some range → range.hosts ⊆ cut.hosts → piece = []
  /-- A range beside the hole is kept as it is written. -/
  apart : ∀ range, qt.parseSubnet entry = some range → range.Disjoint cut → piece = [entry]
  /-- A range around the hole becomes one normalized prefix for each bit between them. -/
  around : ∀ range, qt.parseSubnet entry = some range → cut.hosts ⊆ range.hosts →
    ∃ siblings : List Prefix, piece = siblings.map (prefixText qt) ∧
      siblings.length = cut.bits - range.bits ∧ siblings.Pairwise Prefix.Disjoint ∧
      ∀ s ∈ siblings, s.masked = s ∧ qt.parseSubnet (prefixText qt s) = some s
  exact : ∀ a, (∃ text ∈ piece, a ∈ addresses qt text) ↔ a ∈ addresses qt entry ∧ a ∉ cut.hosts

variable {qt}

theorem parsePrefix_of_parse {text : Text} {p : Prefix} (h : qt.parseSubnet text = some p) :
    parsePrefix qt text = rawPrefix p := by
  unfold parsePrefix
  rw [h]
  rfl

theorem parsePrefix_of_none {text : Text} (h : qt.parseSubnet text = none) :
    parsePrefix qt text = {} := by
  unfold parsePrefix
  rw [h]

theorem mem_addresses_of_parse {text : Text} {p : Prefix} (h : qt.parseSubnet text = some p)
    (a : Addr) : a ∈ addresses qt text ↔ a ∈ p.hosts := by
  constructor
  · rintro ⟨q, hq, ha⟩
    rw [h] at hq
    cases hq
    exact ha
  · exact fun ha => ⟨p, h, ha⟩

theorem subtractEntry_of_none {cut : Prefix} {entry : Text} (h : qt.parseSubnet entry = none) :
    subtractEntry qt (rawPrefix cut) entry = some [entry] := by
  unfold subtractEntry
  simp only
  rw [parsePrefix_of_none h, (prefixContains_invalid (rawPrefix cut)).1,
    (prefixContains_invalid (rawPrefix cut)).2]
  rfl

open Classical in
theorem subtractEntry_of_parse {cut range : Prefix} {entry : Text}
    (h : qt.parseSubnet entry = some range) :
    subtractEntry qt (rawPrefix cut) entry =
      if cut.Covers range then some []
      else if range.Covers cut then
        (List.range' (range.bits + 1) (cut.bits - range.bits)).mapM fun bits => do
          some (prefixToString qt (← siblingPrefix (rawPrefix cut) bits))
      else some [entry] := by
  unfold subtractEntry
  simp only
  rw [parsePrefix_of_parse h, prefixContains_spec, prefixContains_spec]
  simp only [Option.bind_eq_bind, Option.bind_some, decide_eq_true_eq, Bool.not_eq_true',
    decide_eq_false_iff_not, ite_not]
  rfl

/-- A range around the hole. -/
theorem subtractEntry_around {cut range : Prefix} {entry : Text}
    (hparse : qt.parseSubnet entry = some range) (hcovers : range.Covers cut)
    (hnot : ¬cut.Covers range) :
    ∃ siblings : List Prefix,
      subtractEntry qt (rawPrefix cut) entry = some (siblings.map (prefixText qt)) ∧
      siblings.length = cut.bits - range.bits ∧ siblings.Pairwise Prefix.Disjoint ∧
      (∀ s ∈ siblings, s.masked = s) ∧
      ∀ a, (∃ s ∈ siblings, a ∈ s.hosts) ↔ a ∈ range.hosts ∧ a ∉ cut.hosts := by
  classical
  have : Nonempty Prefix := ⟨cut⟩
  choose! sibling hsibling using fun k (h : 0 < k ∧ k ≤ cut.bits) =>
    siblingPrefix_spec cut h.1 h.2
  have hmem : ∀ k ∈ List.range' (range.bits + 1) (cut.bits - range.bits),
      range.bits < k ∧ k ≤ cut.bits := by
    intro k hk
    have hle := hcovers.bits_le
    rw [List.mem_range'_1] at hk
    omega
  refine ⟨(List.range' (range.bits + 1) (cut.bits - range.bits)).map sibling, ?_, ?_, ?_, ?_, ?_⟩
  · rw [subtractEntry_of_parse hparse, if_neg hnot, if_pos hcovers, List.map_map]
    refine mapM_eq_some_map fun k hk => ?_
    obtain ⟨hlt, hle⟩ := hmem k hk
    obtain ⟨hs, bytes, hbytes, haddr⟩ := hsibling k ⟨by omega, hle⟩
    rw [hbytes]
    simp only [Option.bind_eq_bind, Option.bind_some, prefixToString, haddr, Int.toNat_natCast,
      Function.comp_apply, prefixText, hs.bits_eq]
  · rw [List.length_map, List.length_range']
  · rw [List.pairwise_map]
    refine List.Pairwise.imp_of_mem (fun {j k} hj hk hlt => ?_)
      (List.pairwise_lt_range' (s := range.bits + 1) (n := cut.bits - range.bits))
    obtain ⟨hj1, hj2⟩ := hmem j hj
    obtain ⟨hk1, hk2⟩ := hmem k hk
    exact (hsibling j ⟨by omega, hj2⟩).1.disjoint (hsibling k ⟨by omega, hk2⟩).1 (by omega)
  · intro s hs
    obtain ⟨k, hk, rfl⟩ := List.mem_map.mp hs
    obtain ⟨hlt, hle⟩ := hmem k hk
    exact (hsibling k ⟨by omega, hle⟩).1.masked_eq
  · intro a
    rw [Prefix.mem_diff_iff hcovers fun k hlt hle => (hsibling k ⟨by omega, hle⟩).1]
    constructor
    · rintro ⟨s, hs, ha⟩
      obtain ⟨k, hk, rfl⟩ := List.mem_map.mp hs
      exact ⟨k, (hmem k hk).1, (hmem k hk).2, ha⟩
    · rintro ⟨k, hlt, hle, ha⟩
      refine ⟨sibling k, List.mem_map_of_mem ?_, ha⟩
      rw [List.mem_range'_1]
      omega

/-- **One entry.** -/
theorem subtractEntry_piece (cut : Prefix) (entry : Text) :
    ∃ piece, subtractEntry qt (rawPrefix cut) entry = some piece ∧ Piece qt cut entry piece := by
  classical
  cases hparse : qt.parseSubnet entry with
  | none =>
    refine ⟨[entry], subtractEntry_of_none hparse, fun _ => rfl, fun range h => ?_, fun _ _ _ => rfl, fun range h => ?_,
      fun a => ?_⟩
    · rw [hparse] at h
      cases h
    · rw [hparse] at h
      cases h
    · have hnone : a ∉ addresses qt entry := by
        rintro ⟨p, hp, -⟩
        rw [hparse] at hp
        cases hp
      simp [hnone]
  | some range =>
    have heq : ∀ {q}, qt.parseSubnet entry = some q → q = range := by
      intro q hq
      rw [hparse] at hq
      exact (Option.some.inj hq).symm
    have haddresses := mem_addresses_of_parse hparse
    by_cases hinside : cut.Covers range
    · have hgone : subtractEntry qt (rawPrefix cut) entry = some [] := by
        rw [subtractEntry_of_parse hparse, if_pos hinside]
      refine ⟨[], hgone, fun h => ?_, fun _ _ _ => rfl, fun q hq hdisjoint => ?_, fun q hq hsub => ?_,
        fun a => ?_⟩
      · rw [hparse] at h
        cases h
      · cases heq hq
        exact absurd (fun a hcut hrange => hdisjoint a hrange hcut)
          (Prefix.not_disjoint_of_covers hinside)
      · cases heq hq
        refine ⟨[], rfl, ?_, List.Pairwise.nil, fun _ h => absurd h List.not_mem_nil⟩
        have hback := (Prefix.covers_iff_subset.mpr hsub).bits_le
        have hforth := hinside.bits_le
        rw [List.length_nil]
        omega
      · rw [haddresses]
        constructor
        · rintro ⟨_, h, -⟩
          exact absurd h List.not_mem_nil
        · rintro ⟨hrange, hcut⟩
          exact absurd (Prefix.covers_iff_subset.mp hinside hrange) hcut
    · by_cases haround : range.Covers cut
      · obtain ⟨siblings, hpiece, hlength, hdisjoint, hmasked, hexact⟩ :=
          subtractEntry_around hparse haround hinside
        have hparses : ∀ s ∈ siblings, qt.parseSubnet (prefixText qt s) = some s := by
          intro s hs
          rw [prefixText, qt.parseSubnet_toString, hmasked s hs]
        refine ⟨_, hpiece, fun h => ?_, fun q hq hsub => ?_, fun q hq happart => ?_,
          fun q hq _ => ?_, fun a => ?_⟩
        · rw [hparse] at h
          cases h
        · cases heq hq
          exact absurd (Prefix.covers_iff_subset.mpr hsub) hinside
        · cases heq hq
          exact absurd happart (Prefix.not_disjoint_of_covers haround)
        · cases heq hq
          exact ⟨siblings, rfl, hlength, hdisjoint, fun s hs => ⟨hmasked s hs, hparses s hs⟩⟩
        · rw [haddresses, ← hexact]
          constructor
          · rintro ⟨text, htext, ha⟩
            obtain ⟨s, hs, rfl⟩ := List.mem_map.mp htext
            exact ⟨s, hs, (mem_addresses_of_parse (hparses s hs) a).mp ha⟩
          · rintro ⟨s, hs, ha⟩
            exact ⟨_, List.mem_map_of_mem hs, (mem_addresses_of_parse (hparses s hs) a).mpr ha⟩
      · have hkept : subtractEntry qt (rawPrefix cut) entry = some [entry] := by
          rw [subtractEntry_of_parse hparse, if_neg hinside, if_neg haround]
        have happart := Prefix.disjoint_of_not_covers haround hinside
        refine ⟨[entry], hkept, fun _ => rfl, fun q hq hsub => ?_, fun _ _ _ => rfl,
          fun q hq hsub => ?_, fun a => ?_⟩
        · cases heq hq
          exact absurd (Prefix.covers_iff_subset.mpr hsub) hinside
        · cases heq hq
          exact absurd (Prefix.covers_iff_subset.mpr hsub) haround
        · rw [haddresses]
          simp only [List.mem_singleton, exists_eq_left, haddresses]
          exact ⟨fun ha => ⟨ha, happart a ha⟩, fun ha => ha.1⟩

variable (qt) in
/-- What a list of ranges becomes when a hole is cut out of it. -/
structure Subtracted (ranges : List Text) (hole : Text) (out : List Text) : Prop where
  exact : allAddresses qt out = allAddresses qt ranges \ addresses qt hole
  noHole : qt.parseSubnet hole = none → out = ranges
  /-- Range by range, in place. -/
  pieces : ∀ cut, qt.parseSubnet hole = some cut →
    ∃ pieces : List (List Text), out = pieces.flatten ∧ List.Forall₂ (Piece qt cut) ranges pieces

variable (qt) in
theorem exists_subtracted (ranges : List Text) (hole : Text) :
    ∃ out, subtractPrefix qt ranges hole = some out ∧ Subtracted qt ranges hole out := by
  cases hparse : qt.parseSubnet hole with
  | none =>
    refine ⟨ranges, ?_, ?_, fun _ => rfl, fun cut h => ?_⟩
    · unfold subtractPrefix
      rw [parsePrefix_of_none hparse]
      rfl
    · have hempty : addresses qt hole = ∅ := by
        ext a
        simp only [addresses, hparse, Set.mem_ofPred_eq, Set.mem_empty_iff_false, iff_false]
        rintro ⟨p, hp, -⟩
        cases hp
      rw [hempty, Set.sdiff_empty]
    · rw [hparse] at h
      cases h
  | some cut =>
    obtain ⟨pieces, hpieces, hall⟩ := exists_mapM (f := subtractEntry qt (rawPrefix cut))
      (P := Piece qt cut) (l := ranges) fun entry _ => subtractEntry_piece cut entry
    refine ⟨pieces.flatten, ?_, ?_, fun h => ?_, fun q hq => ?_⟩
    · unfold subtractPrefix
      rw [parsePrefix_of_parse hparse]
      simp only [hpieces, Option.bind_eq_bind, Option.bind_some]
      rw [if_neg]
      show ¬((cut.bits : Int) < 0)
      omega
    · ext a
      rw [Set.mem_sdiff, mem_addresses_of_parse hparse]
      clear hpieces
      induction hall with
      | nil =>
        simp [allAddresses]
      | cons hpiece hrest ih =>
        rename_i entry piece entries rest
        have hhead := hpiece.exact a
        simp only [allAddresses, List.flatten_cons, List.mem_append, List.mem_cons,
          Set.mem_ofPred_eq, or_and_right, exists_or, exists_eq_left] at ih hhead ⊢
        rw [hhead, ih, ← or_and_right]
    · rw [hparse] at h
      cases h
    · rw [hparse] at hq
      cases hq
      exact ⟨pieces, rfl, hall⟩

end Ranges

/-- **`subtractPrefix` stays within its bytes and cuts the hole out exactly.** -/
theorem subtractPrefix_exact (qt : HostAddress) (ranges : List Text) (hole : Text) :
    ∃ out, subtractPrefix qt ranges hole = some out ∧ Subtracted qt ranges hole out :=
  exists_subtracted qt ranges hole

/-- Subnets as `net/netip` reads and writes them. -/
def HostAddress.netip : HostAddress where
  parseSubnet text := (Netip.parsePrefix text).map Prefix.masked
  toString := Addr.string
  masked_of_parseSubnet := by
    intro text p h
    obtain ⟨q, -, rfl⟩ := Option.map_eq_some_iff.mp h
    exact Prefix.masked_masked q
  parseSubnet_toString p := by rw [Netip.parsePrefix_string, Option.map_some]

/-- A hole inside one range, beside another and around a third. -/
theorem subtractPrefix_exact_sample :
    let ranges := ["172.16.0.0/12".toList, "10.0.0.0/8".toList, "172.19.0.128/25".toList]
    let out := ["172.24.0.0/13".toList, "10.0.0.0/8".toList]
    subtractPrefix .netip ranges "172.19.0.1/13".toList = some out ∧
      Subtracted .netip ranges "172.19.0.1/13".toList out := by
  intro ranges out
  have hout : subtractPrefix .netip ranges "172.19.0.1/13".toList = some out := by decide +kernel
  obtain ⟨found, hfound, hsubtracted⟩ :=
    subtractPrefix_exact .netip ranges "172.19.0.1/13".toList
  rw [hout] at hfound
  cases hfound
  exact ⟨hout, hsubtracted⟩

/-- Neither subnet of the Tun is left in the ranges macOS excludes. -/
theorem cutTunSubnets_exact (qt : HostAddress) (ranges : List Text) (v4 v6 : Text) (ipv6 : Bool) :
    ∃ out, cutTunSubnets qt ranges v4 v6 ipv6 = some out ∧ allAddresses qt out =
      allAddresses qt ranges \ (addresses qt v4 ∪ if ipv6 then addresses qt v6 else ∅) := by
  obtain ⟨first, hfirst, hexact⟩ := exists_subtracted qt ranges v4
  unfold cutTunSubnets
  rw [hfirst]
  cases ipv6 with
  | false =>
    refine ⟨first, rfl, ?_⟩
    rw [hexact.exact, if_neg (by simp), Set.union_empty]
  | true =>
    obtain ⟨second, hsecond, hexact'⟩ := exists_subtracted qt first v6
    refine ⟨second, hsecond, ?_⟩
    rw [hexact'.exact, hexact.exact, if_pos rfl, Set.sdiff_sdiff]

end Throned.Configs
