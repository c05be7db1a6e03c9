import Throned.Model.TestTargets

/-!
# Tags of a batch

The tags of one batch are different for different profiles: the number or the id can be read back.
-/

set_option autoImplicit false

namespace Throned.Engine.Tests

open Throned.Library

theorem decimal_injective : Function.Injective decimal := by
  intro m n heq
  have hread := congrArg parseDecimal heq
  rw [parseDecimal_decimal, parseDecimal_decimal] at hread
  exact Option.some.inj hread

theorem head_decimal_ne_minus (n : ℕ) : (decimal n).head? ≠ some '-' := by
  intro hhead
  have hdigit := decimalDigit_of_mem_decimal (List.mem_of_head? hhead)
  exact absurd hdigit (by decide)

theorem Int2String_injective : Function.Injective Int2String := by
  intro m n heq
  unfold Int2String at heq
  split at heq <;> split at heq
  · have habs := decimal_injective (List.tail_eq_of_cons_eq heq)
    omega
  · exact absurd (congrArg List.head? heq.symm) (head_decimal_ne_minus _)
  · exact absurd (congrArg List.head? heq) (head_decimal_ne_minus _)
  · have habs := decimal_injective heq
    omega

theorem hopTag_index_injective (tagPrefix : Text) : Function.Injective (hopTag tagPrefix) := by
  intro m n heq
  unfold hopTag at heq
  exact Int2String_injective (List.tail_eq_of_cons_eq (List.append_cancel_left heq))

theorem hopTag_prefix_injective (index : ℤ) :
    Function.Injective fun tagPrefix => hopTag tagPrefix index := by
  intro a b heq
  exact List.append_cancel_right heq

/-- The tag of a numbered chain. -/
def chainTag (suffix : ℤ) : Text := hopTag (hopTag testChainPrefix suffix) 0

/-- The tag of an Xray config of its own. -/
def xrayFullTag (id : ℤ) : Text := hopTag (hopTag testXrayFullPrefix id) 0

theorem chainTag_injective : Function.Injective chainTag :=
  (hopTag_prefix_injective 0).comp (hopTag_index_injective testChainPrefix)

theorem xrayFullTag_injective : Function.Injective xrayFullTag :=
  (hopTag_prefix_injective 0).comp (hopTag_index_injective testXrayFullPrefix)

theorem chainTag_ne_xrayFullTag (suffix id : ℤ) : chainTag suffix ≠ xrayFullTag id := by
  intro heq
  have hhead := congrArg List.head? heq
  exact absurd hhead (by
    unfold chainTag xrayFullTag hopTag testChainPrefix testXrayFullPrefix
    simp)

/-- The tags so far are those of Xray configs and of chains with lower numbers, one profile each. -/
structure Numbered (config : TestConfig) (suffix : ℤ) : Prop where
  known : ∀ entry ∈ config.tag2entID,
    entry.1 = xrayFullTag entry.2 ∨ ∃ n < suffix, entry.1 = chainTag n
  unique : ∀ a ∈ config.tag2entID, ∀ b ∈ config.tag2entID, a.1 = b.1 → a.2 = b.2

theorem Numbered.mono {config : TestConfig} {suffix later : ℤ} (h : Numbered config suffix)
    (hle : suffix ≤ later) : Numbered config later where
  known entry hentry := (h.known entry hentry).imp_right fun ⟨n, hn, htag⟩ =>
    ⟨n, lt_of_lt_of_le hn hle, htag⟩
  unique := h.unique

/-- A tag that no other profile has. -/
theorem Numbered.insertTag {config : TestConfig} {suffix : ℤ} (h : Numbered config suffix)
    {tag : Text} {id : ℤ} (hknown : tag = xrayFullTag id ∨ ∃ n < suffix, tag = chainTag n)
    (hnew : ∀ entry ∈ config.tag2entID, entry.1 = tag → entry.2 = id) :
    Numbered (config.insertTag tag id) suffix where
  known entry hentry := by
    obtain rfl | hold := List.mem_cons.mp hentry
    · exact hknown
    · exact h.known entry hold
  unique a ha b hb heq := by
    obtain rfl | ha := List.mem_cons.mp ha
    · obtain rfl | hb := List.mem_cons.mp hb
      · rfl
      · exact (hnew b hb heq.symm).symm
    · obtain rfl | hb := List.mem_cons.mp hb
      · exact hnew a ha heq
      · exact h.unique a ha b hb heq

/-- The Xray config of a profile takes its tag. -/
theorem Numbered.insertXrayFull {config : TestConfig} {suffix : ℤ} (h : Numbered config suffix)
    (id : ℤ) : Numbered (config.insertTag (xrayFullTag id) id) suffix := by
  refine h.insertTag (.inl rfl) fun entry hentry heq => ?_
  obtain hfull | ⟨n, -, hchain⟩ := h.known entry hentry
  · exact xrayFullTag_injective (hfull.symm.trans heq)
  · exact absurd (hchain.symm.trans heq) (chainTag_ne_xrayFullTag n id)

/-- A chain takes the next number. -/
theorem Numbered.insertChain {config : TestConfig} {suffix : ℤ} (h : Numbered config suffix)
    (id : ℤ) : Numbered (config.insertTag (chainTag suffix) id) (suffix + 1) := by
  have hlater := h.mono (show suffix ≤ suffix + 1 by omega)
  refine hlater.insertTag (.inr ⟨suffix, by omega, rfl⟩) fun entry hentry heq => ?_
  obtain hfull | ⟨n, hn, hchain⟩ := h.known entry hentry
  · exact absurd (heq.symm.trans hfull) (chainTag_ne_xrayFullTag suffix entry.2)
  · have hsame := chainTag_injective (hchain.symm.trans heq)
    omega

theorem Numbered.numberItems {items : List TestItem} {config result : TestConfig} {suffix : ℤ}
    (h : Numbered config suffix) (hresult : numberItems config suffix items = some result) :
    ∃ last, Numbered result last := by
  induction items generalizing config suffix with
  | nil => exact ⟨suffix, Option.some.inj hresult ▸ h⟩
  | cons item items ih =>
    unfold Tests.numberItems at hresult
    cases hcandidate : item.candidate with
    | skip | invalid =>
      rw [hcandidate] at hresult
      exact ih h hresult
    | xrayFullConfig =>
      rw [hcandidate] at hresult
      exact ih (h.insertXrayFull item.id) hresult
    | fullConfig =>
      rw [hcandidate] at hresult
      have hfull : Numbered (config.insertFull item.id) suffix := ⟨h.known, h.unique⟩
      exact ih hfull hresult
    | chain =>
      rw [hcandidate] at hresult
      exact ih (h.insertChain item.id) hresult
    | failedChain =>
      rw [hcandidate] at hresult
      exact ih (h.mono (show suffix ≤ suffix + 1 by omega)) hresult
    | broken =>
      rw [hcandidate] at hresult
      cases hresult

/-- **A tag of a batch stands for one profile.** -/
theorem entID_unique {items : List TestItem} {config : TestConfig}
    (hbuild : buildTestConfig items = some config) {tag : Text} {id id' : ℤ}
    (hid : (tag, id) ∈ config.tag2entID) (hid' : (tag, id') ∈ config.tag2entID) : id = id' := by
  have hempty : Numbered {} 1 :=
    ⟨fun entry hentry => absurd hentry List.not_mem_nil, fun a ha => absurd ha List.not_mem_nil⟩
  obtain ⟨last, hlast⟩ := hempty.numberItems hbuild
  exact hlast.unique _ hid _ hid' rfl

end Throned.Engine.Tests
