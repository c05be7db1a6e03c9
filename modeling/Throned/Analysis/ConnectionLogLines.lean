import Throned.Model.ConnectionLog

/-!
# What a line of the log becomes

A line is passed as it is, gets its process at the end, or has the message replaced.  Replacing cuts
the line at a position of its small letters, which is the place of the message exactly when what
stands before has as many bytes in small letters.
-/

set_option autoImplicit false

namespace Throned.Boxmain

open Throned.Library

/-- A line whose level word may have been changed. -/
inductive IsDemoted : ByteText → ByteText → Prop
  | same (line : ByteText) : IsDemoted line line
  | level (before after : ByteText) :
      IsDemoted (before ++ bytes "ERROR" ++ after) (before ++ bytes "INFO" ++ after)

theorem demoteErrorLevel_eq (line : ByteText) :
    (∃ rest, line = bytes "ERROR" ++ rest ∧ demoteErrorLevel line = bytes "INFO" ++ rest) ∨
    (∃ l r, line = l ++ bytes " ERROR " ++ r ∧ demoteErrorLevel line = l ++ bytes " INFO " ++ r) ∨
    demoteErrorLevel line = line := by
  unfold demoteErrorLevel
  split
  next hstarts =>
    obtain ⟨rest, rfl⟩ := hstarts
    exact Or.inl ⟨rest, rfl, congrArg _ (List.drop_left' (by decide))⟩
  next =>
    split
    next at' hat => exact Or.inr (Or.inl ⟨_, _, eq_append_of_indexOf hat, rfl⟩)
    next => exact Or.inr (Or.inr rfl)

/-- Only the level word is changed. -/
theorem isDemoted_demoteErrorLevel (line : ByteText) : IsDemoted line (demoteErrorLevel line) := by
  rcases demoteErrorLevel_eq line with ⟨rest, hline, heq⟩ | ⟨l, r, hline, heq⟩ | heq
  · rw [heq, hline]
    exact .level [] rest
  · have herror : bytes " ERROR " = bytes " " ++ bytes "ERROR" ++ bytes " " := by decide
    have hinfo : bytes " INFO " = bytes " " ++ bytes "INFO" ++ bytes " " := by decide
    have hlevel := IsDemoted.level (l ++ bytes " ") (bytes " " ++ r)
    rw [heq, hline, herror, hinfo]
    simpa only [List.append_assoc] using hlevel
  · rw [heq]
    exact .same line

theorem splitEnding_append (input : ByteText) :
    input = (splitEnding input).1 ++ (splitEnding input).2 := by
  unfold splitEnding
  split
  next hfeed =>
    have hinput := (List.dropLast_append_getLast? _ hfeed).symm
    simp only
    split
    next hreturn =>
      have hline := (List.dropLast_append_getLast? _ hreturn).symm
      calc input = input.dropLast ++ [0x0a] := hinput
        _ = input.dropLast.dropLast ++ [0x0d] ++ [0x0a] := by rw [← hline]
        _ = input.dropLast.dropLast ++ [0x0d, 0x0a] := by simp
    next => exact hinput
  next => simp

section Cuts

variable (go : GoLibrary)

/-! ## Small letters -/

theorem toLowerText_ascii {s : ByteText} (h : ∀ b ∈ s, b.toNat < 128) :
    toLowerText go s = s.flatMap fun b => String.utf8EncodeChar (Char.ofNat b.toNat).toLower := by
  induction s with
  | nil => rfl
  | cons b s ih =>
    have hb := h b (by simp)
    have hrest := ih fun x hx => h x (List.mem_cons_of_mem _ hx)
    unfold toLowerText mapText at hrest ⊢
    have hchar : (Char.ofNat b.toNat).toNat < 128 := by rwa [toNat_ofNat_ascii hb]
    rw [runes_ascii_cons hb, mapRunes_cons, hrest, List.flatMap_cons, go.toLower_ascii _ hchar]

theorem toLowerText_append_ascii {s : ByteText} (hne : s ≠ []) (h : ∀ b ∈ s, b.toNat < 128)
    (l rest : ByteText) :
    toLowerText go (l ++ s ++ rest) = toLowerText go l ++ toLowerText go s ++ toLowerText go rest :=
  mapText_append_ascii go.toLower hne h l rest

/-- The two messages. -/
def messages : List ByteText := [uploadClosed, downloadClosed]

theorem message_facts : ∀ message ∈ messages,
    message.head? = some 0x63 ∧ message.getLast? = some 0x3a ∧ (0x72 : UInt8) ∉ message := by
  decide

/-- **A message stays.** It is not where the level word is. -/
theorem message_infix_demoted {message line : ByteText} (hmessage : message ∈ messages)
    (h : message <:+: toLowerText go line) :
    message <:+: toLowerText go (demoteErrorLevel line) := by
  obtain ⟨hhead, hlast, hletter⟩ := message_facts message hmessage
  have hskip : ∀ b : UInt8, b ≠ 0x63 → ∀ s : ByteText, message <:+: b :: s → message <:+: s :=
    fun b hb s => infix_of_head (by rw [hhead]; exact fun heq => hb (Option.some.inj heq).symm)
  have hchop : ∀ b : UInt8, b ≠ 0x3a → ∀ s : ByteText, message <:+: s ++ [b] → message <:+: s :=
    fun b hb s => infix_of_getLast (by rw [hlast]; exact fun heq => hb (Option.some.inj heq).symm)
  rcases demoteErrorLevel_eq line with ⟨rest, hline, heq⟩ | ⟨l, r, hline, heq⟩ | heq
  · have hlower : toLowerText go (bytes "ERROR") = [0x65, 0x72, 0x72, 0x6f, 0x72] := by
      rw [toLowerText_ascii go (by decide +kernel)]
      decide
    have hparts := mapText_ascii_append go.toLower (s := bytes "ERROR") (by decide +kernel) rest
    rw [hline, toLowerText, hparts, ← toLowerText, hlower] at h
    have hrest : message <:+: toLowerText go rest := by
      apply hskip 0x72 (by decide)
      apply hskip 0x6f (by decide)
      apply hskip 0x72 (by decide)
      apply hskip 0x72 (by decide)
      exact hskip 0x65 (by decide) _ h
    rw [heq, toLowerText, mapText_ascii_append go.toLower (by decide +kernel)]
    exact hrest.trans (List.suffix_append _ _).isInfix
  · have hlower : toLowerText go (bytes " ERROR ") =
        [0x20, 0x65] ++ 0x72 :: [0x72, 0x6f, 0x72, 0x20] := by
      rw [toLowerText_ascii go (by decide +kernel)]
      decide
    rw [hline, toLowerText_append_ascii go (by decide +kernel) (by decide +kernel), hlower] at h
    rw [heq, toLowerText_append_ascii go (by decide +kernel) (by decide +kernel)]
    have hsplit : toLowerText go l ++ ([0x20, 0x65] ++ 0x72 :: [0x72, 0x6f, 0x72, 0x20]) ++
        toLowerText go r = (toLowerText go l ++ [0x20] ++ [0x65]) ++
          0x72 :: (0x72 :: 0x6f :: 0x72 :: 0x20 :: toLowerText go r) := by simp
    rw [hsplit] at h
    rcases infix_of_notMem hletter h with hleft | hright
    · have hl : message <:+: toLowerText go l := by
        apply hchop 0x20 (by decide)
        exact hchop 0x65 (by decide) _ hleft
      rw [List.append_assoc]
      exact hl.trans (List.prefix_append _ _).isInfix
    · have hr : message <:+: toLowerText go r := by
        apply hskip 0x20 (by decide)
        apply hskip 0x72 (by decide)
        apply hskip 0x6f (by decide)
        exact hskip 0x72 (by decide) _ hright
      exact hr.trans (List.suffix_append _ _).isInfix
  · rwa [heq]

/-! ## Cuts -/

/-- What stands before the message and from the message on, cut between runes. -/
def messageCut (line : ByteText) : Option (List Rune × List Rune) :=
  (cutMapped go.toLower uploadClosed (runes line)).orElse fun _ =>
    cutMapped go.toLower downloadClosed (runes line)

theorem indexOf_message {message : ByteText} (hmessage : message ∈ messages) (line : ByteText) :
    indexOf message (toLowerText go line) =
      (cutMapped go.toLower message (runes line)).map
        fun cut => (mapRunes go.toLower cut.1).length := by
  have hhead := (message_facts message hmessage).1
  cases message with
  | nil => simp at hhead
  | cons a word =>
    obtain rfl : a = 0x63 := by simpa using hhead
    exact indexOf_mapRunes go.toLower (by decide) word (runes line)

/-- A cut is a cut of the line. -/
theorem messageCut_append {line : ByteText} {before after : List Rune}
    (h : messageCut go line = some (before, after)) :
    line = bytesOf before ++ bytesOf after := by
  have hrunes : runes line = before ++ after := by
    unfold messageCut at h
    cases hupload : cutMapped go.toLower uploadClosed (runes line) with
    | some cut =>
      rw [hupload] at h
      obtain rfl : cut = (before, after) := Option.some.inj h
      exact (cutMapped_spec _ hupload).1
    | none =>
      rw [hupload] at h
      exact (cutMapped_spec _ h).1
  rw [← bytesOf_append, ← hrunes, bytesOf_runes]

/-- **The position that is cut at** is the length of what stands before the message, in small
letters. -/
theorem cutBeforeMessage_eq {line : ByteText} {before after : List Rune}
    (h : messageCut go line = some (before, after)) :
    cutBeforeMessage go line =
      if (mapRunes go.toLower before).length ≤ line.length then
        some (line.take (mapRunes go.toLower before).length) else none := by
  unfold cutBeforeMessage
  have hupload : uploadClosed ∈ messages := by decide
  have hdownload : downloadClosed ∈ messages := by decide
  rw [indexOf_message go hupload, indexOf_message go hdownload]
  unfold messageCut at h
  cases hupload : cutMapped go.toLower uploadClosed (runes line) with
  | some cut =>
    rw [hupload] at h
    obtain rfl : cut = (before, after) := Option.some.inj h
    rfl
  | none =>
    rw [hupload] at h
    simp only [Option.orElse_none] at h
    rw [h]
    rfl

/-- **Where the cut is right.** The line is cut before the message exactly when what stands before
has as many bytes in small letters. -/
theorem cutBeforeMessage_right {line : ByteText} {before after : List Rune}
    (h : messageCut go line = some (before, after)) :
    cutBeforeMessage go line = some (bytesOf before) ↔
      (mapRunes go.toLower before).length = (bytesOf before).length := by
  have hline := messageCut_append go h
  rw [cutBeforeMessage_eq go h]
  constructor
  · intro hcut
    split at hcut
    next hle =>
      have hlength := congrArg List.length (Option.some.inj hcut)
      rwa [List.length_take, Nat.min_eq_left hle] at hlength
    next => simp at hcut
  · intro hlength
    have hle : (bytesOf before).length ≤ line.length := by
      rw [hline, List.length_append]
      exact Nat.le_add_right _ _
    rw [hlength, if_pos hle, hline, List.take_left]

/-- A line that has a message has it when its level word is changed. -/
theorem isSome_messageCut {line : ByteText} {message : ByteText} (hmessage : message ∈ messages)
    (h : message <:+: toLowerText go line) : (messageCut go line).isSome = true := by
  have hfound := isSome_indexOf_iff.mpr h
  rw [indexOf_message go hmessage, Option.isSome_map] at hfound
  unfold messageCut
  rcases List.mem_cons.mp hmessage with rfl | hdownload
  · obtain ⟨cut, hcut⟩ := Option.isSome_iff_exists.mp hfound
    rw [hcut]
    rfl
  · rw [List.mem_singleton] at hdownload
    subst hdownload
    cases cutMapped go.toLower uploadClosed (runes line) with
    | some cut => rfl
    | none => exact hfound

/-! ## Texts -/

/-- The message of a line is replaced: its process is on this machine and the connection was
reset. -/
def Replaces (process : trackedProcess) (line : ByteText) : Prop :=
  isLoopbackEndpoint process.source = true ∧ isConnectionReset (toLowerText go line) = true

/-- **What may be passed for a line.** -/
inductive RightText (resolve : processResolver) (hint : connectionContext) (input : ByteText) :
    ByteText → Prop
  /-- The line says no closed connection with two endpoints, or its process is not known. -/
  | unchanged
      (h : ∀ endpoints, closedEndpoints go (splitEnding input).1 = some endpoints →
        (findProcess resolve hint endpoints).matched = false) :
      RightText resolve hint input input
  | annotated {line lineEnding : ByteText} {endpoints : ByteText × ByteText}
      (hinput : input = line ++ lineEnding) (hsplit : splitEnding input = (line, lineEnding))
      (hclosed : closedEndpoints go line = some endpoints)
      (hmatched : (findProcess resolve hint endpoints).matched = true)
      (h : ¬ Replaces go (findProcess resolve hint endpoints) line) :
      RightText resolve hint input
        (line ++ processAnnotation go (findProcess resolve hint endpoints) ++ lineEnding)
  /-- Only the level word is changed in what stands before the message. -/
  | replaced {line lineEnding : ByteText} {endpoints : ByteText × ByteText}
      {before after : List Rune} (hinput : input = line ++ lineEnding)
      (hsplit : splitEnding input = (line, lineEnding))
      (hclosed : closedEndpoints go line = some endpoints)
      (hmatched : (findProcess resolve hint endpoints).matched = true)
      (h : Replaces go (findProcess resolve hint endpoints) line)
      (hlevel : IsDemoted line (demoteErrorLevel line))
      (hcut : messageCut go (demoteErrorLevel line) = some (before, after)) :
      RightText resolve hint input
        (bytesOf before ++ localClosed go (findProcess resolve hint endpoints) endpoints ++
          lineEnding)

/-- Where the message of a line is replaced, what stands before it has as many bytes in small
letters. -/
def KeepsPlace (resolve : processResolver) (hint : connectionContext) (input : ByteText) : Prop :=
  ∀ endpoints before after, closedEndpoints go (splitEnding input).1 = some endpoints →
    (findProcess resolve hint endpoints).matched = true →
    Replaces go (findProcess resolve hint endpoints) (splitEnding input).1 →
    messageCut go (demoteErrorLevel (splitEnding input).1) = some (before, after) →
    (mapRunes go.toLower before).length = (bytesOf before).length

/-- A line with endpoints says one of the messages. -/
theorem messageCut_of_closedEndpoints {line : ByteText} {endpoints : ByteText × ByteText}
    (h : closedEndpoints go line = some endpoints) :
    ∃ before after, messageCut go (demoteErrorLevel line) = some (before, after) := by
  have hmessage : ∃ message ∈ messages, message <:+: toLowerText go line := by
    unfold closedEndpoints at h
    simp only at h
    split at h
    next => simp at h
    next hcontains =>
      rw [not_and_or, Bool.not_eq_false, Bool.not_eq_false] at hcontains
      rcases hcontains with hupload | hdownload
      · exact ⟨uploadClosed, by decide, isSome_indexOf_iff.mp hupload⟩
      · exact ⟨downloadClosed, by decide, isSome_indexOf_iff.mp hdownload⟩
  obtain ⟨message, hin, hinfix⟩ := hmessage
  have hsome := isSome_messageCut go hin (message_infix_demoted go hin hinfix)
  obtain ⟨⟨before, after⟩, hcut⟩ := Option.isSome_iff_exists.mp hsome
  exact ⟨before, after, hcut⟩

/-- The right text of a line whose message is replaced. -/
theorem RightText.eq_of_replaces {resolve : processResolver} {hint : connectionContext}
    {input line lineEnding text : ByteText} {endpoints : ByteText × ByteText}
    {before after : List Rune} (h : RightText go resolve hint input text)
    (hsplit : splitEnding input = (line, lineEnding))
    (hclosed : closedEndpoints go line = some endpoints)
    (hmatched : (findProcess resolve hint endpoints).matched = true)
    (hreplaces : Replaces go (findProcess resolve hint endpoints) line)
    (hcut : messageCut go (demoteErrorLevel line) = some (before, after)) :
    text = bytesOf before ++ localClosed go (findProcess resolve hint endpoints) endpoints ++
      lineEnding := by
  cases h with
  | unchanged h =>
    rw [hsplit] at h
    have hnot := h endpoints hclosed
    rw [hmatched] at hnot
    simp at hnot
  | annotated _ hsplit' hclosed' _ hnot =>
    obtain ⟨rfl, rfl⟩ := Prod.mk.inj (hsplit.symm.trans hsplit')
    obtain rfl := Option.some.inj (hclosed.symm.trans hclosed')
    exact absurd hreplaces hnot
  | replaced _ hsplit' hclosed' _ _ _ hcut' =>
    obtain ⟨rfl, rfl⟩ := Prod.mk.inj (hsplit.symm.trans hsplit')
    obtain rfl := Option.some.inj (hclosed.symm.trans hclosed')
    obtain ⟨rfl, rfl⟩ := Prod.mk.inj (Option.some.inj (hcut.symm.trans hcut'))
    rfl

/-- **Lines.** A text is passed and is the right one exactly when the message keeps its place. -/
theorem enrich_right_iff (input : ByteText) (resolve : processResolver)
    (hint : connectionContext) :
    (∃ text, enrichConnectionLogWithContext go input resolve hint = some text ∧
      RightText go resolve hint input text) ↔ KeepsPlace go resolve hint input := by
  obtain ⟨line, lineEnding, hsplit⟩ : ∃ l e, splitEnding input = (l, e) := ⟨_, _, rfl⟩
  have hinput : input = line ++ lineEnding := by
    have h := splitEnding_append input
    rwa [hsplit] at h
  unfold enrichConnectionLogWithContext
  simp only [hsplit]
  cases hclosed : closedEndpoints go line with
  | none =>
    refine iff_of_true ⟨input, rfl, .unchanged fun endpoints hsome => ?_⟩ ?_
    · rw [hsplit, hclosed] at hsome
      simp at hsome
    · intro endpoints before after hsome
      rw [hsplit, hclosed] at hsome
      simp at hsome
  | some endpoints =>
    cases hmatched : (findProcess resolve hint endpoints).matched with
    | false =>
      refine iff_of_true ⟨input, by simp [hmatched], .unchanged fun other hsome => ?_⟩ ?_
      · rw [hsplit, hclosed] at hsome
        rwa [← Option.some.inj hsome]
      · intro other before after hsome htrue
        rw [hsplit, hclosed] at hsome
        rw [← Option.some.inj hsome, hmatched] at htrue
        simp at htrue
    | true =>
      by_cases hreplaces : Replaces go (findProcess resolve hint endpoints) line
      · obtain ⟨before, after, hcut⟩ := messageCut_of_closedEndpoints go hclosed
        have hkeeps : KeepsPlace go resolve hint input ↔
            (mapRunes go.toLower before).length = (bytesOf before).length := by
          unfold KeepsPlace
          rw [hsplit]
          constructor
          · exact fun h => h endpoints before after hclosed hmatched hreplaces hcut
          · intro h other before' after' hsome _ _ hcut'
            obtain ⟨rfl, -⟩ := Prod.mk.inj (Option.some.inj (hcut.symm.trans hcut'))
            exact h
        rw [hkeeps, ← cutBeforeMessage_right go hcut]
        have hcond : isLoopbackEndpoint (findProcess resolve hint endpoints).source = true ∧
            isConnectionReset (toLowerText go line) = true := hreplaces
        simp only [hmatched, Bool.true_eq_false, if_false, if_pos hcond]
        constructor
        · rintro ⟨text, htext, hright⟩
          have heq := hright.eq_of_replaces go hsplit hclosed hmatched hreplaces hcut
          cases hbefore : cutBeforeMessage go (demoteErrorLevel line) with
          | none => simp [hbefore] at htext
          | some part =>
            rw [hbefore, heq, Option.some.injEq, List.append_assoc, List.append_assoc] at htext
            rw [List.append_cancel_right htext]
        · intro hbefore
          rw [hbefore]
          exact ⟨_, rfl, .replaced hinput hsplit hclosed hmatched hreplaces
            (isDemoted_demoteErrorLevel line) hcut⟩
      · refine iff_of_true ⟨_, ?_, .annotated hinput hsplit hclosed hmatched hreplaces⟩ ?_
        · unfold Replaces at hreplaces
          simp only [hmatched, Bool.true_eq_false, if_false, if_neg hreplaces]
        · intro other before after hsome _ hnot
          rw [hsplit] at hsome hnot
          obtain rfl := Option.some.inj (hclosed.symm.trans hsome)
          exact absurd hnot hreplaces

end Cuts

end Throned.Boxmain
