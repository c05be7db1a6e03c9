import Mathlib.Tactic.Linarith
import Throned.Library.Numbering
import Throned.Model.LogBuffer

/-!
# What the readers of the log see

The ring is the end of the history of all lines, numbered without a gap and within its two
limits.  A reader that goes on from its last line gets the lines that are still held, once and
in order, and learns from `oldestSeq` which ones it has lost.
-/

set_option autoImplicit false

namespace Throned.Logging

open Throned.Library

/-! ## The ring -/

/-- The size of the texts of some lines. -/
def totalBytes (lines : List BufferedLine) : Int := (lines.map fun line => textBytes line.text).sum

@[simp] theorem totalBytes_cons (line : BufferedLine) (lines : List BufferedLine) :
    totalBytes (line :: lines) = textBytes line.text + totalBytes lines := by
  simp [totalBytes]

theorem totalBytes_append (lines more : List BufferedLine) :
    totalBytes (lines ++ more) = totalBytes lines + totalBytes more := by
  simp [totalBytes]

theorem length_clipped_le (line : Units) : (clipped line).length ≤ kMaxLineLength := by
  unfold clipped
  split
  · assumption
  · simp only [List.length_append, List.length_take, List.length_singleton]
    split <;> simp only [kMaxLineLength] <;> omega

theorem length_le_of_mem_lineTexts {chunk text : Units} (h : text ∈ lineTexts chunk) :
    text.length ≤ kMaxLineLength := by
  unfold lineTexts at h
  obtain ⟨line, -, rfl⟩ := List.mem_map.mp h
  exact length_clipped_le line

/-- What holds of the ring between two calls. -/
structure Ring.WellFormed (ring : Ring) : Prop where
  length_le : ring.lines.length ≤ ring.lastSeq
  /-- The numbers are consecutive and end at the last one given. -/
  numbered : NumberedFrom BufferedLine.seq (ring.lastSeq + 1 - ring.lines.length) ring.lines
  bytes_eq : ring.bytes = totalBytes ring.lines
  lines_le : ring.lines.length ≤ kMaxLines
  bytes_le : ring.bytes ≤ kMaxBytes
  /-- Only a log without a line holds none. -/
  held : ring.lines = [] → ring.lastSeq = 0

/-- **The inner loop** drops lines from the front until both limits are met; a line that fits
by itself stays. -/
theorem evict_spec (line : BufferedLine) (hline : line.text.length ≤ kMaxLineLength) :
    ∀ (lines : List BufferedLine) (bytes : Int), bytes = totalBytes (lines ++ [line]) →
      ∃ k ≤ lines.length, (evict (lines ++ [line]) bytes).1 = lines.drop k ++ [line] ∧
        (evict (lines ++ [line]) bytes).2 = totalBytes (lines.drop k ++ [line]) ∧
        (lines.drop k ++ [line]).length ≤ kMaxLines ∧
        totalBytes (lines.drop k ++ [line]) ≤ kMaxBytes := by
  intro lines
  induction lines with
  | nil =>
    intro bytes hbytes
    have hsmall : totalBytes [line] ≤ kMaxBytes := by
      simp only [totalBytes, List.map_cons, List.map_nil, List.sum_cons, List.sum_nil, textBytes,
        kMaxBytes]
      unfold kMaxLineLength at hline
      omega
    have hstays : evict ([] ++ [line]) bytes = ([line], bytes) := by
      rw [List.nil_append, evict, if_neg]
      rw [hbytes]
      simp only [List.nil_append, List.length_singleton, kMaxLines, not_or, not_lt]
      exact ⟨by omega, hsmall⟩
    refine ⟨0, le_rfl, by rw [hstays]; rfl, by rw [hstays]; exact hbytes, ?_, hsmall⟩
    simp [kMaxLines]
  | cons first lines ih =>
    intro bytes hbytes
    rw [List.cons_append, evict]
    by_cases hover : kMaxLines < (first :: (lines ++ [line])).length ∨ kMaxBytes < bytes
    · rw [if_pos hover]
      obtain ⟨k, hk, hlines, hrest⟩ := ih (bytes - textBytes first.text) (by
        rw [hbytes, List.cons_append, totalBytes_cons]
        omega)
      exact ⟨k + 1, Nat.succ_le_succ hk, hlines, hrest⟩
    · rw [if_neg hover]
      push Not at hover
      refine ⟨0, Nat.zero_le _, rfl, hbytes, hover.1, ?_⟩
      rw [List.drop_zero, ← hbytes]
      exact hover.2

/-- **One line more**: it follows what is left of the lines held before. -/
theorem push_spec {ring : Ring} (h : ring.WellFormed) (now : Int) {text : Units}
    (htext : text.length ≤ kMaxLineLength) :
    (ring.push now text).WellFormed ∧ (ring.push now text).lines <:+
      ring.lines ++ [⟨ring.lastSeq + 1, now, text⟩] := by
  obtain ⟨k, hk, hlines, hbytes, hcount, hsize⟩ :=
    evict_spec ⟨ring.lastSeq + 1, now, text⟩ htext ring.lines (ring.bytes + textBytes text) (by
      rw [h.bytes_eq, totalBytes_append]
      simp [totalBytes])
  have hheld : (ring.push now text).lines =
      ring.lines.drop k ++ [⟨ring.lastSeq + 1, now, text⟩] := hlines
  have hlast : (ring.push now text).lastSeq = ring.lastSeq + 1 := rfl
  have hsum : (ring.push now text).bytes =
      totalBytes (ring.lines.drop k ++ [⟨ring.lastSeq + 1, now, text⟩]) := hbytes
  have hlength := h.length_le
  refine ⟨⟨?_, ?_, ?_, ?_, ?_, ?_⟩, ?_⟩
  · rw [hheld, hlast, List.length_append, List.length_drop, List.length_singleton]
    omega
  · rw [hheld, hlast, List.length_append, List.length_drop, List.length_singleton]
    have hdrop := h.numbered.drop k
    rw [show ring.lastSeq + 1 + 1 - (ring.lines.length - k + 1) =
      ring.lastSeq + 1 - ring.lines.length + k by omega]
    refine hdrop.append ?_
    unfold NumberedFrom
    rw [List.map_singleton, List.length_drop, List.length_singleton, List.range'_one]
    congr 1
    show ring.lastSeq + 1 = _
    omega
  · rw [hsum, hheld]
  · rw [hheld]
    exact hcount
  · rw [hsum]
    exact hsize
  · rw [hheld]
    exact fun hnil => absurd hnil (by simp)
  · rw [hheld]
    exact ⟨ring.lines.take k, by rw [← List.append_assoc, List.take_append_drop]⟩

theorem wellFormed_empty : Ring.empty.WellFormed where
  length_le := le_rfl
  numbered := NumberedFrom.nil
  bytes_eq := rfl
  lines_le := by decide
  bytes_le := by decide
  held _ := rfl

theorem numbered_cons (last : ℕ) (now : Int) (text : Units) (texts : List Units) :
    numbered last now (text :: texts) =
      ⟨last + 1, now, text⟩ :: numbered (last + 1) now texts := by
  unfold numbered
  rw [List.zipIdx_cons, List.map_cons, List.zipIdx_succ, List.map_map]
  congr 1
  apply List.map_congr_left
  rintro ⟨t, i⟩ -
  simp only [Function.comp_apply]
  congr 1
  omega

theorem numberedFrom_numbered (now : Int) (texts : List Units) : ∀ last : ℕ,
    NumberedFrom BufferedLine.seq (last + 1) (numbered last now texts) := by
  induction texts with
  | nil => exact fun _ => NumberedFrom.nil
  | cons text texts ih =>
    intro last
    rw [numbered_cons]
    unfold NumberedFrom
    rw [List.map_cons, ih (last + 1), List.length_cons, List.range'_succ]

theorem length_numbered (last : ℕ) (now : Int) (texts : List Units) :
    (numbered last now texts).length = texts.length := by
  simp [numbered]

/-- What a whole call leaves, line by line. -/
theorem foldl_push_spec (now : Int) (texts : List Units)
    (htexts : ∀ text ∈ texts, text.length ≤ kMaxLineLength) : ∀ {ring : Ring},
    ring.WellFormed → (texts.foldl (Ring.push now) ring).WellFormed ∧
      (texts.foldl (Ring.push now) ring).lastSeq = ring.lastSeq + texts.length ∧
      (texts.foldl (Ring.push now) ring).lines <:+
        ring.lines ++ numbered ring.lastSeq now texts := by
  induction texts with
  | nil =>
    intro ring h
    refine ⟨h, rfl, ?_⟩
    rw [numbered, List.zipIdx_nil, List.map_nil, List.append_nil]
    exact List.suffix_refl _
  | cons text texts ih =>
    intro ring h
    obtain ⟨hpush, hsuffix⟩ := push_spec h now (htexts text List.mem_cons_self)
    obtain ⟨hafter, hlast, hlines⟩ := ih (fun t ht => htexts t (List.mem_cons_of_mem _ ht)) hpush
    have hlastSeq : (ring.push now text).lastSeq = ring.lastSeq + 1 := rfl
    rw [hlastSeq] at hlast hlines
    refine ⟨hafter, ?_, hlines.trans ?_⟩
    · rw [List.foldl_cons, hlast, List.length_cons]
      omega
    · rw [numbered_cons, List.append_cons]
      obtain ⟨dropped, hdropped⟩ := hsuffix
      exact ⟨dropped, by rw [← List.append_assoc, hdropped]⟩

/-! ## One turn of a reader -/

section Turn

variable {ring : Ring} {after : ℕ} {limit : Int}

/-- The number of the line before the first one held. -/
def Ring.dropped (ring : Ring) : ℕ := ring.lastSeq - ring.lines.length

theorem slice_lines (ring : Ring) (first : ℕ) (hlimit : 0 ≤ limit) :
    (slice ring first limit).lines = (ring.lines.drop first).take limit.toNat := by
  unfold slice
  simp only
  rw [max_eq_left hlimit, List.drop_take]
  by_cases hfits : ring.lines.length ≤ first + limit.toNat
  · rw [min_eq_left hfits, List.take_of_length_le (by rw [List.length_drop]),
      List.take_of_length_le (by rw [List.length_drop]; omega)]
  · rw [min_eq_right (by omega), Nat.add_sub_cancel_left]

/-- Every case of `BufferedLinesAfter` starts where the lines beyond `after` start. -/
theorem linesAfter_eq (h : ring.WellFormed) (hafter : after ≤ ring.lastSeq) :
    BufferedLinesAfter ring after limit = slice ring (after - ring.dropped) limit := by
  have hlength := h.length_le
  unfold BufferedLinesAfter Ring.dropped
  cases hlines : ring.lines with
  | nil =>
    have hnone := h.held hlines
    simp only [List.length_nil]
    congr 1
    omega
  | cons oldest rest =>
    have holdest : oldest.seq = ring.lastSeq + 1 - ring.lines.length := by
      have hnumbered := h.numbered
      rw [hlines] at hnumbered ⊢
      exact hnumbered.tail.1
    rw [hlines] at hlength holdest
    simp only
    split
    · congr 1
      omega
    · split
      · congr 1
        omega
      · congr 1
        omega

/-- The lines beyond a number that have been logged. -/
theorem filter_beyond (h : ring.WellFormed) :
    ring.lines.filter (fun line => after < line.seq) = ring.lines.drop (after - ring.dropped) := by
  have hlength := h.length_le
  rw [h.numbered.filter_lt after]
  congr 1
  unfold Ring.dropped
  omega

theorem oldestSeq_eq (h : ring.WellFormed) (first : ℕ) :
    (slice ring first limit).oldestSeq =
      if ring.lines = [] then 0 else ring.dropped + 1 := by
  have hlength := h.length_le
  unfold slice Ring.dropped
  simp only
  by_cases hnil : ring.lines = []
  · rw [if_pos hnil, hnil]
    rfl
  · rw [if_neg hnil, h.numbered.head? hnil]
    show ring.lastSeq + 1 - ring.lines.length = _
    omega

/-- What a reader's turn gives: the held lines beyond its last one, as many as it asks for,
whether more of them are held, and which lines it has lost. -/
structure TurnRight (ring : Ring) (after : ℕ) (limit : ℕ) (answer : BufferedSlice) : Prop where
  lines : answer.lines = (ring.lines.filter fun line => after < line.seq).take limit
  more : answer.more = true ↔ ∃ line ∈ ring.lines, lastReceived after answer.lines < line.seq
  /-- A number below `oldestSeq` is one whose line was evicted before the reader came. -/
  lost : ∀ n, n ∈ lostBefore after answer ↔
    after < n ∧ n ≤ ring.lastSeq ∧ n ∉ ring.lines.map BufferedLine.seq
  newest : answer.newestSeq = ring.lastSeq
  reported : droppedBefore after answer = (lostBefore after answer).length

end Turn

/-- The number a page of the held lines ends at. -/
theorem lastReceived_page {ring : Ring} (h : ring.WellFormed) {after : ℕ}
    (hafter : after ≤ ring.lastSeq) (limit : ℕ+) :
    lastReceived after ((ring.lines.drop (after - ring.dropped)).take limit) =
      min ring.lastSeq (max after ring.dropped + limit) := by
  have hlength := h.length_le
  have hpos := limit.pos
  have hpage := (h.numbered.drop (after - ring.dropped)).take (limit : ℕ)
  unfold lastReceived
  rw [hpage.getLast?, List.length_take, List.length_drop]
  unfold Ring.dropped at hpage ⊢
  by_cases hend : min (limit : ℕ) (ring.lines.length - (after - (ring.lastSeq - ring.lines.length))) = 0
  · rw [if_pos hend, Option.getD_none]
    by_cases hnil : ring.lines.length = 0
    · have hzero := h.held (List.length_eq_zero_iff.mp hnil)
      omega
    · omega
  · rw [if_neg hend, Option.getD_some]
    omega

theorem turnRight {ring : Ring} (h : ring.WellFormed) {after : ℕ} (hafter : after ≤ ring.lastSeq)
    (limit : ℕ+) : TurnRight ring after limit (BufferedLinesAfter ring after limit) := by
  have hlength := h.length_le
  have hpos := limit.pos
  have hlines : (BufferedLinesAfter ring after limit).lines =
      (ring.lines.drop (after - ring.dropped)).take limit := by
    rw [linesAfter_eq h hafter, slice_lines _ _ (by omega)]
    rfl
  have holdest : (BufferedLinesAfter ring after limit).oldestSeq =
      if ring.lines = [] then 0 else ring.dropped + 1 := by
    rw [linesAfter_eq h hafter, oldestSeq_eq h]
  have hnewest : (BufferedLinesAfter ring after limit).newestSeq = ring.lastSeq := by
    rw [linesAfter_eq h hafter]
    rfl
  have hheld : ∀ n, n ∈ ring.lines.map BufferedLine.seq ↔ ring.dropped < n ∧ n ≤ ring.lastSeq := by
    intro n
    rw [h.numbered.mem_iff]
    unfold Ring.dropped
    omega
  have hempty : ring.lines = [] → ring.lastSeq = 0 := h.held
  have hlost : ∀ n, n ∈ lostBefore after (BufferedLinesAfter ring after limit) ↔
      after < n ∧ n ≤ ring.dropped := by
    intro n
    unfold lostBefore
    rw [List.mem_range'_1, holdest]
    split
    · rename_i hnil
      have hzero := hempty hnil
      unfold Ring.dropped
      omega
    · omega
  refine ⟨?_, ?_, ?_, hnewest, ?_⟩
  · rw [hlines, filter_beyond h]
  · rw [hlines, lastReceived_page h hafter, linesAfter_eq h hafter]
    have hlt : (∃ line ∈ ring.lines,
        min ring.lastSeq (max after ring.dropped + limit) < line.seq) ↔
        max after ring.dropped + limit < ring.lastSeq := by
      constructor
      · rintro ⟨line, hline, hseq⟩
        have := (hheld line.seq).mp (List.mem_map_of_mem hline)
        omega
      · intro hbelow
        obtain ⟨line, hline, hseq⟩ := List.mem_map.mp ((hheld ring.lastSeq).mpr ⟨by omega, le_rfl⟩)
        exact ⟨line, hline, by omega⟩
    rw [hlt]
    unfold slice Ring.dropped
    simp only [decide_eq_true_eq]
    omega
  · intro n
    rw [hlost, hheld]
    have : ring.dropped ≤ ring.lastSeq := Nat.sub_le _ _
    omega
  · unfold droppedBefore lostBefore
    rw [List.length_range', holdest, hnewest]
    by_cases hnil : ring.lines = []
    · have hzero := hempty hnil
      simp only [if_pos hnil, lt_irrefl, if_false, hzero]
      split <;> omega
    · simp only [if_neg hnil, Nat.succ_pos, if_true]
      split <;> omega

/-- A reader without a cursor gets the newest lines, and none follow them. -/
theorem bufferedTail_spec (ring : Ring) (limit : ℕ+) :
    (BufferedTail ring limit).lines = ring.lines.drop (ring.lines.length - limit) ∧
      (BufferedTail ring limit).more = false := by
  have hpos := limit.pos
  have hfirst : ring.lines.length - min ring.lines.length (max (limit : Int) 0).toNat =
      ring.lines.length - limit := by
    omega
  unfold BufferedTail
  simp only
  rw [hfirst]
  constructor
  · rw [slice_lines _ _ (by omega), List.take_of_length_le]
    rw [List.length_drop]
    omega
  · unfold slice
    simp only [decide_eq_false_iff_not, not_lt]
    omega

/-! ## A reader's account -/

/-- What a reader has: every number up to its last one exactly once, as a line of the history
it received or as one it knows it has lost. -/
structure Accounted (history : List BufferedLine) (reader : Reader) : Prop where
  after_le : reader.after ≤ history.length
  of_history : ∀ line ∈ reader.received, line ∈ history
  in_order : (reader.received.map BufferedLine.seq).Pairwise (· < ·)
  missed_in_order : reader.missed.Pairwise (· < ·)
  /-- Nothing is skipped. -/
  covers : ∀ n, n ∈ reader.received.map BufferedLine.seq ∨ n ∈ reader.missed ↔
    0 < n ∧ n ≤ reader.after
  disjoint : ∀ n ∈ reader.received.map BufferedLine.seq, n ∉ reader.missed

/-- What holds after any run: the ring keeps its order and its limits, it is the end of the
history, and every reader's account and its next turn are right. -/
structure LogGuaranteed (s : LogState) : Prop where
  wellFormed : s.ring.WellFormed
  history_numbered : NumberedFrom BufferedLine.seq 1 s.history
  history_length : s.history.length = s.ring.lastSeq
  held : s.ring.lines <:+ s.history
  accounted : ∀ i, Accounted s.history (s.readers i)
  turns : ∀ i (limit : ℕ+), TurnRight s.ring (s.readers i).after limit
    (BufferedLinesAfter s.ring (s.readers i).after limit)

theorem Accounted.mono {history more : List BufferedLine} {reader : Reader}
    (h : Accounted history reader) : Accounted (history ++ more) reader :=
  { h with
    after_le := h.after_le.trans (by rw [List.length_append]; omega)
    of_history := fun line hline => List.mem_append_left _ (h.of_history line hline) }

/-- **A turn keeps a reader's account.** -/
theorem Accounted.take {ring : Ring} {history : List BufferedLine} {reader : Reader}
    (h : Accounted history reader) (hring : ring.WellFormed)
    (hlength : history.length = ring.lastSeq) (hheld : ring.lines <:+ history) (limit : ℕ+) :
    Accounted history (reader.take (BufferedLinesAfter ring reader.after limit)) := by
  have hafter : reader.after ≤ ring.lastSeq := hlength ▸ h.after_le
  have hcount := hring.length_le
  have hpos := limit.pos
  have hturn := turnRight hring hafter limit
  have hlines := hturn.lines
  rw [filter_beyond hring] at hlines
  have hpage := (hring.numbered.drop (reader.after - ring.dropped)).take (limit : ℕ)
  rw [← hlines] at hpage
  have hlast := lastReceived_page hring hafter limit
  rw [← hlines] at hlast
  have hpagelen : (BufferedLinesAfter ring reader.after limit).lines.length =
      min (limit : ℕ) (ring.lines.length - (reader.after - ring.dropped)) := by
    rw [hlines, List.length_take, List.length_drop]
  have hgot : ∀ n, n ∈ (BufferedLinesAfter ring reader.after limit).lines.map BufferedLine.seq ↔
      max reader.after ring.dropped < n ∧
        n ≤ min ring.lastSeq (max reader.after ring.dropped + limit) := by
    intro n
    rw [hpage.mem_iff, hpagelen]
    unfold Ring.dropped
    omega
  have hlost : ∀ n, n ∈ lostBefore reader.after (BufferedLinesAfter ring reader.after limit) ↔
      reader.after < n ∧ n ≤ ring.dropped := by
    intro n
    rw [hturn.lost, hring.numbered.mem_iff]
    unfold Ring.dropped
    omega
  have hdropped : ring.dropped ≤ ring.lastSeq := Nat.sub_le _ _
  have hreceived : ∀ n ∈ reader.received.map BufferedLine.seq, n ≤ reader.after := fun n hn =>
    ((h.covers n).mp (Or.inl hn)).2
  have hmissed : ∀ n ∈ reader.missed, n ≤ reader.after := fun n hn =>
    ((h.covers n).mp (Or.inr hn)).2
  unfold Reader.take
  refine ⟨?_, ?_, ?_, ?_, ?_, ?_⟩
  · show lastReceived _ _ ≤ _
    rw [hlast, hlength]
    exact min_le_left _ _
  · intro line hline
    rcases List.mem_append.mp hline with hold | hnew
    · exact h.of_history line hold
    · rw [hlines] at hnew
      exact hheld.subset (List.mem_of_mem_drop (List.mem_of_mem_take hnew))
  · rw [List.map_append]
    refine List.pairwise_append.mpr ⟨h.in_order, hpage.pairwise, fun m hm n hn => ?_⟩
    have hbelow := hreceived m hm
    have hbeyond := ((hgot n).mp hn).1
    omega
  · refine List.pairwise_append.mpr ⟨h.missed_in_order, List.pairwise_lt_range', fun m hm n hn => ?_⟩
    have hbelow := hmissed m hm
    have hbeyond := ((hlost n).mp hn).1
    omega
  · intro n
    show _ ↔ 0 < n ∧ n ≤ lastReceived _ _
    rw [List.map_append, List.mem_append, List.mem_append, hgot, hlost, hlast, or_or_or_comm,
      h.covers]
    omega
  · intro n hn hlostn
    rw [List.map_append, List.mem_append, hgot] at hn
    rw [List.mem_append, hlost] at hlostn
    rcases hn with hold | hnew
    · rcases hlostn with hmiss | hnow
      · exact h.disjoint n hold hmiss
      · have := hreceived n hold
        omega
    · rcases hlostn with hmiss | hnow
      · have := hmissed n hmiss
        omega
      · omega

/-! ## Any interleaving -/

theorem logGuaranteed_of {s : LogState} (wellFormed : s.ring.WellFormed)
    (history_numbered : NumberedFrom BufferedLine.seq 1 s.history)
    (history_length : s.history.length = s.ring.lastSeq) (held : s.ring.lines <:+ s.history)
    (accounted : ∀ i, Accounted s.history (s.readers i)) : LogGuaranteed s where
  wellFormed := wellFormed
  history_numbered := history_numbered
  history_length := history_length
  held := held
  accounted := accounted
  turns i limit := turnRight wellFormed (history_length ▸ (accounted i).after_le) limit

theorem logGuaranteed_initial : LogGuaranteed LogState.initial := by
  refine logGuaranteed_of wellFormed_empty NumberedFrom.nil rfl (List.suffix_refl _) fun i => ?_
  refine ⟨le_rfl, fun _ h => absurd h List.not_mem_nil, List.Pairwise.nil, List.Pairwise.nil,
    fun n => ?_, fun _ h => absurd h List.not_mem_nil⟩
  show n ∈ [] ∨ n ∈ [] ↔ 0 < n ∧ n ≤ 0
  simp only [List.not_mem_nil, or_self, false_iff]
  omega

theorem logGuaranteed_step (s : LogState) (event : LogEvent) (h : LogGuaranteed s) :
    LogGuaranteed (s.step event) := by
  cases event with
  | log chunk now =>
    obtain ⟨hring, hlast, hlines⟩ :=
      foldl_push_spec now (lineTexts chunk) (fun _ => length_le_of_mem_lineTexts) h.wellFormed
    refine logGuaranteed_of hring ?_ ?_ ?_ fun i => (h.accounted i).mono
    · refine h.history_numbered.append ?_
      rw [h.history_length, Nat.add_comm]
      exact numberedFrom_numbered now _ _
    · show (s.history ++ _).length = (BufferUserLog s.ring chunk now).lastSeq
      rw [List.length_append, length_numbered, h.history_length]
      exact hlast.symm
    · obtain ⟨dropped, hdropped⟩ := h.held
      refine hlines.trans ⟨dropped, ?_⟩
      show _ = s.history ++ _
      rw [← List.append_assoc, hdropped]
  | read i limit =>
    refine logGuaranteed_of h.wellFormed h.history_numbered h.history_length h.held fun j => ?_
    show Accounted s.history (Function.update s.readers i
      ((s.readers i).take (BufferedLinesAfter s.ring (s.readers i).after limit)) j)
    by_cases hj : j = i
    · subst hj
      rw [Function.update_self]
      exact (h.accounted j).take h.wellFormed h.history_length h.held limit
    · rw [Function.update_of_ne hj]
      exact h.accounted j

/-- **Whatever is logged and whenever the readers come**, the ring keeps its order and limits,
and every reader gets each line that was still held at its turn exactly once and in order, and
knows exactly which lines it has lost. -/
theorem log_guaranteed (events : List LogEvent) :
    LogGuaranteed (runAll LogState.step LogState.initial events) :=
  runAll_invariant logGuaranteed_step logGuaranteed_initial events

end Throned.Logging
