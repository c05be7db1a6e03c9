import Throned.Analysis.RpcSockets

/-!
# The flag of the channel

Sockets are adopted in the order of their `Reconnect`, so the socket in use and the queued ones
are consecutive.  Where every drop is noticed, `IsConnected` tells between two `Reconnect`
calls whether the last one's socket is connected.
-/

set_option autoImplicit false

namespace Throned.API

open Throned.Library

namespace Channel

variable {s t : Channel}

/-- The socket in use and the queued ones are consecutive, up to the last queued. -/
def InOrder (s : Channel) : Prop :=
  ∃ k, s.chain = List.range' k (s.queued - k) ∧ (s.queued = 0 ∨ k < s.queued)

theorem InOrder.getLast (h : s.InOrder) :
    s.chain.getLast? = if s.queued = 0 then none else some (s.queued - 1) := by
  obtain ⟨k, hchain, hk⟩ := h
  rw [hchain]
  split
  · rename_i hzero
    rw [hzero, Nat.zero_sub]
    rfl
  · rename_i hsome
    have hlt : k < s.queued := hk.resolve_left hsome
    obtain ⟨m, hm⟩ : ∃ m, s.queued - k = m + 1 := ⟨s.queued - k - 1, by omega⟩
    rw [hm, List.range'_concat, List.getLast?_concat]
    congr 1
    omega

theorem InOrder.targetAlive_iff (h : s.InOrder) :
    s.TargetAlive ↔ s.queued ≠ 0 ∧ s.alive (s.queued - 1) = true := by
  unfold TargetAlive
  rw [h.getLast]
  split
  · rename_i hzero
    exact ⟨fun ⟨n, hn, _⟩ => absurd hn nofun, fun ⟨hsome, _⟩ => absurd hzero hsome⟩
  · rename_i hsome
    constructor
    · rintro ⟨n, hn, halive⟩
      rw [← Option.some.inj hn] at halive
      exact ⟨hsome, halive⟩
    · exact fun ⟨_, halive⟩ => ⟨_, rfl, halive⟩

/-- The order of the sockets, the new socket of a `Reconnect` and the flag. -/
structure KeepsFlag (s : Channel) : Prop where
  order : s.InOrder
  sockets : s.reconnect ≠ none → 0 < s.sockets
  newAlive : s.reconnect ≠ none → s.alive (s.sockets - 1) = true
  flag : s.reconnect = none → (s.connected = true ↔ s.TargetAlive)

theorem queued_congr (hreconnect : t.reconnect = s.reconnect) (hsockets : t.sockets = s.sockets) :
    t.queued = s.queued := by
  unfold queued
  rw [hreconnect, hsockets]

theorem KeepsFlag.congr (h : s.KeepsFlag) (hchain : t.chain = s.chain)
    (hreconnect : t.reconnect = s.reconnect) (hsockets : t.sockets = s.sockets)
    (halive : t.alive = s.alive) (hconnected : t.connected = s.connected) : t.KeepsFlag := by
  refine ⟨?_, ?_, ?_, ?_⟩
  · unfold InOrder
    rw [hchain, queued_congr hreconnect hsockets]
    exact h.order
  · rw [hreconnect, hsockets]
    exact h.sockets
  · rw [hreconnect, hsockets, halive]
    exact h.newAlive
  · unfold TargetAlive
    rw [hreconnect, hconnected, hchain, halive]
    exact h.flag

theorem KeepsFlag.onReadyRead (h : s.KeepsFlag) (readAll : List UInt8) :
    (s.onReadyRead readAll).KeepsFlag := by
  unfold Channel.onReadyRead
  split
  · exact h
  · obtain ⟨pending, calls, heq⟩ := processBuffer_eq
      { s with read_buf := s.read_buf ++ readAll, stream := s.stream ++ readAll }
    rw [heq]
    exact h.congr rfl rfl rfl rfl rfl

/-- The old socket is not the last one. -/
theorem KeepsFlag.alive_adopt (h : s.KeepsFlag) {newSock : ℕ} {rest : List Item}
    (hqueue : s.queue = .adopt newSock :: rest) {n : ℕ} (hn : s.queued - 1 ≤ n) :
    (Channel.adopt { s with queue := rest } newSock).alive n = s.alive n := by
  obtain ⟨k, hchain, hk⟩ := h.order
  refine if_neg fun hsock => ?_
  unfold chain at hchain
  rw [hqueue, ← hsock, Option.toList_some, List.singleton_append] at hchain
  have hlength := congrArg List.length hchain
  have htwo : ∃ m, s.queued - k = m + 2 := by
    rw [List.length_range', List.length_cons] at hlength
    exact ⟨(adopts rest).length, by rw [← hlength]; rfl⟩
  obtain ⟨m, hm⟩ := htwo
  rw [hm, List.range'_succ] at hchain
  injection hchain with hfirst
  omega

theorem KeepsFlag.adopt (h : s.KeepsFlag) {newSock : ℕ} {rest : List Item}
    (hqueue : s.queue = .adopt newSock :: rest) :
    (Channel.adopt { s with queue := rest } newSock).KeepsFlag := by
  obtain ⟨k, hchain, hk⟩ := h.order
  have hadopts : s.chain = s.sock.toList ++ newSock :: adopts rest := by
    unfold chain
    rw [hqueue]
    rfl
  have hqueued : (Channel.adopt { s with queue := rest } newSock).queued = s.queued := rfl
  have hlast := fun n (hn : s.queued - 1 ≤ n) => h.alive_adopt hqueue hn
  have hrange : ∃ k, newSock :: adopts rest = List.range' k (s.queued - k) ∧
      (s.queued = 0 ∨ k < s.queued) := by
    cases hsock : s.sock with
    | none =>
      refine ⟨k, ?_, hk⟩
      rw [← hchain, hadopts, hsock]
      rfl
    | some old =>
      rw [hadopts, hsock, Option.toList_some, List.singleton_append] at hchain
      obtain ⟨m, hm⟩ : ∃ m, s.queued - k = m + 1 := by
        have hlength := congrArg List.length hchain
        rw [List.length_range', List.length_cons, List.length_cons] at hlength
        exact ⟨s.queued - k - 1, by omega⟩
      rw [hm, List.range'_succ] at hchain
      injection hchain with hfirst hrest
      refine ⟨k + 1, ?_, ?_⟩
      · rw [hrest]
        congr 1
        omega
      · have hlength := congrArg List.length hrest
        rw [List.length_range', List.length_cons] at hlength
        omega
  have horder : (Channel.adopt { s with queue := rest } newSock).InOrder := hrange
  refine ⟨horder, h.sockets, fun hreconnect => ?_, fun hreconnect => ?_⟩
  · have hqueued' : s.queued ≤ s.sockets := by
      unfold queued
      split
      · exact Nat.sub_le _ _
      · exact le_rfl
    exact (hlast (s.sockets - 1) (by omega)).trans (h.newAlive hreconnect)
  · rw [horder.targetAlive_iff, hqueued, hlast _ le_rfl, ← h.order.targetAlive_iff]
    exact h.flag hreconnect

/-- A drop that is noticed. -/
theorem KeepsFlag.disconnected (h : s.KeepsFlag) {n : ℕ} (hok : s.DropNoticed n) :
    (s.disconnected n).KeepsFlag := by
  have hnew : s.reconnect ≠ none →
      (if s.sockets - 1 = n then false else s.alive (s.sockets - 1)) = true := by
    intro hreconnect
    have hne := hok.notNew hreconnect
    have hpos := h.sockets hreconnect
    rw [if_neg (by omega)]
    exact h.newAlive hreconnect
  unfold Channel.disconnected
  split
  · exact h
  · rename_i halive
    split
    · rename_i hsock
      split
      · exact h
      · refine ⟨h.order, h.sockets, hnew, fun hreconnect => ?_⟩
        have hchain : s.chain = [n] := by
          unfold chain
          rw [hsock, hok.last hsock hreconnect]
          rfl
        refine ⟨fun hflag => absurd hflag Bool.noConfusion, ?_⟩
        rintro ⟨m, hm, hmalive⟩
        change s.chain.getLast? = some m at hm
        rw [hchain] at hm
        rw [← Option.some.inj hm] at hmalive
        exact absurd hmalive (by simp)
    · rename_i hsock
      refine ⟨h.order, h.sockets, hnew, fun hreconnect => ?_⟩
      refine (h.flag hreconnect).trans ?_
      have hnot : n ∉ s.chain := by
        unfold chain
        rw [List.mem_append, mem_adopts, Option.mem_toList]
        exact not_or.mpr ⟨hsock, hok.notQueued⟩
      refine exists_congr fun m => and_congr_right fun hm => ?_
      have hne : m ≠ n := by
        rintro rfl
        exact hnot (List.mem_of_getLast? hm)
      simp only [if_neg hne]

/-- **The flag in every step.** -/
theorem KeepsFlag.step (h : s.KeepsFlag) {ev : Event} (hok : s.Ok ev) : (s.step ev).KeepsFlag := by
  cases ev with
  | callBegins c method req =>
    simp only [Channel.step, callBegins]
    split
    · exact h
    · split
      · exact h.congr rfl rfl rfl rfl rfl
      · exact h.congr rfl rfl rfl rfl rfl
  | callRegisters c =>
    simp only [Channel.step, callRegisters]
    split
    · exact h
    · exact h.congr rfl rfl rfl rfl rfl
  | callQueues c =>
    simp only [Channel.step, callQueues]
    split
    · exact h
    · refine h.congr ?_ rfl rfl rfl rfl
      unfold chain
      simp only [setCall]
      rw [adopts_append]
      exact congrArg _ (List.append_nil _)
  | callReturns c =>
    simp only [Channel.step, callReturns]
    split
    · exact h
    · split
      · split
        · exact h.congr rfl rfl rfl rfl rfl
        · exact h.congr rfl rfl rfl rfl rfl
      · exact h
  | callTimesOut c again =>
    simp only [Channel.step, callTimesOut]
    split
    · exact h
    · split
      · exact h
      · split
        · exact h.congr rfl rfl rfl rfl rfl
        · exact h
  | reconnectMarks =>
    simp only [Channel.step, reconnectMarks]
    split
    · exact h
    · rename_i hnone
      push Not at hnone
      refine ⟨?_, fun _ => Nat.succ_pos _, fun _ => if_pos rfl, fun hsome => absurd hsome (by rintro ⟨⟩)⟩
      have hqueued : s.queued = s.sockets := by
        unfold queued
        rw [hnone]
        rfl
      have horder := h.order
      unfold InOrder at horder ⊢
      rw [hqueued] at horder
      exact horder
  | reconnectWakes =>
    simp only [Channel.step, reconnectWakes]
    split
    · exact h
    · rename_i hmarked
      push Not at hmarked
      have hbusy : s.reconnect ≠ none := by
        rw [hmarked]
        exact (by rintro ⟨⟩)
      refine ⟨?_, fun _ => h.sockets hbusy, fun _ => h.newAlive hbusy, (by rintro ⟨⟩)⟩
      have hqueued : s.queued = s.sockets - 1 := if_pos (Or.inl hmarked)
      have horder := h.order
      unfold InOrder at horder ⊢
      rw [hqueued] at horder
      exact horder
  | reconnectQueues =>
    simp only [Channel.step, reconnectQueues]
    split
    · exact h
    · rename_i hwoken
      push Not at hwoken
      have hbusy : s.reconnect ≠ none := by
        rw [hwoken]
        exact (by rintro ⟨⟩)
      have hpos := h.sockets hbusy
      refine ⟨?_, fun _ => hpos, fun _ => h.newAlive hbusy, (by rintro ⟨⟩)⟩
      have hqueued : s.queued = s.sockets - 1 := if_pos (Or.inr hwoken)
      obtain ⟨k, hchain, hk⟩ := h.order
      rw [hqueued] at hchain hk
      unfold chain at hchain
      have hnext : ∀ k', k' ≤ s.sockets - 1 → List.range' k' (s.sockets - 1 - k') ++ [s.sockets - 1] =
          List.range' k' (s.sockets - k') := by
        intro k' hk'
        have hm : s.sockets - k' = (s.sockets - 1 - k') + 1 := by omega
        rw [hm, List.range'_concat]
        congr 2
        omega
      rcases hk with hzero | hlt
      · rw [hzero, Nat.zero_sub] at hchain
        refine ⟨s.sockets - 1, ?_, Or.inr ?_⟩
        · change s.sock.toList ++ adopts (s.queue ++ [.adopt (s.sockets - 1)]) = _
          rw [adopts_append, ← List.append_assoc, hchain]
          have hlast := hnext (s.sockets - 1) le_rfl
          rw [Nat.sub_self] at hlast
          exact hlast
        · exact Nat.sub_lt hpos Nat.one_pos
      · refine ⟨k, ?_, Or.inr ?_⟩
        · change s.sock.toList ++ adopts (s.queue ++ [.adopt (s.sockets - 1)]) = _
          rw [adopts_append, ← List.append_assoc, hchain]
          exact hnext k hlt.le
        · exact lt_of_lt_of_le hlt (Nat.sub_le _ _)
  | reconnectStores =>
    simp only [Channel.step, reconnectStores]
    split
    · exact h
    · rename_i hqueued
      push Not at hqueued
      have hbusy : s.reconnect ≠ none := by
        rw [hqueued]
        exact (by rintro ⟨⟩)
      have hsockets : s.queued = s.sockets := by
        unfold queued
        rw [hqueued]
        rfl
      have horder : InOrder { s with connected := true, reconnect := none } := by
        have horder := h.order
        unfold InOrder at horder ⊢
        rw [hsockets] at horder
        exact horder
      refine ⟨horder, fun hsome => absurd rfl hsome, fun hsome => absurd rfl hsome, fun _ => ?_⟩
      refine iff_of_true rfl (horder.targetAlive_iff.mpr ⟨?_, h.newAlive hbusy⟩)
      exact (h.sockets hbusy).ne'
  | runQueued bytesAvailable =>
    simp only [Channel.step, runQueued]
    split
    · exact h
    · split
      · exact h
      · rename_i newSock rest hqueue
        split
        · exact h.adopt hqueue
        · exact (h.adopt hqueue).onReadyRead _
      · rename_i c frame rest hqueue
        refine h.congr ?_ rfl rfl rfl rfl
        unfold chain
        rw [hqueue]
        rfl
  | readyRead readAll =>
    simp only [Channel.step, Channel.readyRead]
    split
    · exact h
    · exact h.onReadyRead readAll
  | disconnected n => exact h.disconnected hok
  | ioWakes =>
    simp only [Channel.step, Channel.ioWakes]
    split
    · exact h.congr rfl rfl rfl rfl rfl
    · exact h

end Channel

end Throned.API
