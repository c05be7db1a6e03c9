import Mathlib.Data.List.Nodup
import Mathlib.Data.List.Perm.Basic
import Throned.Analysis.RpcFrames

/-!
# The calls and their answers

`pending` has exactly the calls that wait, each under its own id.  A call is answered by the
frame with its id or woken with an error, and then it is no longer there.
-/

set_option autoImplicit false

namespace Throned.API

open Throned.Library

/-- A call that has come to `pending` and has not returned. -/
def Call.Waits (call : Call) : Prop :=
  (call.progress = .registered ∨ call.progress = .queued) ∧ call.done = false

theorem not_waits_of_checked {progress : Progress} (h : progress = .checked) :
    ¬ (progress = .registered ∨ progress = .queued) := by
  rw [h]
  exact not_or.mpr ⟨nofun, nofun⟩

/-- A frame has brought a call its success. -/
def Answered (received : List Response) (reqId : ℕ) (data : List UInt8) : Prop :=
  ∃ frame ∈ received, frame.reqId = reqId ∧ frame.status = 0 ∧ frame.data = data

/-- What holds of one call. -/
structure CallKept (received : List Response) (call : Call) : Prop where
  fresh : call.progress = .checked → call.done = false
  undone : call.done = false → call.status = 1
  done : call.done = true → call.status = 0 → Answered received call.reqId call.data
  returned : ∀ data, call.progress = .returned (.ok data) → Answered received call.reqId data

/-- What holds of `pending`, the calls and the frames so far. -/
structure CallsKept (pending : List (ℕ × ℕ)) (calls : ℕ → Option Call) (received : List Response) :
    Prop where
  entry : ∀ id c, (id, c) ∈ pending → ∃ call, calls c = some call ∧ call.reqId = id ∧ call.Waits
  waiting : ∀ c call, calls c = some call → call.Waits → (call.reqId, c) ∈ pending
  nodup : (pending.map Prod.fst).Nodup
  call : ∀ c call, calls c = some call → CallKept received call

section

variable {pending : List (ℕ × ℕ)} {calls : ℕ → Option Call} {received received' : List Response}
  {c : ℕ}

/-- The calls under one id. -/
theorem CallsKept.single (h : CallsKept pending calls received) {id c c' : ℕ}
    (hc : (id, c) ∈ pending) (hc' : (id, c') ∈ pending) : c = c' := by
  have heq := List.inj_on_of_nodup_map h.nodup hc hc' rfl
  exact congrArg Prod.snd heq

theorem CallKept.mono {call : Call} (h : CallKept received call)
    (hreceived : received ⊆ received') : CallKept received' call := by
  have hanswered : ∀ reqId data, Answered received reqId data → Answered received' reqId data := by
    rintro reqId data ⟨frame, hframe, hrest⟩
    exact ⟨frame, hreceived hframe, hrest⟩
  exact ⟨h.fresh, h.undone, fun hdone hstatus => hanswered _ _ (h.done hdone hstatus),
    fun data hdata => hanswered _ _ (h.returned data hdata)⟩

theorem CallsKept.mono (h : CallsKept pending calls received) (hreceived : received ⊆ received') :
    CallsKept pending calls received' :=
  ⟨h.entry, h.waiting, h.nodup, fun c call hcall => (h.call c call hcall).mono hreceived⟩

/-- One call changes, and its entry with it. -/
theorem CallsKept.set (h : CallsKept pending calls received) {call : Call}
    {entries : List (ℕ × ℕ)}
    (hothers : ∀ id c', c' ≠ c → ((id, c') ∈ entries ↔ (id, c') ∈ pending))
    (hentry : ∀ id, (id, c) ∈ entries ↔ id = call.reqId ∧ call.Waits)
    (hnodup : (entries.map Prod.fst).Nodup) (hcall : CallKept received call) :
    CallsKept entries (fun c' => if c' = c then some call else calls c') received where
  entry id c' hmem := by
    by_cases hc : c' = c
    · rw [hc] at hmem ⊢
      obtain ⟨hid, hwaits⟩ := (hentry id).mp hmem
      exact ⟨call, if_pos rfl, hid.symm, hwaits⟩
    · obtain ⟨other, hother, hrest⟩ := h.entry id c' ((hothers id c' hc).mp hmem)
      exact ⟨other, (if_neg hc).trans hother, hrest⟩
  waiting c' call' hcall' hwaits := by
    by_cases hc : c' = c
    · rw [if_pos hc] at hcall'
      rw [← Option.some.inj hcall'] at hwaits ⊢
      rw [hc]
      exact (hentry _).mpr ⟨rfl, hwaits⟩
    · rw [if_neg hc] at hcall'
      exact (hothers _ c' hc).mpr (h.waiting c' call' hcall' hwaits)
  nodup := hnodup
  call c' call' hcall' := by
    by_cases hc : c' = c
    · rw [if_pos hc] at hcall'
      rw [← Option.some.inj hcall']
      exact hcall
    · rw [if_neg hc] at hcall'
      exact h.call c' call' hcall'

/-- The call stays where it is in `pending`. -/
theorem CallsKept.set_same (h : CallsKept pending calls received) {call : Call}
    (hentry : ∀ id, (id, c) ∈ pending ↔ id = call.reqId ∧ call.Waits)
    (hcall : CallKept received call) :
    CallsKept pending (fun c' => if c' = c then some call else calls c') received :=
  h.set (fun _ _ _ => Iff.rfl) hentry h.nodup hcall

/-- The entries of a call. -/
theorem CallsKept.entry_iff (h : CallsKept pending calls received) {call : Call}
    (hcall : calls c = some call) (id : ℕ) :
    (id, c) ∈ pending ↔ id = call.reqId ∧ call.Waits := by
  constructor
  · intro hmem
    obtain ⟨call', hcall', hid, hwaits⟩ := h.entry id c hmem
    have heq : call' = call := Option.some.inj (hcall'.symm.trans hcall)
    rw [heq] at hid hwaits
    exact ⟨hid.symm, hwaits⟩
  · rintro ⟨rfl, hwaits⟩
    exact h.waiting c call hcall hwaits

end

namespace Channel

variable {s : Channel} {c : ℕ}

def KeepsCalls (s : Channel) : Prop := CallsKept s.pending s.calls s.received

theorem callAt_eq {progress : Progress} {call : Call} (h : s.callAt c progress = some call) :
    s.calls c = some call ∧ call.progress = progress := by
  obtain ⟨hcall, hprogress⟩ := Option.filter_eq_some_iff.mp h
  exact ⟨hcall, of_decide_eq_true hprogress⟩

/-! ## The io thread -/

theorem KeepsCalls.wakeAll (h : s.KeepsCalls) : s.wakeAll.KeepsCalls where
  entry id c hmem := absurd hmem List.not_mem_nil
  waiting c call hcall hwaits := by
    change (if c ∈ s.pending.map Prod.snd then
      (s.calls c).map fun call => { call with done := true } else s.calls c) = some call at hcall
    exfalso
    split at hcall
    · obtain ⟨old, -, rfl⟩ := Option.map_eq_some_iff.mp hcall
      exact absurd hwaits.2 Bool.noConfusion
    · rename_i hnot
      exact hnot (List.mem_map_of_mem (h.waiting c call hcall hwaits))
  nodup := List.nodup_nil
  call c call hcall := by
    change (if c ∈ s.pending.map Prod.snd then
      (s.calls c).map fun call => { call with done := true } else s.calls c) = some call at hcall
    split at hcall
    · rename_i hmem
      obtain ⟨⟨id, c'⟩, hentry, rfl⟩ := List.mem_map.mp hmem
      obtain ⟨old, hold, rfl⟩ := Option.map_eq_some_iff.mp hcall
      obtain ⟨old', hold', -, hwaits⟩ := h.entry id c' hentry
      have heq : old' = old := Option.some.inj (hold'.symm.trans hold)
      rw [heq] at hwaits
      have hkept := h.call c' old hold
      refine ⟨fun hchecked => ?_, fun hundone => absurd hundone Bool.noConfusion,
        fun _ hstatus => ?_, hkept.returned⟩
      · exact absurd hwaits.1 (not_waits_of_checked hchecked)
      · have hone := hkept.undone hwaits.2
        rw [hone] at hstatus
        exact absurd hstatus (by decide)
    · exact h.call c call hcall

theorem KeepsCalls.deliver (h : s.KeepsCalls) (frame : Response) :
    (s.deliver frame).KeepsCalls := by
  have hreceived : s.received ⊆ s.received ++ [frame] := List.subset_append_left _ _
  have hbase : CallsKept s.pending s.calls (s.received ++ [frame]) := CallsKept.mono h hreceived
  unfold Channel.deliver
  simp only
  split
  · exact hbase
  · rename_i c hlookup
    have hmem : (frame.reqId, c) ∈ s.pending := by
      rw [List.lookup_eq_some_iff] at hlookup
      obtain ⟨before, after, heq, -⟩ := hlookup
      rw [heq]
      exact List.mem_append_right _ List.mem_cons_self
    obtain ⟨call, hcall, hid, hwaits⟩ := h.entry _ _ hmem
    suffices hset : CallsKept (s.pending.filter fun entry => entry.1 ≠ frame.reqId)
        (fun c' => if c' = c then
          some { call with status := frame.status, data := frame.data, done := true }
          else s.calls c') (s.received ++ [frame]) by
      unfold KeepsCalls
      simp only [hcall]
      exact hset
    refine hbase.set ?_ ?_ ?_ ?_
    · intro id c' hc'
      simp only [List.mem_filter, decide_eq_true_eq]
      refine ⟨And.left, fun hentry => ⟨hentry, ?_⟩⟩
      rintro rfl
      exact hc' (CallsKept.single h hentry hmem)
    · intro id
      simp only [List.mem_filter, decide_eq_true_eq]
      constructor
      · rintro ⟨hentry, hne⟩
        exact absurd (((CallsKept.entry_iff h hcall id).mp hentry).1.trans hid) hne
      · rintro ⟨-, -, hdone⟩
        exact absurd hdone Bool.noConfusion
    · exact h.nodup.sublist (List.filter_sublist.map _)
    · have hkept := (h.call c call hcall).mono hreceived
      refine ⟨fun hchecked => ?_, fun hundone => absurd hundone Bool.noConfusion,
        fun _ hstatus => ?_, hkept.returned⟩
      · exact absurd hwaits.1 (not_waits_of_checked hchecked)
      · exact ⟨frame, List.mem_append_right _ List.mem_cons_self, hid.symm, hstatus, rfl⟩

theorem KeepsCalls.processBuffer (h : s.KeepsCalls) : s.processBuffer.KeepsCalls := by
  have hall : ∀ (frames : List Response) (t : Channel), t.KeepsCalls →
      (frames.foldl Channel.deliver t).KeepsCalls := by
    intro frames
    induction frames with
    | nil => exact fun _ ht => ht
    | cons frame frames ih => exact fun t ht => ih _ (ht.deliver frame)
  exact hall (responses.drain s.read_buf).1 s h

theorem KeepsCalls.onReadyRead (h : s.KeepsCalls) (readAll : List UInt8) :
    (s.onReadyRead readAll).KeepsCalls := by
  unfold Channel.onReadyRead
  split
  · exact h
  · exact KeepsCalls.processBuffer h

theorem KeepsCalls.writeTo (h : s.KeepsCalls) : (s.writeTo c).KeepsCalls := by
  unfold Channel.writeTo KeepsCalls
  simp only
  cases hcall : s.calls c with
  | none =>
    have hsame : (fun c' => if c' = c then
        (none : Option Call).map fun call => { call with wentTo := s.sock } else s.calls c') =
        s.calls := by
      funext c'
      split
      · rename_i heq
        rw [heq, hcall]
        rfl
      · rfl
    rw [hsame]
    exact h
  | some call =>
    have hkept := h.call c call hcall
    have hentry := CallsKept.entry_iff h hcall
    exact CallsKept.set_same h hentry ⟨hkept.fresh, hkept.undone, hkept.done, hkept.returned⟩

/-- The id of a call that registers is free: no earlier call with it, `2 ^ 32` ids before, still
waits. -/
def IdFree (s : Channel) (c : ℕ) : Prop :=
  ∀ call, s.callAt c .checked = some call → call.reqId ∉ s.pending.map Prod.fst

/-- **Every step keeps the calls.** -/
theorem KeepsCalls.step (h : s.KeepsCalls) {ev : Event}
    (hfree : ∀ c, ev = .callRegisters c → s.IdFree c) : (s.step ev).KeepsCalls := by
  cases ev with
  | callBegins c method req =>
    simp only [Channel.step, callBegins]
    split
    · exact h
    · rename_i hnew
      push Not at hnew
      have hnone : ∀ id, (id, c) ∉ s.pending := by
        intro id hmem
        obtain ⟨call, hcall, -⟩ := h.entry id c hmem
        rw [hnew] at hcall
        cases hcall
      have hkept : ∀ progress : Progress, (progress ≠ .registered ∧ progress ≠ .queued ∧
          ∀ data, progress ≠ .returned (.ok data)) →
          (s.setCall c ⟨s.next_id, method, req, progress, false, 1, [], none⟩).KeepsCalls := by
        rintro progress ⟨hregistered, hqueued, hreturned⟩
        refine CallsKept.set_same h (fun id => ⟨fun hmem => absurd hmem (hnone id), ?_⟩) ?_
        · rintro ⟨-, hprogress, -⟩
          exact absurd hprogress (not_or.mpr ⟨hregistered, hqueued⟩)
        · exact ⟨fun _ => rfl, fun _ => rfl, fun hdone => absurd hdone Bool.noConfusion,
            fun data hdata => absurd hdata (hreturned data)⟩
      split
      · exact hkept .checked ⟨nofun, nofun, nofun⟩
      · exact hkept _ ⟨nofun, nofun, nofun⟩
  | callRegisters c =>
    have hfree := hfree c rfl
    simp only [Channel.step, callRegisters]
    split
    · exact h
    · rename_i call hat
      obtain ⟨hcall, hprogress⟩ := callAt_eq hat
      have hid := hfree call hat
      have hkept := h.call c call hcall
      have hall : s.pending.filter (fun entry => entry.1 ≠ call.reqId) = s.pending := by
        rw [List.filter_eq_self]
        intro entry hentry
        refine decide_eq_true ?_
        rintro heq
        exact hid (heq ▸ List.mem_map_of_mem hentry)
      rw [hall]
      refine CallsKept.set h ?_ ?_ (List.nodup_cons.mpr ⟨hid, h.nodup⟩)
        ⟨nofun, hkept.undone, hkept.done, nofun⟩
      · intro id c' hc'
        rw [List.mem_cons]
        refine or_iff_right fun heq => hc' ?_
        exact congrArg Prod.snd heq
      · intro id
        rw [List.mem_cons]
        constructor
        · rintro (heq | hmem)
          · exact ⟨congrArg Prod.fst heq, Or.inl rfl, hkept.fresh hprogress⟩
          · exact absurd ((CallsKept.entry_iff h hcall id).mp hmem).2.1
              (not_waits_of_checked hprogress)
        · rintro ⟨rfl, -⟩
          exact Or.inl rfl
  | callQueues c =>
    simp only [Channel.step, callQueues]
    split
    · exact h
    · rename_i call hat
      obtain ⟨hcall, hprogress⟩ := callAt_eq hat
      have hkept := h.call c call hcall
      refine CallsKept.set_same h (fun id => ?_)
        (show CallKept _ { call with progress := .queued } from
          ⟨nofun, hkept.undone, hkept.done, nofun⟩)
      rw [CallsKept.entry_iff h hcall]
      refine and_congr_right fun _ => ?_
      exact ⟨fun hwaits => ⟨Or.inr rfl, hwaits.2⟩, fun hwaits => ⟨Or.inl hprogress, hwaits.2⟩⟩
  | callReturns c =>
    simp only [Channel.step, callReturns]
    split
    · exact h
    · rename_i call hat
      obtain ⟨hcall, hprogress⟩ := callAt_eq hat
      have hkept := h.call c call hcall
      split
      · rename_i hdone
        have hentry : ∀ (result : Result) (id : ℕ), (id, c) ∈ s.pending ↔
            id = call.reqId ∧ Call.Waits { call with progress := .returned result } := by
          intro result id
          rw [CallsKept.entry_iff h hcall]
          refine and_congr_right fun _ => ?_
          refine ⟨fun hwaits => ?_, fun hwaits => ?_⟩
          · exact absurd (hdone.symm.trans hwaits.2) Bool.noConfusion
          · exact absurd hwaits.1 (not_or.mpr ⟨nofun, nofun⟩)
        split
        · rename_i hstatus
          refine CallsKept.set_same h (hentry _) ⟨nofun, hkept.undone, hkept.done, ?_⟩
          intro data hdata
          have heq : call.data = data := by
            injection hdata with hresult
            injection hresult
          exact heq ▸ hkept.done hdone hstatus
        · exact CallsKept.set_same h (hentry _) ⟨nofun, hkept.undone, hkept.done, nofun⟩
      · exact h
  | callTimesOut c again =>
    simp only [Channel.step, callTimesOut]
    split
    · exact h
    · rename_i call hat
      obtain ⟨hcall, hprogress⟩ := callAt_eq hat
      have hkept := h.call c call hcall
      split
      · exact h
      · rename_i hdone
        have hwaits : call.Waits := ⟨Or.inr hprogress, Bool.eq_false_of_not_eq_true hdone⟩
        have hmem := h.waiting c call hcall hwaits
        split
        · refine CallsKept.set h (fun id c' hc' => ?_) (fun id => ?_)
            (h.nodup.sublist (List.filter_sublist.map _)) ⟨nofun, hkept.undone, hkept.done, nofun⟩
          · simp only [List.mem_filter, decide_eq_true_eq]
            refine ⟨And.left, fun hentry => ⟨hentry, ?_⟩⟩
            rintro rfl
            exact hc' (CallsKept.single h hentry hmem)
          · simp only [List.mem_filter, decide_eq_true_eq]
            constructor
            · rintro ⟨hentry, hne⟩
              exact absurd ((CallsKept.entry_iff h hcall id).mp hentry).1 hne
            · rintro ⟨-, hprogress', -⟩
              exact absurd hprogress' (not_or.mpr ⟨nofun, nofun⟩)
        · exact h
  | reconnectMarks =>
    simp only [Channel.step, reconnectMarks]
    split
    · exact h
    · exact h
  | reconnectWakes =>
    simp only [Channel.step, reconnectWakes]
    split
    · exact h
    · exact h.wakeAll
  | reconnectQueues =>
    simp only [Channel.step, reconnectQueues]
    split
    · exact h
    · exact h
  | reconnectStores =>
    simp only [Channel.step, reconnectStores]
    split
    · exact h
    · exact h
  | runQueued bytesAvailable =>
    simp only [Channel.step, runQueued]
    split
    · exact h
    · split
      · exact h
      · split
        · exact h
        · rename_i newSock rest _ _
          exact KeepsCalls.onReadyRead (s := { s with queue := rest }.adopt newSock) h _
      · exact KeepsCalls.writeTo h
  | readyRead readAll =>
    simp only [Channel.step, Channel.readyRead]
    split
    · exact h
    · exact h.onReadyRead readAll
  | disconnected n =>
    simp only [Channel.step, Channel.disconnected]
    split
    · exact h
    · split
      · split
        · exact h
        · exact h
      · exact h
  | ioWakes =>
    simp only [Channel.step, Channel.ioWakes]
    split
    · exact h.wakeAll
    · exact h

end Channel

end Throned.API
