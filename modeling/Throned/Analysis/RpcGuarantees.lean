import Throned.Analysis.RpcRoutes

/-!
# What the channel guarantees

The calls, the stream, the flag and the routes of the requests are kept by every step that
meets its condition, and together they give what holds in every state of such a run.
-/

set_option autoImplicit false

namespace Throned.API

open Throned.Library

namespace Channel

variable {s : Channel}

/-- A drop is noticed by a handler, or is not that of the last socket. -/
theorem KeepsRoutes.disconnected (h : s.KeepsRoutes) {n : ℕ} (hok : s.DropNoticed n) :
    (s.disconnected n).KeepsRoutes := by
  unfold Channel.disconnected
  split
  · exact h
  · split
    · split
      · exact h
      · exact ⟨h.unwritten, h.queued, fun hawake => absurd hawake.1 nofun⟩
    · rename_i hsock
      refine ⟨h.unwritten, h.queued, fun hawake c call hcall hq hd => ?_⟩
      obtain ⟨⟨m, hm, halive⟩, hkept, hwritten, hway⟩ := h.routed hawake c call hcall hq hd
      refine ⟨⟨m, hm, ?_⟩, hkept, hwritten, hway⟩
      have hne : m ≠ n := by
        rintro rfl
        have hmem := List.mem_of_getLast? hm
        unfold chain at hmem
        rw [List.mem_append, mem_adopts, Option.mem_toList] at hmem
        exact hmem.elim hsock hok.notQueued
      exact (if_neg hne).trans halive

/-- **The routes in every step.** -/
theorem KeepsRoutes.step (h : s.KeepsRoutes) (hcalls : s.KeepsCalls) (hflag : s.KeepsFlag)
    {ev : Event} (hok : s.Ok ev) : (s.step ev).KeepsRoutes := by
  cases ev with
  | callBegins c method req =>
    simp only [Channel.step, callBegins]
    split
    · exact h
    · rename_i hnew
      push Not at hnew
      have hnone : ∀ frame, .write c frame ∉ s.queue := by
        intro frame hmem
        obtain ⟨call, hcall, -⟩ := h.queued c frame hmem
        exact absurd (hnew.symm.trans hcall) (by rintro ⟨⟩)
      split
      · have hset : (s.setCall c ⟨s.next_id, method, req, .checked, false, 1, [], none⟩).KeepsRoutes :=
          h.set (fun _ => ⟨rfl, hnone⟩) (by rintro ⟨⟩)
        exact ⟨hset.unwritten, hset.queued, fun hawake c call hcall hq hd =>
          let hrouted := hset.routed hawake c call hcall hq hd
          ⟨hrouted.target, hrouted.kept, hrouted.written, hrouted.onItsWay⟩⟩
      · exact h.set (fun _ => ⟨rfl, hnone⟩) (by rintro ⟨⟩)
  | callRegisters c =>
    simp only [Channel.step, callRegisters]
    split
    · exact h
    · rename_i call hat
      obtain ⟨hcall, hprogress⟩ := callAt_eq hat
      have hset : (s.setCall c { call with progress := .registered }).KeepsRoutes := h.set (fun _ =>
        ⟨h.unwritten c call hcall (Or.inl hprogress), fun frame hmem => by
          obtain ⟨call', hcall', hlate⟩ := h.queued c frame hmem
          rw [Option.some.inj (hcall'.symm.trans hcall)] at hlate
          exact hlate (Or.inl hprogress)⟩) (by rintro ⟨⟩)
      exact hset.evolve (Evolves.refl _) rfl rfl rfl rfl rfl
  | callQueues c => exact h.callQueues hok
  | callReturns c =>
    simp only [Channel.step, callReturns]
    split
    · exact h
    · split
      · split
        · exact h.set (fun hearly => absurd hearly (not_or.mpr ⟨(by rintro ⟨⟩), (by rintro ⟨⟩)⟩)) (by rintro ⟨⟩)
        · exact h.set (fun hearly => absurd hearly (not_or.mpr ⟨(by rintro ⟨⟩), (by rintro ⟨⟩)⟩)) (by rintro ⟨⟩)
      · exact h
  | callTimesOut c again =>
    simp only [Channel.step, callTimesOut]
    split
    · exact h
    · rename_i call _
      split
      · exact h
      · split
        · have hset : (s.setCall c { call with progress := .returned (.failed none) }).KeepsRoutes :=
            h.set (fun hearly => absurd hearly (not_or.mpr ⟨(by rintro ⟨⟩), (by rintro ⟨⟩)⟩)) (by rintro ⟨⟩)
          exact hset.evolve (Evolves.refl _) rfl rfl rfl rfl rfl
        · exact h
  | reconnectMarks =>
    simp only [Channel.step, reconnectMarks]
    split
    · exact h
    · exact ⟨h.unwritten, h.queued, fun hawake => absurd rfl hawake.2⟩
  | reconnectWakes =>
    simp only [Channel.step, reconnectWakes]
    split
    · exact h
    · exact h.wakeAll hcalls rfl rfl
  | reconnectQueues =>
    simp only [Channel.step, reconnectQueues]
    split
    · exact h
    · rename_i hwoken
      push Not at hwoken
      refine ⟨h.unwritten, fun c frame hmem => ?_, fun hawake c call hcall hq hd => ?_⟩
      · rcases List.mem_append.mp hmem with hold | hnew
        · exact h.queued c frame hold
        · exact absurd (List.mem_singleton.mp hnew) (by rintro ⟨⟩)
      · have hawake' : s.Awake := ⟨hawake.1, by rw [hwoken]; exact (by rintro ⟨⟩)⟩
        exact absurd hwoken (h.routed hawake' c call hcall hq hd).kept
  | reconnectStores =>
    simp only [Channel.step, reconnectStores]
    split
    · exact h
    · rename_i hqueued
      push Not at hqueued
      refine ⟨h.unwritten, h.queued, fun hawake c call hcall hq hd => ?_⟩
      have hawake' : s.Awake := ⟨hawake.1, by rw [hqueued]; exact (by rintro ⟨⟩)⟩
      obtain ⟨htarget, -, hwritten, hway⟩ := h.routed hawake' c call hcall hq hd
      exact ⟨htarget, (by rintro ⟨⟩), hwritten, hway⟩
  | runQueued bytesAvailable =>
    simp only [Channel.step, runQueued]
    split
    · exact h
    · split
      · exact h
      · rename_i newSock rest hqueue
        split
        · exact h.adopt hflag hqueue
        · exact (h.adopt hflag hqueue).onReadyRead _
      · rename_i c frame rest hqueue
        exact h.writeTo hqueue
  | readyRead readAll =>
    simp only [Channel.step, Channel.readyRead]
    split
    · exact h
    · exact h.onReadyRead readAll
  | disconnected n => exact h.disconnected hok
  | ioWakes =>
    simp only [Channel.step, Channel.ioWakes]
    split
    · exact h.wakeAll hcalls rfl rfl
    · exact h

/-! ## Every run -/

/-- What holds of the channel in a state. -/
structure Sound (s : Channel) : Prop where
  own : ∀ c call rsp, s.calls c = some call → call.progress = .returned (.ok rsp) →
    ∃ frame ∈ s.received, frame.reqId = call.reqId ∧ frame.status = 0 ∧ frame.data = rsp
  /-- The frames are those of the stream in one piece. -/
  split : (s.delivered, s.read_buf) = responses.drain s.stream
  flag : s.queue = [] → s.reconnect = none → s.waking = false →
    (s.IsConnected = true ↔ 0 < s.sockets ∧ s.alive (s.sockets - 1) = true)
  /-- No call is left waiting whose request went to a socket that is gone. -/
  woken : s.Awake → ∀ c call n, s.calls c = some call → call.progress = .queued →
    call.done = false → call.wentTo = some n → s.alive n = true

/-- What every step keeps. -/
structure Invariant (s : Channel) : Prop where
  calls : s.KeepsCalls
  stream : s.KeepsStream
  flag : s.KeepsFlag
  routes : s.KeepsRoutes

theorem invariant_init : init.Invariant where
  calls := ⟨fun _ _ hmem => absurd hmem List.not_mem_nil, nofun, List.nodup_nil, nofun⟩
  stream := ⟨(responses.drain_none responses.next_nil).symm,
    fun _ hmem => absurd hmem List.not_mem_nil⟩
  flag := by
    refine ⟨⟨0, rfl, Or.inl rfl⟩, fun hsome => absurd rfl hsome, fun hsome => absurd rfl hsome,
      fun _ => ?_⟩
    exact ⟨nofun, fun ⟨n, hn, _⟩ => absurd hn nofun⟩
  routes := ⟨nofun, fun _ _ hmem => absurd hmem List.not_mem_nil, nofun⟩

theorem Invariant.step (h : s.Invariant) {ev : Event} (hok : s.Ok ev) : (s.step ev).Invariant where
  calls := by
    refine h.calls.step fun c hev => ?_
    rw [hev] at hok
    exact hok
  stream := h.stream.step hok
  flag := h.flag.step hok
  routes := h.routes.step h.calls h.flag hok

theorem Invariant.sound (h : s.Invariant) : s.Sound where
  own c call rsp hcall hreturned := (h.calls.call c call hcall).returned rsp hreturned
  split := h.stream.drained
  flag hqueue hreconnect _ := by
    have hqueued : s.queued = s.sockets := by
      unfold queued
      rw [hreconnect]
      rfl
    refine (h.flag.flag hreconnect).trans ?_
    rw [h.flag.order.targetAlive_iff, hqueued, Nat.pos_iff_ne_zero]
  woken hawake c call n hcall hq hd hwent := by
    obtain ⟨⟨m, hm, halive⟩, -, hwritten, -⟩ := h.routes.routed hawake c call hcall hq hd
    obtain ⟨hsock, hnone⟩ := hwritten n hwent
    unfold chain at hm
    rw [hsock, hnone] at hm
    have heq : n = m := Option.some.inj hm
    rw [heq]
    exact halive

/-- **The channel in every run** whose steps meet their conditions. -/
theorem sound_run {events : List Event} (h : Throughout step Ok init events) :
    (runAll step init events).Sound :=
  (Throughout.invariant (fun _ _ hok hs => Invariant.step hs hok) h invariant_init).sound

/-- A first socket and a call over it. -/
def answered : List Event :=
  [.reconnectMarks, .reconnectWakes, .reconnectQueues, .reconnectStores, .runQueued [],
    .callBegins 0 [83] [], .callRegisters 0, .callQueues 0, .runQueued [],
    .readyRead (writeResponse ⟨1, 0, [7]⟩), .callReturns 0, .disconnected 0, .ioWakes]

theorem sound_answered : (runAll step init answered).Sound := by
  refine sound_run ⟨trivial, trivial, trivial, trivial, ?_, trivial, ?_, ?_, ?_, ?_, trivial, ?_,
    trivial, trivial⟩
  · exact fun frame hframe => absurd hframe List.not_mem_nil
  · intro call hcall
    exact List.not_mem_nil
  · intro call hcall hdone hawake
    exact ⟨⟨0, rfl, rfl⟩, nofun⟩
  · exact fun frame hframe => absurd hframe List.not_mem_nil
  · intro frame hframe
    have hone : frame = ⟨1, 0, [7]⟩ := List.mem_singleton.mp hframe
    rw [hone]
    unfold Fits intLimit
    decide
  · exact ⟨nofun, List.not_mem_nil, fun _ _ => rfl⟩

/-- The old socket drops when the next one waits for its adoption. -/
def lateDrop : List Event :=
  [.reconnectMarks, .reconnectWakes, .reconnectQueues, .reconnectStores, .runQueued [],
    .reconnectMarks, .reconnectWakes, .reconnectQueues, .reconnectStores, .disconnected 0, .ioWakes,
    .runQueued []]

/-- The flag stays down for a core that is there. -/
theorem not_sound_lateDrop : ¬ ∀ events, (runAll step init events).Sound := by
  intro h
  have hflag := (h lateDrop).flag rfl rfl rfl
  have hconnected : (runAll step init lateDrop).IsConnected = true := hflag.mpr ⟨by decide, rfl⟩
  exact absurd hconnected nofun

end Channel

end Throned.API
