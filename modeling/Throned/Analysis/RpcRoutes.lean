import Throned.Analysis.RpcFlag

/-!
# Where the requests go

Between two wakes, every request that waits is on its way to the last socket or was written to
it, and that socket is connected.  A drop of it, or the next `Reconnect`, wakes what waits
before the socket is given up.
-/

set_option autoImplicit false

namespace Throned.API

open Throned.Library

/-- Calls are answered or woken, and nothing else about them changes. -/
structure Evolves (calls calls' : ℕ → Option Call) : Prop where
  old : ∀ c call', calls' c = some call' → ∃ call, calls c = some call ∧
    call.progress = call'.progress ∧ call.wentTo = call'.wentTo ∧
    (call'.done = false → call.done = false)
  new : ∀ c call, calls c = some call → ∃ call', calls' c = some call' ∧
    call'.progress = call.progress

theorem Evolves.refl (calls : ℕ → Option Call) : Evolves calls calls :=
  ⟨fun _ call h => ⟨call, h, rfl, rfl, id⟩, fun _ call h => ⟨call, h, rfl⟩⟩

theorem Evolves.trans {calls calls' calls'' : ℕ → Option Call} (h : Evolves calls calls')
    (h' : Evolves calls' calls'') : Evolves calls calls'' := by
  refine ⟨fun c call'' hcall'' => ?_, fun c call hcall => ?_⟩
  · obtain ⟨call', hcall', hprogress', hwent', hdone'⟩ := h'.old c call'' hcall''
    obtain ⟨call, hcall, hprogress, hwent, hdone⟩ := h.old c call' hcall'
    exact ⟨call, hcall, hprogress.trans hprogress', hwent.trans hwent', hdone ∘ hdone'⟩
  · obtain ⟨call', hcall', hprogress⟩ := h.new c call hcall
    obtain ⟨call'', hcall'', hprogress'⟩ := h'.new c call' hcall'
    exact ⟨call'', hcall'', hprogress'.trans hprogress⟩

/-- Some calls are changed by a function. -/
theorem Evolves.map {calls : ℕ → Option Call} (p : ℕ → Prop) [DecidablePred p] {f : Call → Call}
    (hf : ∀ call, (f call).progress = call.progress ∧ (f call).wentTo = call.wentTo ∧
      (f call).done = true) :
    Evolves calls fun c => if p c then (calls c).map f else calls c := by
  refine ⟨fun c call' hcall' => ?_, fun c call hcall => ?_⟩
  · split at hcall'
    · obtain ⟨call, hcall, rfl⟩ := Option.map_eq_some_iff.mp hcall'
      obtain ⟨hprogress, hwent, hdone⟩ := hf call
      refine ⟨call, hcall, hprogress.symm, hwent.symm, fun hundone => ?_⟩
      exact absurd (hdone.symm.trans hundone) Bool.noConfusion
    · exact ⟨call', hcall', rfl, rfl, id⟩
  · by_cases hc : p c
    · refine ⟨f call, ?_, (hf call).1⟩
      rw [if_pos hc, hcall]
      rfl
    · exact ⟨call, (if_neg hc).trans hcall, rfl⟩

namespace Channel

variable {s t : Channel}

theorem evolves_wakeAll (s : Channel) : Evolves s.calls s.wakeAll.calls :=
  Evolves.map (fun c => c ∈ s.pending.map Prod.snd) fun _ => ⟨rfl, rfl, rfl⟩

theorem evolves_deliver (s : Channel) (frame : Response) :
    Evolves s.calls (s.deliver frame).calls := by
  unfold deliver
  simp only
  split
  · exact Evolves.refl _
  · rename_i c _
    have hmap : (fun c' => if c' = c then
        (s.calls c).map fun call => { call with status := frame.status, data := frame.data, done := true }
        else s.calls c') =
        fun c' => if c' = c then (s.calls c').map fun call =>
          { call with status := frame.status, data := frame.data, done := true } else s.calls c' := by
      funext c'
      split
      · rename_i heq
        rw [heq]
      · rfl
    simp only [hmap]
    exact Evolves.map (fun c' => c' = c) fun _ => ⟨rfl, rfl, rfl⟩

theorem evolves_processBuffer (s : Channel) : Evolves s.calls s.processBuffer.calls := by
  have hall : ∀ (frames : List Response) (t : Channel),
      Evolves t.calls (frames.foldl deliver t).calls := by
    intro frames
    induction frames with
    | nil => exact fun t => Evolves.refl _
    | cons frame frames ih => exact fun t => (evolves_deliver t frame).trans (ih _)
  exact hall _ s

/-- What holds of a request that waits between two wakes. -/
structure Routed (s : Channel) (c : ℕ) (call : Call) : Prop where
  target : s.TargetAlive
  kept : s.reconnect ≠ some .woken
  written : ∀ n, call.wentTo = some n → s.sock = some n ∧ adopts s.queue = []
  onItsWay : ∀ before frame after, s.queue = before ++ .write c frame :: after → adopts after = []

structure KeepsRoutes (s : Channel) : Prop where
  /-- A request is queued once, and written after that. -/
  unwritten : ∀ c call, s.calls c = some call →
    call.progress = .checked ∨ call.progress = .registered → call.wentTo = none
  queued : ∀ c frame, .write c frame ∈ s.queue → ∃ call, s.calls c = some call ∧
    ¬ (call.progress = .checked ∨ call.progress = .registered)
  routed : s.Awake → ∀ c call, s.calls c = some call → call.progress = .queued →
    call.done = false → s.Routed c call

/-- The calls evolve, and no socket changes. -/
theorem KeepsRoutes.evolve (h : s.KeepsRoutes) (hcalls : Evolves s.calls t.calls)
    (hsock : t.sock = s.sock) (hqueue : t.queue = s.queue) (halive : t.alive = s.alive)
    (hreconnect : t.reconnect = s.reconnect) (hwaking : t.waking = s.waking) : t.KeepsRoutes := by
  refine ⟨fun c call' hcall' hearly => ?_, fun c frame hmem => ?_, fun hawake c call' hcall' hq hd => ?_⟩
  · obtain ⟨call, hcall, hprogress, hwent, -⟩ := hcalls.old c call' hcall'
    rw [← hprogress] at hearly
    exact hwent.symm.trans (h.unwritten c call hcall hearly)
  · rw [hqueue] at hmem
    obtain ⟨call, hcall, hlate⟩ := h.queued c frame hmem
    obtain ⟨call', hcall', hprogress⟩ := hcalls.new c call hcall
    rw [← hprogress] at hlate
    exact ⟨call', hcall', hlate⟩
  · obtain ⟨call, hcall, hprogress, hwent, hdone⟩ := hcalls.old c call' hcall'
    have hawake' : s.Awake := by
      unfold Awake at hawake ⊢
      rw [hwaking, hreconnect] at hawake
      exact hawake
    obtain ⟨htarget, hkept, hwritten, hway⟩ :=
      h.routed hawake' c call hcall (hprogress.trans hq) (hdone hd)
    refine ⟨?_, ?_, ?_, ?_⟩
    · unfold TargetAlive chain at htarget ⊢
      rw [hsock, hqueue, halive]
      exact htarget
    · rw [hreconnect]
      exact hkept
    · rw [← hwent, hsock, hqueue]
      exact hwritten
    · rw [hqueue]
      exact hway

/-- A call changes to a point where it does not wait for an answer. -/
theorem KeepsRoutes.set (h : s.KeepsRoutes) {c : ℕ} {call : Call}
    (hearly : call.progress = .checked ∨ call.progress = .registered →
      call.wentTo = none ∧ ∀ frame, .write c frame ∉ s.queue)
    (hnot : call.progress ≠ .queued) : (s.setCall c call).KeepsRoutes := by
  refine ⟨fun c' call' hcall' hearly' => ?_, fun c' frame hmem => ?_,
    fun hawake c' call' hcall' hq hd => ?_⟩
  · change (if c' = c then some call else s.calls c') = some call' at hcall'
    split at hcall'
    · rw [← Option.some.inj hcall'] at hearly' ⊢
      exact (hearly hearly').1
    · exact h.unwritten c' call' hcall' hearly'
  · change ∃ call', (if c' = c then some call else s.calls c') = some call' ∧ _
    split
    · rename_i heq
      refine ⟨call, rfl, fun hearly' => ?_⟩
      exact (hearly hearly').2 frame (heq ▸ hmem)
    · exact h.queued c' frame hmem
  · change (if c' = c then some call else s.calls c') = some call' at hcall'
    split at hcall'
    · rw [← Option.some.inj hcall'] at hq
      exact absurd hq hnot
    · obtain ⟨htarget, hkept, hwritten, hway⟩ := h.routed hawake c' call' hcall' hq hd
      exact ⟨htarget, hkept, hwritten, hway⟩

/-- After a wake nobody waits. -/
theorem KeepsRoutes.wakeAll (h : s.KeepsRoutes) (hcalls : s.KeepsCalls)
    (hcalls' : t.calls = s.wakeAll.calls) (hqueue : t.queue = s.queue) : t.KeepsRoutes := by
  have hevolves := evolves_wakeAll s
  rw [← hcalls'] at hevolves
  refine ⟨fun c call' hcall' hearly => ?_, fun c frame hmem => ?_, fun hawake c call' hcall' hq hd => ?_⟩
  · obtain ⟨call, hcall, hprogress, hwent, -⟩ := hevolves.old c call' hcall'
    rw [← hprogress] at hearly
    exact hwent.symm.trans (h.unwritten c call hcall hearly)
  · rw [hqueue] at hmem
    obtain ⟨call, hcall, hlate⟩ := h.queued c frame hmem
    obtain ⟨call', hcall', hprogress⟩ := hevolves.new c call hcall
    rw [← hprogress] at hlate
    exact ⟨call', hcall', hlate⟩
  · have hmem := hcalls.wakeAll.waiting c call' (hcalls' ▸ hcall') ⟨Or.inr hq, hd⟩
    exact absurd hmem List.not_mem_nil

theorem adopts_after_append {queue : List Item} {c c' : ℕ} {frame : List UInt8}
    (h : ∀ before frame after, queue = before ++ .write c frame :: after → adopts after = [])
    {before after : List Item} {frame' : List UInt8}
    (heq : queue ++ [.write c' frame'] = before ++ .write c frame :: after) :
    adopts after = [] := by
  rcases List.eq_nil_or_concat after with rfl | ⟨after', last, rfl⟩
  · rfl
  · rw [List.concat_eq_append, ← List.cons_append, ← List.append_assoc] at heq
    obtain ⟨hqueue, hlast⟩ := List.append_inj' heq rfl
    rw [List.concat_eq_append, adopts_append, h before frame after' hqueue,
      ← (List.singleton_inj.mp hlast)]
    rfl

/-- **A request is queued.** -/
theorem KeepsRoutes.callQueues (h : s.KeepsRoutes) {c : ℕ} (hheard : s.Heard c) :
    (s.callQueues c).KeepsRoutes := by
  unfold Channel.callQueues
  split
  · exact h
  · rename_i call hat
    obtain ⟨hcall, hprogress⟩ := callAt_eq hat
    have hchain : s.sock.toList ++ adopts (s.queue ++
        [.write c (requestFrame call.reqId call.method call.req)]) = s.chain := by
      rw [adopts_append]
      exact congrArg _ (List.append_nil _)
    have hadopts : adopts (s.queue ++
        [.write c (requestFrame call.reqId call.method call.req)]) = adopts s.queue := by
      rw [adopts_append]
      exact List.append_nil _
    have htarget : s.TargetAlive → TargetAlive { s.setCall c { call with progress := .queued } with
        queue := s.queue ++ [.write c (requestFrame call.reqId call.method call.req)] } := by
      rintro ⟨n, hn, halive⟩
      exact ⟨n, (congrArg List.getLast? hchain).trans hn, halive⟩
    have hnotYet : ∀ frame, .write c frame ∉ s.queue := by
      intro frame hmem
      obtain ⟨call', hcall', hlate⟩ := h.queued c frame hmem
      rw [Option.some.inj (hcall'.symm.trans hcall)] at hlate
      exact hlate (Or.inr hprogress)
    refine ⟨fun c' call' hcall' hearly => ?_, fun c' frame hmem => ?_,
      fun hawake c' call' hcall' hq hd => ?_⟩
    · change (if c' = c then some _ else s.calls c') = some call' at hcall'
      split at hcall'
      · rw [← Option.some.inj hcall'] at hearly
        exact absurd hearly (not_or.mpr ⟨nofun, nofun⟩)
      · exact h.unwritten c' call' hcall' hearly
    · change ∃ call', (if c' = c then some _ else s.calls c') = some call' ∧ _
      split
      · exact ⟨_, rfl, not_or.mpr ⟨nofun, nofun⟩⟩
      · rename_i hne
        rcases List.mem_append.mp hmem with hold | hnew
        · exact h.queued c' frame hold
        · injection List.mem_singleton.mp hnew with heq
          exact absurd heq hne
    · change (if c' = c then some _ else s.calls c') = some call' at hcall'
      split at hcall'
      · rename_i heq
        rw [← Option.some.inj hcall'] at hd ⊢
        obtain ⟨halive, hkept⟩ := hheard call hat hd hawake
        refine ⟨htarget halive, hkept, fun n hn => ?_, fun before frame after hqueue => ?_⟩
        · have hwent := h.unwritten c call hcall (Or.inr hprogress)
          exact absurd (hwent.symm.trans hn) nofun
        · refine adopts_after_append (fun before frame after heq' => ?_) hqueue
          have hmem : .write c frame ∈ s.queue := by
            rw [heq', heq]
            exact List.mem_append_right _ List.mem_cons_self
          exact absurd hmem (hnotYet frame)
      · obtain ⟨halive, hkept, hwritten, hway⟩ := h.routed hawake c' call' hcall' hq hd
        refine ⟨htarget halive, hkept, fun n hn => ?_, fun before frame after hqueue => ?_⟩
        · exact ⟨(hwritten n hn).1, hadopts.trans (hwritten n hn).2⟩
        · exact adopts_after_append hway hqueue

/-- The next item of the queue. -/
theorem KeepsRoutes.adopt (h : s.KeepsRoutes) (hflag : s.KeepsFlag) {newSock : ℕ}
    {rest : List Item} (hqueue : s.queue = .adopt newSock :: rest) :
    (Channel.adopt { s with queue := rest } newSock).KeepsRoutes := by
  refine ⟨h.unwritten, fun c frame hmem => ?_, fun hawake c call hcall hq hd => ?_⟩
  · refine h.queued c frame ?_
    rw [hqueue]
    exact List.mem_cons_of_mem _ hmem
  · obtain ⟨htarget, hkept, hwritten, hway⟩ := h.routed hawake c call hcall hq hd
    have hflag' := hflag.adopt hqueue
    refine ⟨?_, hkept, fun n hn => ?_, fun before frame after hrest => ?_⟩
    · rw [hflag.order.targetAlive_iff] at htarget
      rw [hflag'.order.targetAlive_iff]
      exact ⟨htarget.1, (hflag.alive_adopt hqueue le_rfl).trans htarget.2⟩
    · have hnone := (hwritten n hn).2
      rw [hqueue] at hnone
      cases hnone
    · refine hway (.adopt newSock :: before) frame after ?_
      rw [hqueue]
      exact congrArg (List.cons _) hrest

theorem KeepsRoutes.writeTo (h : s.KeepsRoutes) {c : ℕ} {frame : List UInt8} {rest : List Item}
    (hqueue : s.queue = .write c frame :: rest) :
    (Channel.writeTo { s with queue := rest } c).KeepsRoutes := by
  have hadopts : adopts s.queue = adopts rest := by
    rw [hqueue]
    rfl
  have hold : ∀ c' call', (if c' = c then (s.calls c).map fun call => { call with wentTo := s.sock }
      else s.calls c') = some call' → ∃ call, s.calls c' = some call ∧
        call.progress = call'.progress ∧ call.done = call'.done ∧
        (call'.wentTo = call.wentTo ∨ (c' = c ∧ call'.wentTo = s.sock)) := by
    intro c' call' hcall'
    split at hcall'
    · rename_i heq
      obtain ⟨call, hcall, rfl⟩ := Option.map_eq_some_iff.mp hcall'
      exact ⟨call, heq ▸ hcall, rfl, rfl, Or.inr ⟨heq, rfl⟩⟩
    · exact ⟨call', hcall', rfl, rfl, Or.inl rfl⟩
  have hmem : ∀ {c' frame'}, Item.write c' frame' ∈ rest → .write c' frame' ∈ s.queue := by
    intro c' frame' hrest
    rw [hqueue]
    exact List.mem_cons_of_mem _ hrest
  refine ⟨fun c' call' hcall' hearly => ?_, fun c' frame' hrest => ?_,
    fun hawake c' call' hcall' hq hd => ?_⟩
  · obtain ⟨call, hcall, hprogress, -, hwent⟩ := hold c' call' hcall'
    rw [← hprogress] at hearly
    rcases hwent with hsame | ⟨heq, -⟩
    · exact hsame.trans (h.unwritten c' call hcall hearly)
    · obtain ⟨call'', hcall'', hlate⟩ := h.queued c frame (hqueue ▸ List.mem_cons_self)
      rw [heq] at hcall
      rw [Option.some.inj (hcall''.symm.trans hcall)] at hlate
      exact absurd hearly hlate
  · obtain ⟨call, hcall, hlate⟩ := h.queued c' frame' (hmem hrest)
    change ∃ call', (if c' = c then _ else s.calls c') = some call' ∧ _
    split
    · rename_i heq
      rw [heq] at hcall
      exact ⟨{ call with wentTo := s.sock }, by rw [hcall]; rfl, hlate⟩
    · exact ⟨call, hcall, hlate⟩
  · obtain ⟨call, hcall, hprogress, hdone, hwent⟩ := hold c' call' hcall'
    obtain ⟨htarget, hkept, hwritten, hway⟩ :=
      h.routed hawake c' call hcall (hprogress.trans hq) (hdone.trans hd)
    refine ⟨?_, hkept, fun n hn => ?_, fun before frame' after hrest => ?_⟩
    · obtain ⟨n, hn, halive⟩ := htarget
      refine ⟨n, ?_, halive⟩
      unfold chain at hn ⊢
      rw [hadopts] at hn
      exact hn
    · rcases hwent with hsame | ⟨heq, hsock⟩
      · obtain ⟨hsock, hnone⟩ := hwritten n (hsame.symm.trans hn)
        exact ⟨hsock, hadopts.symm.trans hnone⟩
      · refine ⟨hsock.symm.trans hn, ?_⟩
        exact hway [] frame rest (by rw [hqueue, heq]; rfl)
    · refine hway (.write c frame :: before) frame' after ?_
      rw [hqueue]
      exact congrArg (List.cons _) hrest

theorem KeepsRoutes.onReadyRead (h : s.KeepsRoutes) (readAll : List UInt8) :
    (s.onReadyRead readAll).KeepsRoutes := by
  unfold Channel.onReadyRead
  split
  · exact h
  · obtain ⟨pending, calls, heq⟩ := processBuffer_eq
      { s with read_buf := s.read_buf ++ readAll, stream := s.stream ++ readAll }
    have hevolves := evolves_processBuffer
      { s with read_buf := s.read_buf ++ readAll, stream := s.stream ++ readAll }
    rw [heq] at hevolves ⊢
    exact h.evolve hevolves rfl rfl rfl rfl rfl

end Channel

end Throned.API
