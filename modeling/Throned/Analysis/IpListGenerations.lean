import Throned.Analysis.IpListSteps

/-!
# What the generations of an IP list guarantee

In any interleaving of the calls, and with exits of the process between any two steps,
readers see one published list at a time, a replace is all or nothing, and no purge touches
what readers see.
-/

set_option autoImplicit false

namespace Throned.IpLists

open Throned.Library Throned.Scanner

namespace ListState

variable {s t : ListState} {k : ℕ} {answer : Answer}

/-- **Every step of a call keeps to the invariant.** -/
theorem resumed_resume (h : s.Inv) {request : Request} {shown : List (List IpListEntry)} {pc : Pc}
    (hok : s.CallOk ⟨request, pc, shown⟩) (hclaimed : pc.inside = true → s.claimed = true) :
    Resumed s request shown pc (s.resume k answer pc).1 (s.resume k answer pc).2 := by
  have hserves : Serves request shown pc := hok.serves
  cases pc with
  | replaceClaim unique =>
    simp only [resume]
    split
    · exact Resumed.idle h (by rintro ⟨⟩) (by rintro ⟨⟩) hok
    · rename_i hfree
      exact Resumed.claim h (Bool.eq_false_of_not_eq_true hfree) (CallOk.of_plain rfl hserves)
  | replaceCurrent unique =>
    obtain ⟨entries, hrequest, hunique, hshown⟩ := hserves
    have hrelease : Resumed s request shown (.replaceCurrent unique) s (.release false) :=
      Resumed.idle h hclaimed (fun _ => rfl) (CallOk.of_plain rfl fun _ _ => hshown)
    simp only [resume]
    cases answer.ok with
    | false => exact hrelease
    | true =>
      cases hheader : s.header with
      | none => exact hrelease
      | some current =>
        refine Resumed.idle h hclaimed (fun _ => rfl) ⟨(by rintro _ _ _ _ _ ⟨⟩), ?_,
          ⟨entries, hrequest, hunique, hshown⟩, (by rintro _ ⟨⟩), (by rintro _ ⟨⟩)⟩
        rintro unique' keep (hpc | ⟨stale, hpc⟩)
        · obtain ⟨-, rfl⟩ := Pc.purgeScan.inj hpc
          exact ⟨by rw [hheader]; rintro ⟨⟩, hheader⟩
        · cases hpc
  | addClaim unique =>
    simp only [resume]
    split
    · exact Resumed.idle h (by rintro ⟨⟩) (by rintro ⟨⟩) hok
    · rename_i hfree
      refine Resumed.claim h (Bool.eq_false_of_not_eq_true hfree)
        ⟨?_, ?_, hserves, (by rintro _ ⟨⟩), (by rintro _ ⟨⟩)⟩
      · intro unique' current target begin replacing hpc
        obtain ⟨rfl, rfl, rfl, rfl, rfl⟩ := Pc.stage.inj hpc
        exact ⟨rfl, (by rintro ⟨⟩)⟩
      · rintro unique' keep (hpc | ⟨stale, hpc⟩) <;> cases hpc
  | clearClaim =>
    simp only [resume]
    split
    · exact Resumed.idle h (by rintro ⟨⟩) (by rintro ⟨⟩) hok
    · rename_i hfree
      exact Resumed.claim h (Bool.eq_false_of_not_eq_true hfree) (CallOk.of_plain rfl hserves)
  | clearBump => exact resumed_clearBump h (hclaimed rfl) hok
  | deleteClaim onlyIfDetached =>
    simp only [resume]
    split
    · exact Resumed.idle h (by rintro ⟨⟩) (by rintro ⟨⟩) hok
    · rename_i hfree
      exact Resumed.claim h (Bool.eq_false_of_not_eq_true hfree) (CallOk.of_plain rfl hserves)
  | deleteBump onlyIfDetached => exact resumed_deleteBump h (hclaimed rfl) hok
  | purgeScan task keep => exact resumed_purgeScan h (hclaimed rfl) hok
  | purgeGeneration task keep stale => exact resumed_purgeGeneration h (hclaimed rfl) hok
  | stage unique current target begin replacing => exact resumed_stage h (hclaimed rfl) hok
  | cleanup generation result => exact resumed_cleanup h (hclaimed rfl) hok
  | discardHeader expected purged => exact resumed_discardHeader h (hclaimed rfl) hok
  | release result =>
    exact Resumed.quiet h rfl rfl rfl rfl (by rintro ⟨⟩) (by rintro ⟨⟩) (CallOk.of_plain rfl hserves)
  | upsert rest pinned => exact resumed_upsert h hserves
  | remove rest pinned => exact resumed_remove h hserves
  | readGeneration offset limit attempt => exact resumed_readGeneration h hserves
  | readPage reader => exact resumed_readPage h hok
  | readHold offset limit =>
    exact Resumed.quiet h rfl rfl rfl rfl (by rintro ⟨⟩) (fun _ => Or.inl rfl) (CallOk.of_plain rfl hserves)
  | readDone reader => exact Resumed.idle h (by rintro ⟨⟩) (by rintro ⟨⟩) hok
  | finished result => exact Resumed.idle h (by rintro ⟨⟩) (by rintro ⟨⟩) hok

/-! ## The invariant -/

/-- The parts of a state that the invariant is about. -/
theorem CallOk.of_eq {call : Call} (h : s.CallOk call) (hheader : t.header = s.header)
    (htable : t.table = s.table) (hissued : t.issued = s.issued) (hflips : t.flips = s.flips) :
    t.CallOk call :=
  h.later (Later.of_eq hissued hflips hheader) fun _ => ⟨hheader, fun g _ => by rw [htable]⟩

theorem unhold_eq (s : ListState) (k : ℕ) (pc : Pc) :
    ∃ holder, s.unhold k pc = { s with holder := holder } := by
  unfold unhold
  split
  · split
    · exact ⟨none, rfl⟩
    · exact ⟨s.holder, rfl⟩
  · exact ⟨s.holder, rfl⟩

/-- The call number `k` is blocked, or makes its step. -/
theorem advance_cases (s : ListState) (k : ℕ) (answer : Answer) :
    s.advance k answer = s ∨ ∃ call holder, s.calls[k]? = some call ∧
      s.advance k answer =
        { (s.resume k answer call.pc).1 with
          holder := holder
          calls := s.calls.set k ⟨call.request, (s.resume k answer call.pc).2,
            shownAfter s (s.resume k answer call.pc).1 call.shown⟩ } := by
  unfold advance
  cases hcall : s.calls[k]? with
  | none => exact Or.inl rfl
  | some call =>
    simp only
    split
    · exact Or.inl rfl
    · obtain ⟨holder, heq⟩ := unhold_eq (s.resume k answer call.pc).1 k (s.resume k answer call.pc).2
      refine Or.inr ⟨call, holder, rfl, ?_⟩
      rw [heq]
      rfl

theorem inv_advance (h : s.Inv) (k : ℕ) (answer : Answer) : (s.advance k answer).Inv := by
  rcases advance_cases s k answer with heq | ⟨call, holder, hcall, heq⟩
  · rw [heq]
    exact h
  · have hmem := List.mem_of_getElem? hcall
    have hres := @resumed_resume _ k answer h _ _ _ (h.calls call hmem) (h.claimed call hmem)
    -- the other calls with the claim: there are none, or this one stays outside
    have hother : ∀ j d, j ≠ k → s.calls[j]? = some d → d.pc.inside = true →
        call.pc.inside = false ∧ s.claimed = true := by
      intro j d hne hd hin
      refine ⟨Bool.eq_false_of_not_eq_true fun hcin => ?_, h.claimed d (List.mem_of_getElem? hd) hin⟩
      exact hne (h.exclusive j k d call hd hcall hin hcin)
    rw [heq]
    refine ⟨hres.owned, hres.issued, ?_, ?_, ?_⟩
    · intro i j c d hi hj hcin hdin
      rcases getElem?_set_cases hi with ⟨rfl, rfl⟩ | ⟨hine, hiold⟩
      · rcases getElem?_set_cases hj with ⟨rfl, -⟩ | ⟨hjne, hjold⟩
        · rfl
        · obtain ⟨hout, hclaimed⟩ := hother j d hjne hjold hdin
          rcases (hres.enters hcin).2 with hin | hfree
          · rw [hout] at hin
            cases hin
          · rw [hclaimed] at hfree
            cases hfree
      · rcases getElem?_set_cases hj with ⟨rfl, rfl⟩ | ⟨hjne, hjold⟩
        · obtain ⟨hout, hclaimed⟩ := hother i c hine hiold hcin
          rcases (hres.enters hdin).2 with hin | hfree
          · rw [hout] at hin
            cases hin
          · rw [hclaimed] at hfree
            cases hfree
        · exact h.exclusive i j c d hiold hjold hcin hdin
    · intro d hd hin
      obtain ⟨j, hj⟩ := List.mem_iff_getElem?.mp hd
      rcases getElem?_set_cases hj with ⟨rfl, rfl⟩ | ⟨hjne, hj⟩
      · exact (hres.enters hin).1
      · obtain ⟨hout, hclaimed⟩ := hother j d hjne hj hin
        rcases (hres.outside hout).1 with hsame | hfree
        · exact hsame.trans hclaimed
        · rw [hclaimed] at hfree
          cases hfree
    · intro d hd
      obtain ⟨j, hj⟩ := List.mem_iff_getElem?.mp hd
      rcases getElem?_set_cases hj with ⟨rfl, rfl⟩ | ⟨hjne, hj⟩
      · exact hres.ok.of_eq rfl rfl rfl rfl
      · have hd' := h.calls d (List.mem_of_getElem? hj)
        exact (hd'.later hres.later fun hin => (hres.outside (hother j d hjne hj hin).1).2).of_eq
          rfl rfl rfl rfl

/-- A call that starts has not got anywhere. -/
theorem inv_append (h : s.Inv) {call : Call} (hinside : call.pc.inside = false)
    (howned : t.header = none → t.table.rows = []) (hissued : t.header ≠ none → t.issued = true)
    (hclaimed : t.claimed = s.claimed) (hcalls : t.calls = s.calls ++ [call])
    (hold : ∀ c ∈ s.calls, t.CallOk c) (hok : t.CallOk call) : t.Inv := by
  refine ⟨howned, hissued, ?_, ?_, ?_⟩
  · intro i j c d hi hj hcin hdin
    have hback : ∀ (i : ℕ) (c : Call), t.calls[i]? = some c → c.pc.inside = true →
        s.calls[i]? = some c := by
      intro i c hi hin
      rw [hcalls, List.getElem?_append] at hi
      split at hi
      · exact hi
      · have := List.mem_of_getElem? hi
        rw [List.mem_singleton.mp this, hinside] at hin
        cases hin
    exact h.exclusive i j c d (hback i c hi hcin) (hback j d hj hdin) hcin hdin
  · intro d hd hin
    rw [hcalls] at hd
    rw [hclaimed]
    rcases List.mem_append.mp hd with hd | hd
    · exact h.claimed d hd hin
    · rw [List.mem_singleton.mp hd, hinside] at hin
      cases hin
  · intro d hd
    rw [hcalls] at hd
    rcases List.mem_append.mp hd with hd | hd
    · exact hold d hd
    · rw [List.mem_singleton.mp hd]
      exact hok

theorem inv_start (h : s.Inv) {call : Call} (hinside : call.pc.inside = false)
    (hplain : call.pc.plain = true) (hserves : Serves call.request call.shown call.pc) :
    ListState.Inv { s with calls := s.calls ++ [call] } :=
  inv_append h hinside h.owned h.issued rfl rfl
    (fun c hc => (h.calls c hc).of_eq rfl rfl rfl rfl) (CallOk.of_plain hplain hserves)

theorem inv_call (h : s.Inv) (request : Request) : (s.start request).Inv := by
  cases request with
  | replaceEntries entries =>
    exact inv_start h rfl rfl ⟨entries, rfl, ipListsRepoUnique_eq entries, rfl⟩
  | addIpList entries => exact h
  | upsertEntries entries => exact inv_start h rfl rfl nofun
  | removeEntries entries => exact inv_start h rfl rfl nofun
  | clearEntries => exact inv_start h rfl rfl nofun
  | deleteIpList onlyIfDetached => exact inv_start h rfl rfl nofun
  | getEntries offset limit => exact inv_start h rfl rfl nofun

/-- A list that was not there before: nobody relies on its rows. -/
theorem inv_addIpList (h : s.Inv) (entries : List IpListEntry) (ok : Bool) :
    (s.addIpList entries ok).Inv := by
  unfold addIpList
  split
  · exact h
  · rename_i hnot
    have hunissued : s.issued = false := by
      cases hissued : s.issued with
      | false => rfl
      | true => exact absurd (Or.inr (Or.inl hissued)) hnot
    have hheader : s.header = none := by
      by_contra hne
      rw [h.issued hne] at hunissued
      cases hunissued
    -- a replace, or a reader, has a list to work on
    have hcall : ∀ call ∈ s.calls, ∀ t : ListState, t.CallOk call := by
      intro call hmem t
      have hok := h.calls call hmem
      refine ⟨fun unique current target begin replacing hpc => ?_, fun unique keep hpc => ?_,
        hok.serves, fun reader hpc => ?_, hok.done⟩
      · obtain ⟨htarget, hreplacing⟩ := hok.stage unique current target begin replacing hpc
        refine ⟨htarget, fun hrep => ?_⟩
        rw [hheader] at hreplacing
        cases (hreplacing hrep).2.1
      · exact absurd hheader (hok.purge unique keep hpc).1
      · obtain ⟨since, hreader⟩ := hok.reader reader hpc
        have hissued := hreader.issued
        rw [hunissued] at hissued
        cases hissued
    refine inv_append h ?_ nofun (fun _ => rfl) rfl rfl (fun call hmem => hcall call hmem _) ?_
    · simp only
      split <;> rfl
    · split
      · exact CallOk.of_plain rfl nofun
      · exact CallOk.of_plain rfl nofun

/-- A process without calls. -/
theorem inv_of_no_calls (howned : s.header = none → s.table.rows = [])
    (hissued : s.header ≠ none → s.issued = true) (hcalls : s.calls = []) : s.Inv := by
  refine ⟨howned, hissued, fun j k c d hj => ?_, fun call hmem => ?_, fun call hmem => ?_⟩
  · rw [hcalls] at hj
    cases hj
  · rw [hcalls] at hmem
    cases hmem
  · rw [hcalls] at hmem
    cases hmem

theorem keep_true (t : EntryTable) : (t.keep fun _ => true) = t := by
  obtain ⟨rows, -, -⟩ := t
  simp [EntryTable.keep]

theorem keep_keep (t : EntryTable) (p q : EntryRow → Bool) :
    (t.keep p).keep q = t.keep fun row => q row && p row := by
  obtain ⟨rows, -, -⟩ := t
  simp only [EntryTable.keep, List.filter_filter]

/-- The purge at the start of the process keeps the live rows, and drops all others where both
its statements went through. -/
theorem purgeLeftovers_spec (s : ListState) (statements : ℕ) :
    ∃ p : EntryRow → Bool, (∀ row, s.header = some row.generation → p row = true) ∧
      s.purgeLeftovers statements = { s with table := s.table.keep p } ∧
      (2 ≤ statements → s.header ≠ none → ∀ row, p row = true →
        s.header = some row.generation) := by
  unfold purgeLeftovers
  cases hheader : s.header with
  | none =>
    refine ⟨fun _ => true, fun _ _ => rfl, ?_, fun _ hne => absurd rfl hne⟩
    simp only [keep_true]
    rw [← hheader]
  | some live =>
    have hlive : ∀ row : EntryRow, some live = some row.generation → live = row.generation :=
      fun row => Option.some.inj
    by_cases hone : 1 ≤ statements
    · by_cases htwo : 2 ≤ statements
      · refine ⟨fun row => !(live < row.generation) && !(row.generation < live), fun row hrow => ?_,
          ?_, fun _ _ row hrow => ?_⟩
        · simp [hlive row hrow]
        · simp only [if_pos hone, if_pos htwo, keep_keep]
        · simp only [Bool.and_eq_true, Bool.not_eq_true', decide_eq_false_iff_not] at hrow
          rw [show live = row.generation by omega]
      · refine ⟨fun row => !(row.generation < live), fun row hrow => ?_, ?_,
          fun h => absurd h htwo⟩
        · simp [hlive row hrow]
        · simp only [if_pos hone, if_neg htwo]
    · refine ⟨fun _ => true, fun _ _ => rfl, ?_, fun h => absurd (Nat.le_of_succ_le h) hone⟩
      simp only [if_neg hone, if_neg (fun h => hone (Nat.le_of_succ_le h) : ¬ 2 ≤ statements)]
      simp only [keep_true]
      rw [← hheader]

theorem inv_step (h : s.Inv) (event : Event) : (s.step event).Inv := by
  cases event with
  | call request =>
    simp only [step]
    split
    · exact inv_call h request
    · exact h
  | addIpList entries ok =>
    simp only [step]
    split
    · exact inv_addIpList h entries ok
    · exact h
  | advance k answer => exact inv_advance h k answer
  | exit => exact inv_of_no_calls h.owned h.issued rfl
  | startUp statements running =>
    simp only [step]
    split
    · exact h
    · obtain ⟨p, -, heq, -⟩ := purgeLeftovers_spec s.exit statements
      rw [heq]
      refine inv_of_no_calls (fun hnone => ?_) h.issued rfl
      show s.table.rows.filter p = []
      rw [h.owned hnone, List.filter_nil]

theorem inv_of_reachable (h : ipLists.Reachable s) : s.Inv := by
  refine System.Reachable.invariant ?_ ?_ h
  · intro s (hs : Closed s)
    exact inv_of_no_calls hs.owned hs.issued hs.calls
  · rintro s t - hs ⟨event, rfl⟩
    exact inv_step hs event

/-! ## The guarantee -/

/-- A step at which rows are purged. -/
def purges : Pc → Bool
  | .purgeGeneration _ _ _ => true
  | .cleanup _ _ => true
  | _ => false

/-- **What holds in every reachable state.** -/
structure Guaranteed (s : ListState) : Prop where
  /-- A reader gets rows of the live generation. -/
  readsLive : ∀ k answer c d reader next, s.calls[k]? = some c → c.pc = .readPage reader →
    (s.advance k answer).calls[k]? = some d → (d.pc = .readPage next ∨ d.pc = .readDone next) →
    next.out = [] ∨ ∃ part : List EntryRow, part.Sublist s.liveRows ∧
      next.out = reader.out ++ part.map EntryRow.entry
  /-- No flip lies between two pages of a completed `GetEntries`. -/
  oneVersion : ∀ c ∈ s.calls, ∀ reader, c.pc = .readDone reader → OneVersion reader
  /-- A `ReplaceEntries` has shown all of its entries at once, or nothing. -/
  allOrNothing : ∀ c ∈ s.calls, ∀ entries, c.request = .replaceEntries entries →
    (c.shown = [] ∨ c.shown = [deduplicated entries]) ∧
    ∀ result, c.pc = .finished result → c.shown = if result then [deduplicated entries] else []
  /-- A purge leaves the live rows alone. -/
  purgesKeep : ∀ k answer c, s.calls[k]? = some c → purges c.pc = true →
    (s.advance k answer).liveRows = s.liveRows
  /-- So do an exit and the purge at the next start, and that leaves no other rows. -/
  startUp : s.exit.liveRows = s.liveRows ∧
    ∀ statements, (s.purgeLeftovers statements).liveRows = s.liveRows ∧
      (2 ≤ statements → ∀ row ∈ (s.purgeLeftovers statements).table.rows,
        (s.purgeLeftovers statements).header = some row.generation)

theorem advance_calls {call : Call} (hcall : s.calls[k]? = some call) :
    s.advance k answer = s ∨ ∃ d, (s.advance k answer).calls[k]? = some d ∧
      d.pc = (s.resume k answer call.pc).2 := by
  rcases advance_cases s k answer with heq | ⟨call', holder, hcall', heq⟩
  · exact Or.inl heq
  · obtain rfl := Option.some.inj (hcall.symm.trans hcall')
    have hlt : k < s.calls.length := by
      obtain ⟨hlt, -⟩ := List.getElem?_eq_some_iff.mp hcall
      exact hlt
    refine Or.inr ⟨⟨call.request, (s.resume k answer call.pc).2,
      shownAfter s (s.resume k answer call.pc).1 call.shown⟩, ?_, rfl⟩
    rw [heq]
    simp only
    rw [List.getElem?_set_self hlt]

/-- Where the step of a call keeps what readers see, so does its turn. -/
theorem liveRows_advance {call : Call} (hcall : s.calls[k]? = some call)
    (h : (s.resume k answer call.pc).1.liveRows = s.liveRows) :
    (s.advance k answer).liveRows = s.liveRows := by
  rcases advance_cases s k answer with heq | ⟨call', holder, hcall', heq⟩
  · rw [heq]
  · obtain rfl := Option.some.inj (hcall.symm.trans hcall')
    rw [heq]
    exact h

theorem liveRows_purgeGenerationStep (s : ListState) (generation : ℕ) (ok : Bool) :
    (s.purgeGenerationStep generation ok).1.liveRows = s.liveRows := by
  obtain ⟨p, hp, heq | heq⟩ := purgeGenerationStep_spec s generation ok
  · rw [heq]
  · rw [heq]
    exact liveRows_keep hp

theorem liveRows_resume_purges {pc : Pc} (h : purges pc = true) :
    (s.resume k answer pc).1.liveRows = s.liveRows := by
  cases pc with
  | purgeGeneration task keep stale =>
    have hlive := liveRows_purgeGenerationStep s stale answer.ok
    simp only [resume]
    cases hstep : s.purgeGenerationStep stale answer.ok with
    | mk t flags =>
      obtain ⟨purged, more⟩ := flags
      rw [hstep] at hlive
      cases purged <;> cases more <;> exact hlive
  | cleanup generation result =>
    have hlive := liveRows_purgeGenerationStep s generation answer.ok
    simp only [resume]
    cases hstep : s.purgeGenerationStep generation answer.ok with
    | mk t flags =>
      obtain ⟨purged, more⟩ := flags
      rw [hstep] at hlive
      cases purged <;> cases more <;> exact hlive
  | _ => cases h

/-- A turn of a reader adds rows of the live generation to what it has, or gives it up. -/
theorem out_advance {c d : Call} {reader next : Reader} (hcall : s.calls[k]? = some c)
    (hpc : c.pc = .readPage reader) (hd : (s.advance k answer).calls[k]? = some d)
    (hnext : d.pc = .readPage next ∨ d.pc = .readDone next) :
    next.out = [] ∨ ∃ part : List EntryRow, part.Sublist s.liveRows ∧
      next.out = reader.out ++ part.map EntryRow.entry := by
  have hstay : ∀ out, out = reader.out → out = [] ∨ ∃ part : List EntryRow,
      part.Sublist s.liveRows ∧ out = reader.out ++ part.map EntryRow.entry := fun out hout =>
    Or.inr ⟨[], List.nil_sublist _, by simp [hout]⟩
  rcases @advance_calls _ _ answer _ hcall with heq | ⟨d', hd', hpc'⟩
  · rw [heq] at hd
    obtain rfl := Option.some.inj (hcall.symm.trans hd)
    rw [hpc] at hnext
    rcases hnext with hnext | hnext
    · rw [← Pc.readPage.inj hnext]
      exact hstay _ rfl
    · cases hnext
  · obtain rfl := Option.some.inj (hd.symm.trans hd')
    rw [hpc] at hpc'
    simp only [resume] at hpc'
    rw [hpc'] at hnext
    split at hnext
    · rcases readStep_cases s reader with heq | heq | heq |
        ⟨reader', part, heq, -, hpart, -, hout, -⟩
      · rw [heq] at hnext
        rcases hnext with hnext | hnext
        · cases hnext
        · rw [← Pc.readDone.inj hnext]
          exact hstay _ rfl
      · rw [heq] at hnext
        rcases hnext with hnext | hnext <;> cases hnext
      · rw [heq] at hnext
        rcases hnext with hnext | hnext
        · cases hnext
        · rw [← Pc.readDone.inj hnext]
          exact Or.inl rfl
      · have hsame : reader' = next := by
          rcases heq with heq | heq
          · rw [heq] at hnext
            exact Pc.readDone.inj (hnext.resolve_left (by rintro ⟨⟩))
          · rw [heq] at hnext
            exact Pc.readPage.inj (hnext.resolve_right (by rintro ⟨⟩))
        rw [← hsame]
        exact Or.inr ⟨part, hpart, hout⟩
    · rcases hnext with hnext | hnext
      · cases hnext
      · rw [← Pc.readDone.inj hnext]
        exact Or.inl rfl

/-- What a replace has shown, wherever it is. -/
theorem shown_of_serves {request : Request} {shown : List (List IpListEntry)} {pc : Pc}
    {entries : List IpListEntry} (h : Serves request shown pc)
    (hrequest : request = .replaceEntries entries) :
    shown = [] ∨ shown = [deduplicated entries] := by
  have hwork : ∀ unique, (∃ entries, request = .replaceEntries entries ∧
      unique = deduplicated entries ∧ shown = []) → shown = [] := by
    rintro unique ⟨-, -, -, hshown⟩
    exact hshown
  have hend : ∀ result : Bool, (shown = if result then [deduplicated entries] else []) →
      shown = [] ∨ shown = [deduplicated entries] := by
    intro result hshown
    cases result with
    | false => exact Or.inl hshown
    | true => exact Or.inr hshown
  cases pc with
  | replaceClaim unique => exact Or.inl (hwork unique h)
  | replaceCurrent unique => exact Or.inl (hwork unique h)
  | purgeScan task keep =>
    cases task with
    | replace unique => exact Or.inl (hwork unique h)
    | _ => exact absurd hrequest (h entries)
  | purgeGeneration task keep stale =>
    cases task with
    | replace unique => exact Or.inl (hwork unique h)
    | _ => exact absurd hrequest (h entries)
  | stage unique current target begin replacing =>
    cases replacing with
    | true => exact Or.inl (hwork unique h)
    | false => exact absurd hrequest (h entries)
  | cleanup generation result =>
    obtain ⟨entries', hrequest', hshown⟩ := h
    obtain rfl := Request.replaceEntries.inj (hrequest.symm.trans hrequest')
    exact hend result hshown
  | release result => exact hend result (h entries hrequest)
  | finished result => exact hend result (h entries hrequest)
  | _ => exact absurd hrequest (h entries)

/-- **Readers see one published list at a time, in any interleaving of the calls and with exits
of the process between any two steps.** -/
theorem generations_guaranteed (h : ipLists.Reachable s) : s.Guaranteed := by
  have hinv := inv_of_reachable h
  refine ⟨?_, ?_, ?_, ?_, ⟨rfl, ?_⟩⟩
  · intro k answer c d reader next hcall hpc hd hnext
    exact out_advance hcall hpc hd hnext
  · intro c hc reader hpc
    exact (hinv.calls c hc).done reader hpc
  · intro c hc entries hrequest
    have hserves := (hinv.calls c hc).serves
    refine ⟨shown_of_serves hserves hrequest, fun result hpc => ?_⟩
    rw [hpc] at hserves
    exact hserves entries hrequest
  · intro k answer c hcall hpurges
    exact liveRows_advance hcall (liveRows_resume_purges hpurges)
  · intro statements
    obtain ⟨p, hp, heq, hboth⟩ := purgeLeftovers_spec s statements
    rw [heq]
    refine ⟨liveRows_keep hp, fun htwo row hrow => ?_⟩
    have hkeep : row ∈ s.table.rows ∧ p row = true := List.mem_filter.mp hrow
    by_cases hheader : s.header = none
    · have hrows := hinv.owned hheader
      rw [hrows] at hkeep
      cases hkeep.1
    · exact hboth htwo hheader row hkeep.2

/-! ## An example -/

/-- The database before the list is made. -/
def noList : ListState :=
  ⟨none, .empty, false, false, none, false, [], 0⟩

theorem closed_noList : Closed noList := ⟨fun _ => rfl, fun h => absurd rfl h, rfl, rfl, rfl, rfl⟩

def address (last : Char) : IpListEntry := ⟨['1', '.', '1', '.', '1', '.', last], 443, 20⟩

/-- The list gets an entry, the process exits in the middle of a replacement, and a second
replacement by the next process goes through. -/
def replaced : List Event :=
  let turns (k n : ℕ) : List Event := List.replicate n (.advance k ⟨true, false⟩)
  [.startUp 2 true, .addIpList [address '1'] true,
    .call (.replaceEntries [address '2'])] ++ turns 1 3 ++
  [.exit, .startUp 2 true, .call (.replaceEntries [address '3', address '4', address '3'])] ++
  turns 0 6 ++ [.call (.getEntries 0 (-1))] ++ turns 1 2

theorem run_foldl (s : ListState) (events : List Event) :
    Relation.ReflTransGen ipLists.step s (events.foldl step s) := by
  induction events generalizing s with
  | nil => exact .refl
  | cons event events ih => exact .head ⟨event, rfl⟩ (ih _)

theorem generations_guaranteed_replaced :
    (replaced.foldl step noList).liveEntries = [address '3', address '4'] ∧
      (replaced.foldl step noList).Guaranteed :=
  ⟨by decide,
    generations_guaranteed ((System.Reachable.init closed_noList).run (run_foldl _ _))⟩

end ListState

end Throned.IpLists
