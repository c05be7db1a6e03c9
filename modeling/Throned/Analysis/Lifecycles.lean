import Mathlib.Logic.Basic
import Throned.Library.Runs
import Throned.Model.Lifecycle

/-!
# What each stage of a start leaves running

A part is held when a variable names it.  The stages of a start add parts of one kind after the
other; a stage that fails gives back what it took.
-/

set_option autoImplicit false

namespace Throned.Lifecycle

variable {ρ : Type*}

namespace World

/-- A variable names the part.  What was changed of the resolver is known to its own package. -/
def Held (w : World ρ) (p : Part) : Prop :=
  match p.kind with
  | .box => w.boxInstance = some p.id
  | .process => ∃ x ∈ w.extraProcess, x.run = some p.id
  | .file => ∃ x ∈ w.extraProcess, x.cleanupPath = some p.id
  | .xray => w.xrayInstance = some p.id
  | .gate => w.xrayGate = some p.id
  | .fullGate => p.id ∈ w.xrayFullGates
  | .watch => w.stopEgressForwardingWatch = some p.id
  | .systemDNS => p = systemDNSPart

/-- Parts of these kinds are running, and no others: all of them are held, and what is held is
running.  A file may be gone before its process is. -/
structure Upto (w : World ρ) (kinds : List Kind) : Prop where
  held : ∀ p ∈ w.running, w.Held p ∧ p.kind ∈ kinds
  live : ∀ p, w.Held p → p.kind ≠ .file → p.kind ≠ .systemDNS → p ∈ w.running

/-! ## The ends of parts -/

@[simp] theorem mem_running_launch (w : World ρ) (kind : Kind) (p : Part) :
    p ∈ (w.launch kind).running ↔ p = ⟨kind, w.next⟩ ∨ p ∈ w.running := List.mem_cons

@[simp] theorem mem_running_halt (w : World ρ) (part p : Part) :
    p ∈ (w.halt part).running ↔ p ∈ w.running ∧ p ≠ part := by
  simp [halt]

theorem haltAll_eq (w : World ρ) (parts : List Part) :
    w.haltAll parts = { w with running := w.running.filter (· ∉ parts) } := by
  unfold haltAll
  induction parts generalizing w with
  | nil =>
    have hall : w.running.filter (· ∉ ([] : List Part)) = w.running :=
      List.filter_eq_self.mpr (by simp)
    rw [List.foldl_nil, hall]
  | cons part parts ih =>
    rw [List.foldl_cons, ih]
    simp only [halt, List.filter_filter, List.mem_cons, not_or, Bool.decide_and, Bool.and_comm]

@[simp] theorem mem_running_haltAll (w : World ρ) (parts : List Part) (p : Part) :
    p ∈ (w.haltAll parts).running ↔ p ∈ w.running ∧ p ∉ parts := by
  rw [haltAll_eq]
  simp

theorem mem_running_closeXray (w : World ρ) (p : Part) :
    p ∈ w.closeXray.running ↔ p ∈ w.running ∧
      ¬ (w.Held p ∧ (p.kind = .xray ∨ p.kind = .gate ∨ p.kind = .fullGate)) := by
  obtain ⟨kind, id⟩ := p
  unfold closeXray
  rw [mem_running_haltAll]
  cases kind <;> simp [Held]

theorem mem_running_stopExtraProcess (w : World ρ) (p : Part) :
    p ∈ w.stopExtraProcess.running ↔ p ∈ w.running ∧
      ¬ (w.Held p ∧ (p.kind = .process ∨ p.kind = .file)) := by
  obtain ⟨kind, id⟩ := p
  unfold stopExtraProcess
  cases hextra : w.extraProcess with
  | none => cases kind <;> simp [Held, hextra]
  | some x => cases kind <;> simp [Held, hextra]

theorem closeXray_slots (w : World ρ) : w.closeXray.boxInstance = w.boxInstance ∧
    w.closeXray.extraProcess = w.extraProcess ∧ w.closeXray.xrayInstance = none ∧
    w.closeXray.xrayGate = none ∧ w.closeXray.xrayFullGates = [] ∧
    w.closeXray.stopEgressForwardingWatch = w.stopEgressForwardingWatch := by
  unfold closeXray
  rw [haltAll_eq]
  exact ⟨rfl, rfl, rfl, rfl, rfl, rfl⟩

theorem stopExtraProcess_slots (w : World ρ) :
    w.stopExtraProcess.boxInstance = w.boxInstance ∧ w.stopExtraProcess.extraProcess = none ∧
    w.stopExtraProcess.xrayInstance = w.xrayInstance ∧
    w.stopExtraProcess.xrayGate = w.xrayGate ∧
    w.stopExtraProcess.xrayFullGates = w.xrayFullGates ∧
    w.stopExtraProcess.stopEgressForwardingWatch = w.stopEgressForwardingWatch := by
  unfold stopExtraProcess
  cases hextra : w.extraProcess with
  | none => exact ⟨rfl, hextra, rfl, rfl, rfl, rfl⟩
  | some x =>
    dsimp only
    rw [haltAll_eq]
    exact ⟨rfl, rfl, rfl, rfl, rfl, rfl⟩

namespace Upto

variable {w : World ρ} {kinds kinds' : List Kind}

/-- A variable of another kind names nothing. -/
theorem not_held (h : w.Upto kinds) (kind : Kind) (n : Nat) (hkind : kind ∉ kinds)
    (hfile : kind ≠ .file) (hdns : kind ≠ .systemDNS) : ¬ w.Held ⟨kind, n⟩ := fun hheld =>
  hkind (h.held _ (h.live _ hheld hfile hdns)).2

theorem mono (h : w.Upto kinds) (hsub : ∀ k ∈ kinds, k ∈ kinds') : w.Upto kinds' :=
  ⟨fun p hp => ⟨(h.held p hp).1, hsub _ (h.held p hp).2⟩, h.live⟩

theorem running_eq_nil (h : w.Upto []) : w.running = [] :=
  List.eq_nil_iff_forall_not_mem.mpr fun p hp => List.not_mem_nil (h.held p hp).2

theorem boxInstance_eq_none (h : w.Upto kinds) (hbox : Kind.box ∉ kinds) :
    w.boxInstance = none :=
  Option.eq_none_iff_forall_ne_some.mpr fun n =>
    h.not_held .box n hbox (by decide) (by decide)

theorem extraProcess_run (h : w.Upto kinds) (hkind : Kind.process ∉ kinds) :
    ∀ x ∈ w.extraProcess, x.run = none := fun x hx =>
  Option.eq_none_iff_forall_ne_some.mpr fun n hn =>
    h.not_held .process n hkind (by decide) (by decide) ⟨x, hx, hn⟩

theorem xrayInstance_eq_none (h : w.Upto kinds) (hkind : Kind.xray ∉ kinds) :
    w.xrayInstance = none :=
  Option.eq_none_iff_forall_ne_some.mpr fun n =>
    h.not_held .xray n hkind (by decide) (by decide)

theorem xrayGate_eq_none (h : w.Upto kinds) (hkind : Kind.gate ∉ kinds) : w.xrayGate = none :=
  Option.eq_none_iff_forall_ne_some.mpr fun n =>
    h.not_held .gate n hkind (by decide) (by decide)

theorem xrayFullGates_eq_nil (h : w.Upto kinds) (hkind : Kind.fullGate ∉ kinds) :
    w.xrayFullGates = [] :=
  List.eq_nil_iff_forall_not_mem.mpr fun n =>
    h.not_held .fullGate n hkind (by decide) (by decide)

theorem watch_eq_none (h : w.Upto kinds) (hkind : Kind.watch ∉ kinds) :
    w.stopEgressForwardingWatch = none :=
  Option.eq_none_iff_forall_ne_some.mpr fun n =>
    h.not_held .watch n hkind (by decide) (by decide)

end Upto

end World

/-! ## Steps with errors -/

namespace Outcome

/-- What some steps leave when they succeed, and when they fail. -/
def Post (o : Outcome ρ) (ok err : World ρ → Prop) : Prop :=
  match o.1 with
  | none => ok o.2
  | some _ => err o.2

theorem Post.andThen {o : Outcome ρ} {f : World ρ → Outcome ρ} {P Q E : World ρ → Prop}
    (ho : o.Post P E) (hf : ∀ w, P w → (f w).Post Q E) : (o.andThen f).Post Q E := by
  obtain ⟨err, w⟩ := o
  cases err with
  | none => exact hf w ho
  | some e => exact ho

theorem Post.imp {o : Outcome ρ} {P P' E E' : World ρ → Prop} (ho : o.Post P E)
    (hok : ∀ w, P w → P' w) (herr : ∀ w, E w → E' w) : o.Post P' E' := by
  obtain ⟨err, w⟩ := o
  cases err with
  | none => exact hok w ho
  | some e => exact herr w ho

theorem Post.of_none {o : Outcome ρ} {P E E' : World ρ → Prop} (ho : o.Post P E)
    (h : o.1 = none) : o.Post P E' := by
  obtain ⟨err, w⟩ := o
  obtain rfl : err = none := h
  exact ho

theorem Post.of_some {o : Outcome ρ} {P P' E : World ρ → Prop} (ho : o.Post P E)
    (h : o.1.isSome = true) : o.Post P' E := by
  obtain ⟨err, w⟩ := o
  cases err with
  | none => exact absurd h (by simp)
  | some e => exact ho

end Outcome

/-! ## The extra process -/

section Stages

open World

variable (req : StartReq ρ) {w : World ρ}

/-- The error of the extra process, as the request has it. -/
def StartReq.extraError (req : StartReq ρ) : Option String :=
  if req.NeedExtraProcess then
    match req.splitArgs, req.ExtraProcessConf with
    | some e, _ => some ("Failed to parse args: " ++ e)
    | none, some (some e) => some ("Failed to create extra.conf: " ++ e)
    | none, _ => req.startExtraProcess
  else none

/-- Nothing is named but the extra process. -/
structure Bare (w : World ρ) : Prop where
  box : w.boxInstance = none
  xray : w.xrayInstance = none
  gate : w.xrayGate = none
  fullGates : w.xrayFullGates = []
  watch : w.stopEgressForwardingWatch = none

theorem Bare.upto {kinds : List Kind} (h : Bare w)
    (hheld : ∀ p ∈ w.running, w.Held p ∧ p.kind ∈ kinds)
    (hlive : ∀ x ∈ w.extraProcess, ∀ n, x.run = some n → ⟨.process, n⟩ ∈ w.running) :
    w.Upto kinds where
  held := hheld
  live p hp hfile hdns := by
    obtain ⟨kind, id⟩ := p
    cases kind with
    | process =>
      obtain ⟨x, hx, hid⟩ := hp
      exact hlive x hx id hid
    | box => exact absurd (h.box.symm.trans hp) (by simp)
    | xray => exact absurd (h.xray.symm.trans hp) (by simp)
    | gate => exact absurd (h.gate.symm.trans hp) (by simp)
    | fullGate =>
      have hid : id ∈ w.xrayFullGates := hp
      rw [h.fullGates] at hid
      exact absurd hid List.not_mem_nil
    | watch => exact absurd (h.watch.symm.trans hp) (by simp)
    | file => exact absurd rfl hfile
    | systemDNS => exact absurd rfl hdns

theorem World.Upto.bare (h : w.Upto []) : Bare w :=
  ⟨h.boxInstance_eq_none (by decide), h.xrayInstance_eq_none (by decide),
    h.xrayGate_eq_none (by decide), h.xrayFullGates_eq_nil (by decide), h.watch_eq_none (by decide)⟩

/-- The extra process is started over nothing but its file. -/
theorem runExtraProcess_post {cleanup : Option Nat} (h : Bare w)
    (hrun : ∀ p ∈ w.running, ∃ n ∈ cleanup, p = ⟨.file, n⟩) :
    (runExtraProcess req cleanup w).Post
      (fun w' => w'.Upto [.process, .file] ∧ ∃ x ∈ w'.extraProcess, x.run.isSome = true)
      fun w' => w'.Upto [] := by
  unfold runExtraProcess
  cases req.startExtraProcess with
  | some e =>
    have hgone (p : Part) : p ∉ (w.haltAll (cleanup.toList.map (Part.mk .file))).running := by
      intro hp
      rw [mem_running_haltAll] at hp
      obtain ⟨n, hn, rfl⟩ := hrun p hp.1
      exact hp.2 (List.mem_map_of_mem (by simpa using hn))
    refine Bare.upto ?_ (fun p hp => absurd hp (hgone p)) ?_
    · rw [haltAll_eq]
      exact ⟨h.box, h.xray, h.gate, h.fullGates, h.watch⟩
    · rintro x hx n hn
      rw [← Option.mem_some_iff.mp hx] at hn
      exact absurd hn (by simp)
  | none =>
    refine ⟨Bare.upto ⟨h.box, h.xray, h.gate, h.fullGates, h.watch⟩ (fun p hp => ?_) ?_, _, rfl,
      rfl⟩
    · obtain rfl | hp := List.mem_cons.mp hp
      · exact ⟨⟨_, rfl, rfl⟩, by simp⟩
      · obtain ⟨n, hn, rfl⟩ := hrun p hp
        exact ⟨⟨_, rfl, hn⟩, by simp⟩
    · rintro x hx n hn
      rw [← Option.mem_some_iff.mp hx] at hn
      rw [← Option.some.inj hn]
      exact List.mem_cons_self

theorem startExtra_none (hneed : req.NeedExtraProcess = false) : startExtra req w = (none, w) := by
  unfold startExtra
  rw [if_neg (by simp [hneed])]

theorem startExtra_post (hneed : req.NeedExtraProcess = true) (h : w.Upto []) :
    (startExtra req w).Post
      (fun w' => w'.Upto [.process, .file] ∧ ∃ x ∈ w'.extraProcess, x.run.isSome = true)
      fun w' => w'.Upto [] := by
  have hrun := h.running_eq_nil
  unfold startExtra
  rw [if_pos hneed]
  cases req.splitArgs with
  | some e => exact h
  | none =>
    cases req.ExtraProcessConf with
    | none =>
      refine runExtraProcess_post req h.bare fun p hp => ?_
      rw [hrun] at hp
      exact absurd hp List.not_mem_nil
    | some written =>
      cases written with
      | some e => exact h
      | none =>
        refine runExtraProcess_post req ⟨h.bare.box, h.bare.xray, h.bare.gate, h.bare.fullGates,
          h.bare.watch⟩ fun p hp => ?_
        rw [mem_running_launch, hrun] at hp
        exact ⟨w.next, rfl, hp.resolve_right List.not_mem_nil⟩

theorem startExtra_fst : (startExtra req w).1 = req.extraError := by
  unfold startExtra StartReq.extraError runExtraProcess
  by_cases hneed : req.NeedExtraProcess = true
  · rw [if_pos hneed, if_pos hneed]
    cases req.splitArgs with
    | some e => rfl
    | none =>
      cases req.ExtraProcessConf with
      | none => cases req.startExtraProcess <;> rfl
      | some written =>
        cases written with
        | some e => rfl
        | none => cases req.startExtraProcess <;> rfl
  · rw [if_neg hneed, if_neg hneed]

/-! ## Xray -/

/-- The error of the sidecar, as the request has it. -/
def StartReq.xrayError (req : StartReq ρ) : Option String :=
  if req.NeedXray then
    if req.XrayLazyStart then req.startGate
    else req.createXrayInstance <|> req.prepareXray <|> req.startXrayInstance
  else none

theorem startXray_fst : (startXray req w).1 = req.xrayError := by
  unfold startXray StartReq.xrayError
  by_cases hneed : req.NeedXray = true
  · by_cases hlazy : req.XrayLazyStart = true
    · rw [if_pos hneed, if_pos hneed, if_pos hlazy, if_pos hlazy]
      cases req.startGate <;> rfl
    · rw [if_pos hneed, if_pos hneed, if_neg hlazy, if_neg hlazy]
      cases req.createXrayInstance with
      | some e => rfl
      | none =>
        cases req.prepareXray with
        | some e => rfl
        | none => cases req.startXrayInstance <;> rfl
  · rw [if_neg hneed, if_neg hneed]

variable {kinds : List Kind}

/-- Nothing is named that only comes after the extra process. -/
def Early (kinds : List Kind) : Prop := ∀ kind ∈ kinds, kind = .process ∨ kind = .file

theorem Early.notMem {kind : Kind} (h : Early kinds) (hprocess : kind ≠ .process)
    (hfile : kind ≠ .file) : kind ∉ kinds := fun hmem => (h kind hmem).elim hprocess hfile

/-- An instance that was created and closed again. -/
theorem World.Upto.launch_halt (h : w.Upto kinds) {kind : Kind} (hkind : kind ∉ kinds) :
    ((w.launch kind).halt ⟨kind, w.next⟩).Upto kinds where
  held p hp := by
    rw [mem_running_halt, mem_running_launch] at hp
    exact h.held p (hp.1.resolve_left hp.2)
  live p hp hpfile hpdns := by
    rw [mem_running_halt, mem_running_launch]
    have hrunning := h.live p hp hpfile hpdns
    refine ⟨.inr hrunning, ?_⟩
    rintro rfl
    exact hkind (h.held _ hrunning).2

/-- A part of a new kind is started, and its variable names it. -/
theorem World.Upto.started (h : w.Upto kinds) {kind : Kind} (hkind : kind ∉ kinds)
    {w' : World ρ} {n : Nat} (hrun : w'.running = ⟨kind, n⟩ :: w.running)
    (hnamed : ∀ id, w'.Held ⟨kind, id⟩ ↔ n = id)
    (hother : ∀ p : Part, p.kind ≠ kind → (w'.Held p ↔ w.Held p)) : w'.Upto (kind :: kinds) where
  held p hp := by
    rw [hrun] at hp
    obtain rfl | hp := List.mem_cons.mp hp
    · exact ⟨(hnamed n).mpr rfl, List.mem_cons_self⟩
    · obtain ⟨hheld, hmem⟩ := h.held p hp
      have hne : p.kind ≠ kind := fun heq => hkind (heq ▸ hmem)
      exact ⟨(hother p hne).mpr hheld, List.mem_cons_of_mem _ hmem⟩
  live p hp hfile hdns := by
    rw [hrun]
    by_cases hsame : p.kind = kind
    · obtain ⟨kind', id⟩ := p
      obtain rfl : kind' = kind := hsame
      rw [← (hnamed id).mp hp]
      exact List.mem_cons_self
    · exact List.mem_cons_of_mem _ (h.live p ((hother p hsame).mp hp) hfile hdns)

theorem World.Upto.gateStarted (h : w.Upto kinds) (hearly : Early kinds) :
    ((w.launch .gate).setXray none (some w.next)).Upto (.gate :: kinds) := by
  have hnone := h.xrayInstance_eq_none (hearly.notMem (by decide) (by decide))
  refine h.started (hearly.notMem (by decide) (by decide)) rfl (fun id => Option.some_inj)
    fun p hp => ?_
  obtain ⟨kind, id⟩ := p
  cases kind with
  | gate => exact absurd rfl hp
  | xray => simp [Held, setXray, hnone]
  | _ => rfl

theorem World.Upto.instanceStarted (h : w.Upto kinds) (hearly : Early kinds) :
    ((w.launch .xray).setXray (some w.next) none).Upto (.xray :: kinds) := by
  have hnone := h.xrayGate_eq_none (hearly.notMem (by decide) (by decide))
  refine h.started (hearly.notMem (by decide) (by decide)) rfl (fun id => Option.some_inj)
    fun p hp => ?_
  obtain ⟨kind, id⟩ := p
  cases kind with
  | xray => exact absurd rfl hp
  | gate => simp [Held, setXray, hnone]
  | _ => rfl

theorem startXray_post (h : w.Upto kinds) (hearly : Early kinds) : (startXray req w).Post
    (fun w' => w'.Upto (.xray :: .gate :: kinds) ∧ w'.extraProcess = w.extraProcess)
    fun w' => w'.Upto kinds ∧ w'.extraProcess = w.extraProcess := by
  unfold startXray
  by_cases hneed : req.NeedXray = true
  · rw [if_pos hneed]
    by_cases hlazy : req.XrayLazyStart = true
    · rw [if_pos hlazy]
      cases req.startGate with
      | some e => exact ⟨h, rfl⟩
      | none =>
        exact ⟨(h.gateStarted hearly).mono fun kind hkind => List.mem_cons_of_mem _ hkind, rfl⟩
    · rw [if_neg hlazy]
      have hclosed : ((w.launch .xray).halt ⟨.xray, w.next⟩).Upto kinds :=
        h.launch_halt (hearly.notMem (by decide) (by decide))
      cases req.createXrayInstance with
      | some e => exact ⟨h, rfl⟩
      | none =>
        cases req.prepareXray with
        | some e => exact ⟨hclosed, rfl⟩
        | none =>
          cases req.startXrayInstance with
          | some e => exact ⟨hclosed, rfl⟩
          | none =>
            refine ⟨(h.instanceStarted hearly).mono fun kind hkind => ?_, rfl⟩
            exact List.cons_subset_cons _ (List.subset_cons_self _ _) hkind
  · rw [if_neg hneed]
    exact ⟨h.mono fun kind hkind => List.mem_cons_of_mem _ (List.mem_cons_of_mem _ hkind), rfl⟩

/-! ## The gates of full configs -/

/-- The error of the gates, as the request has it. -/
def StartReq.gatesError (req : StartReq ρ) : Option String := req.XrayFullConfigs.findSome? id

theorem startFullGates_fst : (startFullGates req w).1 = req.gatesError := by
  unfold startFullGates StartReq.gatesError
  cases hconfigs : req.XrayFullConfigs with
  | nil => rfl
  | cons config rest =>
    rw [if_neg (by simp)]
    cases config with
    | some e => rfl
    | none =>
      unfold startXrayFullGates
      simp only [List.findSome?_cons, id]
      cases rest.findSome? id <;> rfl

/-- The gates that open are running, and nothing else has changed. -/
theorem openGates_spec (configs : List (Option String)) (w : World ρ) :
    (openGates configs w).2 = { w with
      running := (openGates configs w).2.running, next := (openGates configs w).2.next } ∧
    ∀ p, p ∈ (openGates configs w).2.running ↔
      p ∈ w.running ∨ (p.kind = .fullGate ∧ p.id ∈ (openGates configs w).1) := by
  induction configs generalizing w with
  | nil => exact ⟨rfl, fun p => by simp [openGates]⟩
  | cons config configs ih =>
    cases config with
    | some e => exact ih w
    | none =>
      obtain ⟨heq, hmem⟩ := ih (w.launch .fullGate)
      refine ⟨?_, fun p => ?_⟩
      · rw [openGates, heq]
        rfl
      · rw [openGates, hmem p, mem_running_launch, List.mem_cons]
        obtain ⟨kind, id⟩ := p
        simp only [Part.mk.injEq, or_assoc, and_or_left, or_left_comm]

/-- The sidecars are closed when there was nothing before them but the extra process. -/
theorem closeXray_upto {w' : World ρ} (hearly : Early kinds)
    (hrun : ∀ p ∈ w'.running, w'.Held p ∧ p.kind ∈ Kind.fullGate :: .xray :: .gate :: kinds)
    (hlive : ∀ x ∈ w'.extraProcess, ∀ n, x.run = some n → ⟨.process, n⟩ ∈ w'.running)
    (hbox : w'.boxInstance = none) (hwatch : w'.stopEgressForwardingWatch = none) :
    w'.closeXray.Upto kinds := by
  obtain ⟨hcbox, hcextra, hcxray, hcgate, hcfull, hcwatch⟩ := closeXray_slots w'
  refine Bare.upto ⟨hcbox.trans hbox, hcxray, hcgate, hcfull, hcwatch.trans hwatch⟩ ?_ ?_
  · rintro ⟨kind, id⟩ hp
    obtain ⟨hp, hopen⟩ := (mem_running_closeXray w' _).mp hp
    obtain ⟨hheld, hkind⟩ := hrun _ hp
    have hkinds : kind ∈ kinds := by
      simp only [List.mem_cons] at hkind
      obtain rfl | rfl | rfl | hkind := hkind
      · exact absurd ⟨hheld, .inr (.inr rfl)⟩ hopen
      · exact absurd ⟨hheld, .inl rfl⟩ hopen
      · exact absurd ⟨hheld, .inr (.inl rfl)⟩ hopen
      · exact hkind
    refine ⟨?_, hkinds⟩
    obtain rfl | rfl := hearly kind hkinds
    · simpa only [Held, hcextra] using hheld
    · simpa only [Held, hcextra] using hheld
  · rw [hcextra]
    intro x hx n hn
    exact (mem_running_closeXray w' _).mpr ⟨hlive x hx n hn, by simp⟩

theorem startFullGates_post (h : w.Upto (.xray :: .gate :: kinds)) (hearly : Early kinds) :
    (startFullGates req w).Post
      (fun w' => w'.Upto (.fullGate :: .xray :: .gate :: kinds) ∧
        w'.extraProcess = w.extraProcess)
      fun w' => w'.Upto kinds ∧ w'.extraProcess = w.extraProcess := by
  have hnotmem (kind : Kind) (hne : kind ≠ .xray ∧ kind ≠ .gate) (hnot : kind ∉ kinds) :
      kind ∉ Kind.xray :: .gate :: kinds := by
    simp [hne, hnot]
  have hbox := h.boxInstance_eq_none
    (hnotmem _ (by decide) (hearly.notMem (by decide) (by decide)))
  have hwatch := h.watch_eq_none (hnotmem _ (by decide) (hearly.notMem (by decide) (by decide)))
  have hfull := h.xrayFullGates_eq_nil
    (hnotmem _ (by decide) (hearly.notMem (by decide) (by decide)))
  have hheld : ∀ p ∈ w.running, w.Held p ∧ p.kind ∈ Kind.fullGate :: .xray :: .gate :: kinds :=
    fun p hp => (h.held p hp).imp_right (List.mem_cons_of_mem _)
  have hlive : ∀ x ∈ w.extraProcess, ∀ n, x.run = some n → ⟨.process, n⟩ ∈ w.running :=
    fun x hx n hn => h.live ⟨.process, n⟩ ⟨x, hx, hn⟩ (by simp) (by simp)
  unfold startFullGates
  cases hconfigs : req.XrayFullConfigs with
  | nil =>
    rw [if_pos rfl]
    exact ⟨h.mono fun kind hkind => List.mem_cons_of_mem _ hkind, rfl⟩
  | cons config rest =>
    rw [if_neg (by simp)]
    cases config with
    | some e =>
      exact ⟨closeXray_upto hearly hheld hlive hbox hwatch, (closeXray_slots w).2.1⟩
    | none =>
      obtain ⟨heq, hmem⟩ := openGates_spec (none :: rest) w
      unfold startXrayFullGates
      dsimp only
      cases rest.findSome? id with
      | some e =>
        -- the gates that did open are closed, which leaves the parts from before
        have hrunning (p : Part) : p ∈ ((openGates (none :: rest) w).2.haltAll
            ((openGates (none :: rest) w).1.map (Part.mk .fullGate))).running ↔
              p ∈ w.running ∧ p ∉ (openGates (none :: rest) w).1.map (Part.mk .fullGate) := by
          rw [mem_running_haltAll, hmem, or_and_right, or_iff_left_iff_imp]
          rintro ⟨⟨hkind, hid⟩, hnot⟩
          obtain ⟨kind, id⟩ := p
          exact absurd (hkind ▸ List.mem_map_of_mem hid) hnot
        have hslots : (openGates (none :: rest) w).2.haltAll
            ((openGates (none :: rest) w).1.map (Part.mk .fullGate)) = { w with
              running := ((openGates (none :: rest) w).2.haltAll
                ((openGates (none :: rest) w).1.map (Part.mk .fullGate))).running
              next := (openGates (none :: rest) w).2.next } := by
          rw [haltAll_eq, heq]
        generalize (openGates (none :: rest) w).2.haltAll
          ((openGates (none :: rest) w).1.map (Part.mk .fullGate)) = w' at hslots hrunning
        have hextra : w'.extraProcess = w.extraProcess := by rw [hslots]
        refine ⟨closeXray_upto hearly (fun p hp => ?_) ?_ (by rw [hslots]; exact hbox)
          (by rw [hslots]; exact hwatch), ((closeXray_slots w').2.1).trans hextra⟩
        · obtain ⟨hp, -⟩ := (hrunning p).mp hp
          rw [hslots]
          exact hheld p hp
        · rw [hextra]
          intro x hx n hn
          exact (hrunning _).mpr ⟨hlive x hx n hn, by simp⟩
      | none =>
        have hslots := heq
        generalize (openGates (none :: rest) w).2 = w' at hslots hmem
        generalize (openGates (none :: rest) w).1 = gates at hmem
        refine ⟨⟨fun p hp => ?_, fun p hp hfile hdns => ?_⟩, by rw [hslots]⟩
        · obtain hp | ⟨hkind, hid⟩ := (hmem p).mp hp
          · obtain ⟨hpheld, hpkind⟩ := h.held p hp
            refine ⟨?_, List.mem_cons_of_mem _ hpkind⟩
            obtain ⟨kind, id⟩ := p
            rw [hslots]
            cases kind with
            | fullGate => exact absurd (hfull ▸ hpheld : id ∈ []) List.not_mem_nil
            | _ => exact hpheld
          · obtain ⟨kind, id⟩ := p
            obtain rfl : kind = .fullGate := hkind
            exact ⟨hid, List.mem_cons_self⟩
        · obtain ⟨kind, id⟩ := p
          refine (hmem _).mpr ?_
          rw [hslots] at hp
          cases kind with
          | fullGate => exact .inr ⟨rfl, hp⟩
          | _ => exact .inl (h.live _ hp hfile hdns)

/-! ## The resolver and the box -/

/-- The kinds of parts that run beside a box. -/
def sidecarKinds : List Kind := [.systemDNS, .fullGate, .xray, .gate, .process, .file]

theorem stopSidecars_slots (w : World ρ) :
    w.stopSidecars.boxInstance = w.boxInstance ∧ w.stopSidecars.extraProcess = none ∧
    w.stopSidecars.xrayInstance = none ∧ w.stopSidecars.xrayGate = none ∧
    w.stopSidecars.xrayFullGates = [] ∧
    w.stopSidecars.stopEgressForwardingWatch = w.stopEgressForwardingWatch := by
  unfold stopSidecars
  obtain ⟨hbox, hextra, hxray, hgate, hfull, hwatch⟩ :=
    closeXray_slots w.releaseDNS.stopExtraProcess
  obtain ⟨hbox', hextra', -, -, -, hwatch'⟩ := stopExtraProcess_slots w.releaseDNS
  exact ⟨hbox.trans hbox', hextra.trans hextra', hxray, hgate, hfull, hwatch.trans hwatch'⟩

/-- Sidecars that are held are all stopped. -/
theorem stopSidecars_running (hheld : ∀ p ∈ w.running, w.Held p ∧ p.kind ∈ sidecarKinds) :
    w.stopSidecars.running = [] := by
  refine List.eq_nil_iff_forall_not_mem.mpr fun p hp => ?_
  obtain ⟨-, -, hxray', hgate', hfull', -⟩ := stopExtraProcess_slots w.releaseDNS
  obtain ⟨hp, hclosed⟩ := (mem_running_closeXray _ p).mp hp
  obtain ⟨hp, hstopped⟩ := (mem_running_stopExtraProcess _ p).mp hp
  obtain ⟨hp, hdns⟩ := (mem_running_halt _ _ p).mp hp
  obtain ⟨hheld, hkind⟩ := hheld p hp
  obtain ⟨kind, id⟩ := p
  cases kind with
  | systemDNS => exact hdns hheld
  | process => exact hstopped ⟨hheld, .inl rfl⟩
  | file => exact hstopped ⟨hheld, .inr rfl⟩
  | xray => exact hclosed ⟨hxray'.trans hheld, .inl rfl⟩
  | gate => exact hclosed ⟨hgate'.trans hheld, .inr (.inl rfl)⟩
  | fullGate =>
    have hid : id ∈ w.releaseDNS.stopExtraProcess.xrayFullGates := by
      rw [hfull']
      exact hheld
    exact hclosed ⟨hid, .inr (.inr rfl)⟩
  | box => exact absurd hkind (by simp [sidecarKinds])
  | watch => exact absurd hkind (by simp [sidecarKinds])

/-- Behind `stopSidecars` nothing is left, once there is no box. -/
theorem stopSidecars_bare (hwatch : w.stopEgressForwardingWatch = none)
    (hbox : w.boxInstance = none) : Bare w.stopSidecars := by
  obtain ⟨hbox', -, hxray, hgate, hfull, hwatch'⟩ := stopSidecars_slots w
  exact ⟨hbox'.trans hbox, hxray, hgate, hfull, hwatch'.trans hwatch⟩

theorem Bare.upto_nil (h : Bare w) (hextra : w.extraProcess = none) (hrun : w.running = []) :
    w.Upto [] := by
  refine h.upto (fun p hp => ?_) fun x hx => ?_
  · rw [hrun] at hp
    exact absurd hp List.not_mem_nil
  · rw [hextra] at hx
    exact absurd hx (by simp)

theorem forget_upto (h : w.Upto kinds) (hbox : Kind.box ∉ kinds) : (forget w).Upto kinds := by
  have hnone := h.boxInstance_eq_none hbox
  have hheld (p : Part) : (forget w).Held p ↔ w.Held p := by
    obtain ⟨kind, id⟩ := p
    cases kind with
    | box => exact iff_of_false (by simp [Held, forget, setBoxInstance]) (by simp [Held, hnone])
    | _ => rfl
  exact ⟨fun p hp => ⟨(hheld p).mpr (h.held p hp).1, (h.held p hp).2⟩,
    fun p hp hfile hdns => h.live p ((hheld p).mp hp) hfile hdns⟩

theorem prepareSystemDNS_post (h : w.Upto (.fullGate :: .xray :: .gate :: [.process, .file])) :
    (prepareSystemDNS req w).Post (fun w' => w'.Upto sidecarKinds)
      fun w' => (forget w').Upto [] := by
  have hside : w.Upto sidecarKinds := h.mono (by decide)
  have hbox := h.boxInstance_eq_none (by decide)
  have hwatch := h.watch_eq_none (by decide)
  have hchanged : ({ w with running := systemDNSPart :: w.running } : World ρ).Upto
      sidecarKinds := by
    refine ⟨fun p hp => ?_, fun p hp hfile hdns => ?_⟩
    · obtain rfl | hp := List.mem_cons.mp hp
      · exact ⟨rfl, by decide⟩
      · exact hside.held p hp
    · exact List.mem_cons_of_mem _ (hside.live p hp hfile hdns)
  unfold prepareSystemDNS
  by_cases hneed : req.systemDNS = true
  · rw [if_pos hneed]
    cases req.prepareDNS with
    | none => exact hchanged
    | some e =>
      refine forget_upto ?_ List.not_mem_nil
      dsimp only
      by_cases hpart : req.prepareDNSChanged = true
      · rw [if_pos hpart]
        have hbare := stopSidecars_bare (w := { w with running := systemDNSPart :: w.running })
          hwatch hbox
        exact hbare.upto_nil (stopSidecars_slots _).2.1 (stopSidecars_running hchanged.held)
      · rw [if_neg hpart]
        exact (stopSidecars_bare hwatch hbox).upto_nil (stopSidecars_slots _).2.1
          (stopSidecars_running hside.held)
  · rw [if_neg hneed]
    exact hside

/-- Everything that a running profile may consist of. -/
def allKinds : List Kind := .watch :: .box :: sidecarKinds

theorem createBox_post (h : w.Upto sidecarKinds) : (createBox req w).Post
    (fun w' => w'.Upto (.box :: sidecarKinds) ∧ w'.boxInstance.isSome = true)
    fun w' => (forget w').Upto [] := by
  unfold createBox
  cases req.createBox with
  | some e =>
    refine forget_upto ?_ List.not_mem_nil
    exact (stopSidecars_bare (h.watch_eq_none (by decide))
      (h.boxInstance_eq_none (by decide))).upto_nil (stopSidecars_slots w).2.1
      (stopSidecars_running h.held)
  | none =>
    refine ⟨h.started (by decide) rfl (fun id => Option.some_inj) fun p hp => ?_, rfl⟩
    obtain ⟨kind, id⟩ := p
    cases kind with
    | box => exact absurd rfl hp
    | _ => rfl

theorem applySystemDNS_post (h : w.Upto (.box :: sidecarKinds))
    (hbox : w.boxInstance.isSome = true) :
    (applySystemDNS req w).Post
      (fun w' => w'.Upto (.box :: sidecarKinds) ∧ w'.boxInstance.isSome = true)
      fun w' => (forget w').Upto [] := by
  unfold applySystemDNS
  by_cases hneed : req.systemDNS = true
  · rw [if_pos hneed]
    cases req.applyDNS with
    | none => exact ⟨h, hbox⟩
    | some e =>
      have hclosed : ∀ p ∈ (w.releaseDNS.haltAll (w.boxInstance.toList.map (Part.mk .box))).running,
          (w.releaseDNS.haltAll (w.boxInstance.toList.map (Part.mk .box))).Held p ∧
            p.kind ∈ sidecarKinds := by
        rintro ⟨kind, id⟩ hp
        obtain ⟨hp, hnot⟩ := (mem_running_haltAll _ _ _).mp hp
        obtain ⟨hp, -⟩ := (mem_running_halt _ _ _).mp hp
        obtain ⟨hheld, hkind⟩ := h.held _ hp
        rw [haltAll_eq]
        refine ⟨hheld, ?_⟩
        obtain rfl | hkind := List.mem_cons.mp hkind
        · have hid : w.boxInstance = some id := hheld
          exact absurd (by simp [hid]) hnot
        · exact hkind
      obtain ⟨-, hextra, hxray, hgate, hfull, hwatch⟩ := stopSidecars_slots
        (w.releaseDNS.haltAll (w.boxInstance.toList.map (Part.mk .box)))
      have hnowatch : (w.releaseDNS.haltAll
          (w.boxInstance.toList.map (Part.mk .box))).stopEgressForwardingWatch = none := by
        rw [haltAll_eq]
        exact h.watch_eq_none (by decide)
      have hbare : Bare (forget (w.releaseDNS.haltAll
          (w.boxInstance.toList.map (Part.mk .box))).stopSidecars) :=
        ⟨rfl, hxray, hgate, hfull, hwatch.trans hnowatch⟩
      exact hbare.upto_nil hextra (stopSidecars_running hclosed)
  · rw [if_neg hneed]
    exact ⟨h, hbox⟩

theorem watchEgress_post (h : w.Upto (.box :: sidecarKinds)) (hbox : w.boxInstance.isSome = true) :
    (watchEgress req w).Post (fun w' => w'.Upto allKinds ∧ w'.boxInstance.isSome = true)
      fun _ => False := by
  have hnone := h.watch_eq_none (by decide)
  have hall : w.Upto allKinds := h.mono fun kind hkind => List.mem_cons_of_mem _ hkind
  unfold watchEgress
  by_cases htun : req.TunIpv4Cidr = true
  · rw [if_pos htun]
    by_cases hwatch : req.watchesForwarding = true
    · rw [if_pos hwatch]
      refine ⟨h.started (by decide) rfl (fun id => Option.some_inj) fun p hp => ?_, hbox⟩
      obtain ⟨kind, id⟩ := p
      cases kind with
      | watch => exact absurd rfl hp
      | _ => rfl
    · rw [if_neg hwatch]
      have hsame : ({ w with stopEgressForwardingWatch := none } : World ρ) = w := by
        rw [← hnone]
      rw [hsame]
      exact ⟨hall, hbox⟩
  · rw [if_neg htun]
    exact ⟨hall, hbox⟩

/-! ## Start -/

/-- An extra process that was started is lost: a sidecar that fails behind it does not stop it. -/
def StartReq.StrandsExtra (req : StartReq ρ) : Prop :=
  req.NeedExtraProcess = true ∧ req.extraError = none ∧
    (req.xrayError.isSome = true ∨ req.gatesError.isSome = true)

instance (req : StartReq ρ) : Decidable req.StrandsExtra := inferInstanceAs (Decidable (_ ∧ _))

/-- A whole world: what runs is what the variables name, and without a box nothing runs. -/
structure World.Owned (w : World ρ) : Prop where
  upto : w.Upto allKinds
  idle : w.boxInstance = none → w.running = []

theorem World.Upto.owned (h : w.Upto []) : w.Owned :=
  ⟨h.mono fun _ hkind => absurd hkind List.not_mem_nil, fun _ => h.running_eq_nil⟩

theorem World.Owned.upto_nil (h : w.Owned) (hbox : w.boxInstance = none) : w.Upto [] where
  held p hp := by
    rw [h.idle hbox] at hp
    exact absurd hp List.not_mem_nil
  live := h.upto.live

/-- The stages behind the extra process. -/
def startRest (w : World ρ) : Outcome ρ :=
  (storeMark req w).andThen fun w => (startXray req w).andThen fun w =>
    (startFullGates req w).andThen fun w => (prepareSystemDNS req w).andThen fun w =>
      (createBox req w).andThen fun w => (applySystemDNS req w).andThen (watchEgress req)

/-- The stages behind the extra process, when it is not lost. -/
theorem startRest_post (h : w.Upto kinds) (hkinds : kinds = [] ∨
      kinds = [.process, .file] ∧ req.xrayError = none ∧ req.gatesError = none) :
    (startRest req w).Post (fun w' => w'.Upto allKinds ∧ w'.boxInstance.isSome = true)
      fun w' => (forget w').Upto [] := by
  have hearly : Early kinds := by
    obtain rfl | ⟨rfl, -⟩ := hkinds
    · exact fun kind hkind => absurd hkind List.not_mem_nil
    · exact fun kind hkind => by simpa using hkind
  have hmark : ({ w with autoRedirectMark := req.mark } : World ρ).Upto kinds := ⟨h.held, h.live⟩
  refine Outcome.Post.andThen (P := fun w => w.Upto kinds) hmark fun w hw => ?_
  refine Outcome.Post.andThen (P := fun w => w.Upto (.xray :: .gate :: kinds)) ?_ fun w hw => ?_
  · have hpost := (startXray_post req hw hearly).imp (fun _ h => h.1) fun _ h => h.1
    obtain rfl | ⟨-, hxray, -⟩ := hkinds
    · exact hpost.imp (fun _ h => h) fun _ h => forget_upto h List.not_mem_nil
    · exact hpost.of_none ((startXray_fst req).trans hxray)
  refine Outcome.Post.andThen (P := fun w => w.Upto (.fullGate :: .xray :: .gate :: kinds)) ?_
    fun w hw => ?_
  · have hpost := (startFullGates_post req hw hearly).imp (fun _ h => h.1) fun _ h => h.1
    obtain rfl | ⟨-, -, hgates⟩ := hkinds
    · exact hpost.imp (fun _ h => h) fun _ h => forget_upto h List.not_mem_nil
    · exact hpost.of_none ((startFullGates_fst req).trans hgates)
  have hside : w.Upto (.fullGate :: .xray :: .gate :: [.process, .file]) := hw.mono (by
    obtain rfl | ⟨rfl, -⟩ := hkinds
    · decide
    · decide)
  refine Outcome.Post.andThen (prepareSystemDNS_post req hside) fun w hw => ?_
  refine Outcome.Post.andThen (createBox_post req hw) fun w hw => ?_
  refine Outcome.Post.andThen (applySystemDNS_post req hw.1 hw.2) fun w hw => ?_
  exact (watchEgress_post req hw.1 hw.2).imp (fun _ h => h) fun _ h => h.elim

/-- An extra process is running beside these parts. -/
def World.WithExtra (w : World ρ) (kinds : List Kind) : Prop :=
  w.Upto kinds ∧ ∃ x ∈ w.extraProcess, x.run.isSome = true

/-- The stages behind the extra process, when a sidecar fails. -/
theorem startRest_strands (h : w.WithExtra [.process, .file])
    (hfails : req.xrayError.isSome = true ∨ req.gatesError.isSome = true) :
    (startRest req w).Post (fun _ => False) fun w' => w'.WithExtra [.process, .file] := by
  have hearly : Early [.process, .file] := fun kind hkind => by simpa using hkind
  have hmark : ({ w with autoRedirectMark := req.mark } : World ρ).WithExtra [.process, .file] :=
    ⟨⟨h.1.held, h.1.live⟩, h.2⟩
  refine Outcome.Post.andThen (P := fun w' => w'.WithExtra [.process, .file]) hmark fun w hw => ?_
  have hxray : (startXray req w).Post (fun w' => w'.WithExtra (.xray :: .gate :: [.process, .file]))
      fun w' => w'.WithExtra [.process, .file] :=
    (startXray_post req hw.1 hearly).imp (fun _ h => ⟨h.1, h.2 ▸ hw.2⟩) fun _ h => ⟨h.1, h.2 ▸ hw.2⟩
  by_cases hfirst : req.xrayError.isSome = true
  · rw [← startXray_fst req (w := w)] at hfirst
    have hfalse : (startXray req w).Post (fun _ => False)
        fun w' => w'.WithExtra [.process, .file] := hxray.of_some hfirst
    exact hfalse.andThen fun _ h => h.elim
  · have hnext := hfails.resolve_left hfirst
    refine hxray.andThen fun w hw => ?_
    have hgates : (startFullGates req w).Post
        (fun w' => w'.WithExtra (.fullGate :: .xray :: .gate :: [.process, .file]))
        fun w' => w'.WithExtra [.process, .file] :=
      (startFullGates_post req hw.1 hearly).imp (fun _ h => ⟨h.1, h.2 ▸ hw.2⟩)
        fun _ h => ⟨h.1, h.2 ▸ hw.2⟩
    rw [← startFullGates_fst req (w := w)] at hnext
    have hfalse : (startFullGates req w).Post (fun _ => False)
        fun w' => w'.WithExtra [.process, .file] := hgates.of_some hnext
    exact hfalse.andThen fun _ h => h.elim

/-- `Start` from a world without anything in it, unless the extra process is lost. -/
theorem Start_post (h : w.Upto []) (hstrands : ¬ req.StrandsExtra) : (Start req w).Post
    (fun w' => w'.Upto allKinds ∧ w'.boxInstance.isSome = true) fun w' => w'.Upto [] := by
  have hbody : (startBody req w).Post
      (fun w' => w'.Upto allKinds ∧ w'.boxInstance.isSome = true)
      fun w' => (forget w').Upto [] := by
    unfold startBody
    rw [if_neg (by simp [h.bare.box])]
    cases hneed : req.NeedExtraProcess with
    | false =>
      rw [startExtra_none req hneed]
      exact startRest_post req h (.inl rfl)
    | true =>
      have hextra := startExtra_post req hneed h
      cases herror : req.extraError with
      | some e =>
        have hfails : (startExtra req w).1.isSome = true := by
          rw [startExtra_fst, herror]
          rfl
        have hfalse : (startExtra req w).Post (fun _ => False) fun w' => (forget w').Upto [] :=
          (hextra.of_some hfails).imp (fun _ h => h) fun _ h => forget_upto h List.not_mem_nil
        exact hfalse.andThen fun _ h => h.elim
      | none =>
        have hnone : req.xrayError = none ∧ req.gatesError = none := by
          constructor
          · exact Option.not_isSome_iff_eq_none.mp fun hsome => hstrands ⟨hneed, herror, .inl hsome⟩
          · exact Option.not_isSome_iff_eq_none.mp fun hsome => hstrands ⟨hneed, herror, .inr hsome⟩
        exact (hextra.of_none ((startExtra_fst req).trans herror)).andThen fun w hw =>
          startRest_post req hw.1 (.inr ⟨rfl, hnone⟩)
  unfold Start
  generalize startBody req w = o at hbody
  obtain ⟨err, w'⟩ := o
  cases err with
  | none => exact hbody
  | some e => exact hbody

/-- `Start` when a sidecar fails behind the extra process: that process keeps running. -/
theorem Start_strands (h : w.Upto []) (hstrands : req.StrandsExtra) : (Start req w).Post
    (fun _ => False)
    fun w' => w'.boxInstance = none ∧ ∃ n, (⟨.process, n⟩ : Part) ∈ w'.running := by
  have hbody : (startBody req w).Post (fun _ => False)
      fun w' => w'.WithExtra [.process, .file] := by
    obtain ⟨hneed, herror, hfails⟩ := hstrands
    unfold startBody
    rw [if_neg (by simp [h.bare.box])]
    exact ((startExtra_post req hneed h).of_none ((startExtra_fst req).trans herror)).andThen
      fun w hw => startRest_strands req hw hfails
  unfold Start
  generalize startBody req w = o at hbody
  obtain ⟨err, w'⟩ := o
  cases err with
  | none => exact hbody
  | some e =>
    obtain ⟨hupto, x, hx, hrun⟩ := hbody
    obtain ⟨n, hn⟩ := Option.isSome_iff_exists.mp hrun
    exact ⟨rfl, n, hupto.live ⟨.process, n⟩ ⟨x, hx, hn⟩ (by simp) (by simp)⟩

end Stages

/-! ## Runs -/

section Runs

open World

variable {w : World ρ}

/-- A start that is refused, or that loses an extra process. -/
def Loses (w : World ρ) : Request ρ → Prop
  | .start req => w.boxInstance.isSome = true ∨ req.StrandsExtra
  | .stop => False

instance (w : World ρ) (r : Request ρ) : Decidable (Loses w r) :=
  match r with
  | .start req => inferInstanceAs (Decidable (w.boxInstance.isSome = true ∨ req.StrandsExtra))
  | .stop => inferInstanceAs (Decidable False)

theorem mem_running_stopWatch (w : World ρ) (p : Part) : p ∈ (stopWatch w).running ↔
    p ∈ w.running ∧ ¬ (w.Held p ∧ p.kind = .watch) := by
  obtain ⟨kind, id⟩ := p
  unfold stopWatch
  cases hwatch : w.stopEgressForwardingWatch with
  | none => cases kind <;> simp [Held, hwatch]
  | some n =>
    dsimp only
    rw [mem_running_halt]
    cases kind <;> simp [Held, hwatch, eq_comm (a := n)]

theorem stopWatch_slots (w : World ρ) : (stopWatch w).boxInstance = w.boxInstance ∧
    (stopWatch w).extraProcess = w.extraProcess ∧
    (stopWatch w).xrayInstance = w.xrayInstance ∧ (stopWatch w).xrayGate = w.xrayGate ∧
    (stopWatch w).xrayFullGates = w.xrayFullGates ∧
    (stopWatch w).stopEgressForwardingWatch = none := by
  unfold stopWatch
  cases hwatch : w.stopEgressForwardingWatch with
  | none => exact ⟨rfl, rfl, rfl, rfl, rfl, hwatch⟩
  | some n => exact ⟨rfl, rfl, rfl, rfl, rfl, rfl⟩

/-- Without its watch and its box, a profile is made of sidecars. -/
theorem World.Owned.sidecars (h : w.Owned) {box : Nat} (hbox : w.boxInstance = some box) :
    ∀ p ∈ (((stopWatch w).setBoxInstance none none []).halt ⟨.box, box⟩).running,
      (((stopWatch w).setBoxInstance none none []).halt ⟨.box, box⟩).Held p ∧
        p.kind ∈ sidecarKinds := by
  rintro ⟨kind, id⟩ hp
  obtain ⟨hp, hother⟩ := (mem_running_halt _ _ _).mp hp
  obtain ⟨hp, hunwatched⟩ := (mem_running_stopWatch w _).mp hp
  obtain ⟨hheld, -⟩ := h.upto.held _ hp
  obtain ⟨-, hextra, hxray, hgate, hfull, -⟩ := stopWatch_slots w
  cases kind with
  | box =>
    have hid : box = id := Option.some.inj (hbox.symm.trans hheld)
    exact absurd (by rw [hid]) hother
  | watch => exact absurd ⟨hheld, rfl⟩ hunwatched
  | systemDNS => exact ⟨hheld, by simp [sidecarKinds]⟩
  | process =>
    obtain ⟨x, hx, hrun⟩ := hheld
    exact ⟨⟨x, hextra ▸ hx, hrun⟩, by simp [sidecarKinds]⟩
  | file =>
    obtain ⟨x, hx, hpath⟩ := hheld
    exact ⟨⟨x, hextra ▸ hx, hpath⟩, by simp [sidecarKinds]⟩
  | xray => exact ⟨hxray.trans hheld, by simp [sidecarKinds]⟩
  | gate => exact ⟨hgate.trans hheld, by simp [sidecarKinds]⟩
  | fullGate =>
    have hid : id ∈ w.xrayFullGates := hheld
    rw [← hfull] at hid
    exact ⟨hid, by simp [sidecarKinds]⟩

theorem Stop_owned (h : w.Owned) : (Stop w).Owned := by
  unfold Stop
  cases hbox : w.boxInstance with
  | none => exact h
  | some box =>
    have hsidecars := h.sidecars hbox
    have hnowatch : (((stopWatch w).setBoxInstance none none []).halt
        ⟨.box, box⟩).stopEgressForwardingWatch = none := (stopWatch_slots w).2.2.2.2.2
    have hclosed : ((stopWatch w).releaseDNS.setBoxInstance none none []).halt ⟨.box, box⟩ =
        (((stopWatch w).setBoxInstance none none []).halt ⟨.box, box⟩).releaseDNS := by
      simp only [releaseDNS, halt, setBoxInstance, List.filter_filter, Bool.and_comm]
    have hbare := stopSidecars_bare hnowatch rfl
    have hnil := hbare.upto_nil (stopSidecars_slots _).2.1 (stopSidecars_running hsidecars)
    dsimp only
    rw [hclosed]
    exact World.Upto.owned ⟨hnil.held, hnil.live⟩

theorem step_owned (h : w.Owned) (r : Request ρ) : (step w r).Owned ↔ ¬ Loses w r := by
  cases r with
  | stop => exact iff_of_true (Stop_owned h) fun hloses => hloses
  | start req =>
    cases hbox : w.boxInstance with
    | some box =>
      -- the instance is forgotten, and keeps running
      have hrunning : (⟨.box, box⟩ : Part) ∈ w.running :=
        h.upto.live ⟨.box, box⟩ hbox (by simp) (by simp)
      have hstep : step w (.start req) = forget w := by
        simp only [step, Start, startBody, hbox, Option.isSome_some, if_true]
      refine iff_of_false (fun howned => ?_) (not_not.mpr (.inl (by rw [hbox]; rfl)))
      rw [hstep] at howned
      have hnil : w.running = [] := howned.idle rfl
      rw [hnil] at hrunning
      exact List.not_mem_nil hrunning
    | none =>
      have hnil := h.upto_nil hbox
      by_cases hstrands : req.StrandsExtra
      · refine iff_of_false (fun howned => ?_) (not_not.mpr (.inr hstrands))
        have hpost := Start_strands req hnil hstrands
        unfold Outcome.Post at hpost
        cases herr : (Start req w).1 with
        | none => rw [herr] at hpost; exact hpost
        | some e =>
          rw [herr] at hpost
          obtain ⟨hnone, n, hn⟩ := hpost
          have hempty : (Start req w).2.running = [] := howned.idle hnone
          rw [hempty] at hn
          exact List.not_mem_nil hn
      · have hpost := Start_post req hnil hstrands
        refine iff_of_true ?_ ?_
        · unfold Outcome.Post at hpost
          rw [step]
          cases herr : (Start req w).1 with
          | none =>
            rw [herr] at hpost
            exact ⟨hpost.1, fun hnone => by
              have hsome := hpost.2
              rw [hnone] at hsome
              exact absurd hsome (by simp)⟩
          | some e =>
            rw [herr] at hpost
            exact World.Upto.owned hpost
        · rintro (hsome | hloses)
          · rw [hbox] at hsome
            exact absurd hsome (by simp)
          · exact hstrands hloses

theorem initial_owned : ({} : World ρ).Owned :=
  World.Upto.owned (Bare.upto_nil ⟨rfl, rfl, rfl, rfl, rfl⟩ rfl rfl)

/-- **Nothing is lost.**  From the first start on, what runs is what the variables name, and nothing
runs without an instance, just as long as no start is refused because of a running instance and no
sidecar fails behind an extra process. -/
theorem owned_iff (requests : List (Request ρ)) :
    Library.Throughout step (fun w r => ¬ Loses w r) {} requests ↔
      ∀ n, (Library.runAll step {} (requests.take n)).Owned :=
  Library.throughout_iff (I := fun w : World ρ => w.Owned) (J := fun _ => True)
    (fun _ _ _ => trivial) (fun _ r _ h => step_owned h r) trivial initial_owned

end Runs

end Throned.Lifecycle
