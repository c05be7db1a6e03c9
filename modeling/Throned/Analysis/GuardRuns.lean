import Throned.Analysis.GuardPolicy

/-!
# Runs of packets through the kill switch

The connection tracker keeps the labels of its flows while packets pass the two hooks.  A flow has
the label of the kill switch exactly when a packet of it was sent by a socket of the guard's group,
and got as far as the rule that asks for the group, since the flow was opened.
-/

set_option autoImplicit false

namespace Throned.Guard

open Library Library.Nft

variable {φ : Type*} [DecidableEq φ]

/-! ## The hooks -/

/-- The labels of every flow. -/
abbrev Tracker (φ : Type*) := φ → Bytes

namespace Tracker

def labelsOf (tracker : Tracker φ) (p : Packet φ) : Bytes :=
  match p.flow with
  | none => []
  | some flow => tracker flow.1

def store (tracker : Tracker φ) (p : Packet φ) (labels : Bytes) : Tracker φ :=
  match p.flow with
  | none => tracker
  | some flow => Function.update tracker flow.1 labels

end Tracker

/-- What happens at the hooks: a packet leaves, a packet is forwarded and then leaves, a flow ends. -/
inductive Event (φ : Type*) where
  | leave (p : Packet φ)
  | route (p : Packet φ)
  | expire (f : φ)

section Hooks

variable (r : Ruleset) (order : Endian)

/-- A packet at one hook. -/
def hook (chain : Chain) (tracker : Tracker φ) (p : Packet φ) : Verdict × Tracker φ :=
  let out := runChain (p.view order) .drop (r.chainRules chain) (tracker.labelsOf p)
  (out.1, tracker.store p out.2)

/-- A packet that is forwarded reaches the second hook when the first lets it pass. -/
def routeHooks (tracker : Tracker φ) (p : Packet φ) : Verdict × Tracker φ :=
  match hook r order .forward tracker p with
  | (.drop, tracker) => (.drop, tracker)
  | (.accept, tracker) => hook r order .postrouting tracker p

def step (tracker : Tracker φ) : Event φ → Tracker φ
  | .leave p => (hook r order .postrouting tracker p).2
  | .route p => (routeHooks r order tracker p).2
  | .expire f => Function.update tracker f (List.replicate 16 0)

def trackerAfter (tracker : Tracker φ) (events : List (Event φ)) : Tracker φ :=
  events.foldl (step r order) tracker

end Hooks

/-! ## Owned flows -/

/-- A packet of a flow that reaches the rule for the guard's group and meets it. -/
def Packet.Owns (cfg : ParsedConfig) (f : φ) (p : Packet φ) : Prop :=
  (∃ reply, p.flow = some (f, reply)) ∧ p.gid = some GID ∧ ¬ p.Loopback ∧ ¬ p.Interfaces cfg

def Event.Owns (cfg : ParsedConfig) (f : φ) : Event φ → Prop
  | .leave p => p.Owns cfg f
  | .route p => p.forward cfg = .accept ∧ p.Owns cfg f
  | .expire _ => False

/-- Some packet has made the flow the guard's own since the flow was opened. -/
def Owned (cfg : ParsedConfig) (f : φ) (events : List (Event φ)) : Prop :=
  ∃ before ev after, events = before ++ ev :: after ∧ ev.Owns cfg f ∧ .expire f ∉ after

omit [DecidableEq φ] in
theorem owned_append_singleton {cfg : ParsedConfig} {f : φ} {events : List (Event φ)}
    {ev : Event φ} : Owned cfg f (events ++ [ev]) ↔
      ev.Owns cfg f ∨ (Owned cfg f events ∧ ev ≠ .expire f) := by
  constructor
  · rintro ⟨before, own, after, heq, howns, hafter⟩
    cases after using List.reverseRecOn with
    | nil =>
      obtain ⟨-, hlast⟩ := List.append_inj' heq rfl
      rw [List.cons.inj hlast |>.1]
      exact .inl howns
    | append_singleton after last =>
      rw [← List.cons_append, ← List.append_assoc] at heq
      obtain ⟨hevents, hlast⟩ := List.append_inj' heq rfl
      obtain ⟨rfl, -⟩ := List.cons.inj hlast
      rw [List.mem_append, not_or] at hafter
      refine .inr ⟨⟨before, own, after, hevents, howns, hafter.1⟩, ?_⟩
      rintro rfl
      exact hafter.2 List.mem_cons_self
  · rintro (howns | ⟨⟨before, own, after, rfl, howns, hafter⟩, hne⟩)
    · exact ⟨events, ev, [], rfl, howns, List.not_mem_nil⟩
    · refine ⟨before, own, after ++ [ev], by simp, howns, ?_⟩
      rw [List.mem_append, List.mem_singleton, not_or]
      exact ⟨hafter, fun heq => hne heq.symm⟩

/-! ## Runs -/

section Runs

variable {ipSet : IPSet} {order : Endian} {cfg : ParsedConfig} {r : Ruleset}

theorem length_ctLabel : ctLabel.length = 16 := by decide

/-- Labels of the right length. -/
def Tracker.Sized (tracker : Tracker φ) : Prop := ∀ f, (tracker f).length = 16

omit [DecidableEq φ] in
/-- What a packet that leaves does to the labels of its flow. -/
theorem postrouting_labels {p : Packet φ} {flow : φ × Bool} (hflow : p.flow = some flow)
    {labels : Bytes} (hlength : labels.length = 16) :
    (p.postrouting cfg labels).2.length = 16 ∧
      (hasLabel ctLabel (p.postrouting cfg labels).2 ↔
        p.Owns cfg flow.1 ∨ hasLabel ctLabel labels) := by
  have hsome : p.flow.isSome = true := by rw [hflow]; rfl
  have hor : hasLabel ctLabel (List.zipWith (· ||| ·) labels ctLabel) :=
    hasLabel_or (hlength.trans length_ctLabel.symm) (by decide)
  unfold Packet.postrouting
  by_cases hearly : p.Early cfg labels
  · rw [if_pos hearly]
    refine ⟨hlength, .inr, ?_⟩
    rintro (⟨-, -, hlo, hifs⟩ | hlabel)
    · exact (hearly.resolve_left hlo |>.resolve_left hifs).2
    · exact hlabel
  · rw [if_neg hearly]
    by_cases hgid : p.gid = some GID
    · rw [if_pos hgid, if_pos hsome]
      refine ⟨by simp [hlength, length_ctLabel], fun _ => .inl ?_, fun _ => hor⟩
      exact ⟨⟨flow.2, hflow⟩, hgid, fun hlo => hearly (.inl hlo),
        fun hifs => hearly (.inr (.inl hifs))⟩
    · have hkeep : (if p.Upkeep cfg ∨ p.LanTraffic cfg then (Verdict.accept, labels)
          else (Verdict.drop, labels)).2 = labels := by
        split <;> rfl
      rw [if_neg hgid, hkeep]
      refine ⟨hlength, .inr, ?_⟩
      rintro (⟨-, hown, -⟩ | hlabel)
      · exact absurd hown hgid
      · exact hlabel

/-- The tracker behind a packet that leaves. -/
theorem store_postrouting {tracker : Tracker φ} (p : Packet φ) (f : φ)
    (hsized : tracker.Sized) :
    ((tracker.store p (p.postrouting cfg (tracker.labelsOf p)).2) f).length = 16 ∧
      (hasLabel ctLabel ((tracker.store p (p.postrouting cfg (tracker.labelsOf p)).2) f) ↔
        p.Owns cfg f ∨ hasLabel ctLabel (tracker f)) := by
  unfold Tracker.store Tracker.labelsOf
  cases hflow : p.flow with
  | none =>
    have hnone : ¬ p.Owns cfg f := by
      rintro ⟨⟨reply, hsome⟩, -⟩
      rw [hflow] at hsome
      exact absurd hsome (by simp)
    exact ⟨hsized f, (or_iff_right hnone).symm⟩
  | some flow =>
    dsimp only
    by_cases hf : f = flow.1
    · rw [hf, Function.update_self]
      exact postrouting_labels hflow (hsized flow.1)
    · have hother : ¬ p.Owns cfg f := by
        rintro ⟨⟨reply, hsome⟩, -⟩
        rw [hflow] at hsome
        exact hf (congrArg Prod.fst (Option.some.inj hsome)).symm
      rw [Function.update_of_ne hf]
      exact ⟨hsized f, (or_iff_right hother).symm⟩

theorem store_labelsOf (tracker : Tracker φ) (p : Packet φ) :
    tracker.store p (tracker.labelsOf p) = tracker := by
  unfold Tracker.store Tracker.labelsOf
  cases p.flow with
  | none => rfl
  | some flow => exact Function.update_eq_self flow.1 tracker

/-- The first hook, as the policy has it. -/
theorem hook_forward (hlan : LanRanges ipSet) (h : newRuleset ipSet order cfg = .ok r)
    (tracker : Tracker φ) (p : Packet φ) :
    hook r order .forward tracker p = (p.forward cfg, tracker) := by
  unfold hook
  rw [newRuleset_forward hlan h]
  exact Prod.ext rfl (store_labelsOf tracker p)

/-- The second hook, as the policy has it. -/
theorem hook_postrouting (hlan : LanRanges ipSet) (h : newRuleset ipSet order cfg = .ok r)
    (tracker : Tracker φ) (p : Packet φ) :
    hook r order .postrouting tracker p =
      ((p.postrouting cfg (tracker.labelsOf p)).1,
        tracker.store p (p.postrouting cfg (tracker.labelsOf p)).2) := by
  unfold hook
  rw [newRuleset_postrouting hlan h]

/-- **One step**: a flow has the label when it is taken over now, or had it and did not end. -/
theorem step_label (hlan : LanRanges ipSet) (h : newRuleset ipSet order cfg = .ok r)
    {tracker : Tracker φ} (hsized : tracker.Sized) (ev : Event φ) :
    (step r order tracker ev).Sized ∧ ∀ f, hasLabel ctLabel (step r order tracker ev f) ↔
      ev.Owns cfg f ∨ (hasLabel ctLabel (tracker f) ∧ ev ≠ .expire f) := by
  cases ev with
  | leave p =>
    rw [step, hook_postrouting hlan h]
    refine ⟨fun f => (store_postrouting p f hsized).1, fun f => ?_⟩
    rw [(store_postrouting p f hsized).2]
    simp [Event.Owns]
  | route p =>
    rw [step, routeHooks, hook_forward hlan h]
    cases hforward : p.forward cfg with
    | drop => exact ⟨hsized, fun f => by simp [Event.Owns, hforward]⟩
    | accept =>
      dsimp only
      rw [hook_postrouting hlan h]
      refine ⟨fun f => (store_postrouting p f hsized).1, fun f => ?_⟩
      rw [(store_postrouting p f hsized).2]
      simp [Event.Owns, hforward]
  | expire g =>
    rw [step]
    constructor
    · intro f
      by_cases hf : f = g
      · rw [hf, Function.update_self]
        exact List.length_replicate
      · rw [Function.update_of_ne hf]
        exact hsized f
    · intro f
      by_cases hf : f = g
      · rw [hf, Function.update_self]
        have hzero := not_hasLabel_zero ctLabel
        rw [length_ctLabel] at hzero
        refine iff_of_false hzero ?_
        rintro (howns | ⟨-, hne⟩)
        · exact howns
        · exact hne rfl
      · rw [Function.update_of_ne hf]
        have hne : g ≠ f := fun heq => hf heq.symm
        simp [Event.Owns, hne]

/-- **Every run**: the label stands for the flows that the guard's group owns. -/
theorem trackerAfter_label (hlan : LanRanges ipSet) (h : newRuleset ipSet order cfg = .ok r)
    {tracker : Tracker φ} (hsized : tracker.Sized)
    (hclear : ∀ f, ¬ hasLabel ctLabel (tracker f)) (events : List (Event φ)) :
    (trackerAfter r order tracker events).Sized ∧ ∀ f,
      hasLabel ctLabel (trackerAfter r order tracker events f) ↔ Owned cfg f events := by
  induction events using List.reverseRecOn with
  | nil =>
    refine ⟨hsized, fun f => iff_of_false (hclear f) ?_⟩
    rintro ⟨before, ev, after, heq, -⟩
    exact absurd heq (by simp)
  | append_singleton events ev ih =>
    have hsplit : trackerAfter r order tracker (events ++ [ev]) =
        step r order (trackerAfter r order tracker events) ev := by
      simp [trackerAfter]
    obtain ⟨hsize, hlabel⟩ := step_label hlan h ih.1 ev
    rw [hsplit]
    refine ⟨hsize, fun f => ?_⟩
    rw [hlabel f, ih.2 f, owned_append_singleton]

/-! ### A guard with a tunnel -/

/-- The ranges of the LAN prefixes. -/
def sampleIPSet : IPSet := fun prefixes =>
  if prefixes.all fun p => p.addr.is4 then
    .ok [(.v4 0x0a000000, .v4 0x0affffff), (.v4 0xa9fe0000, .v4 0xa9feffff),
      (.v4 0xac100000, .v4 0xac1fffff), (.v4 0xc0a80000, .v4 0xc0a8ffff),
      (.v4 0xe0000000, .v4 0xefffffff), (.v4 0xffffffff, .v4 0xffffffff)]
  else
    .ok [(.v6 0xfc00000000000000 0, .v6 0xfdffffffffffffff 0xffffffffffffffff),
      (.v6 0xfe80000000000000 0, .v6 0xfebfffffffffffff 0xffffffffffffffff),
      (.v6 0xff00000000000000 0, .v6 0xffffffffffffffff 0xffffffffffffffff)]

theorem exists_mem_hosts (prefixes : List Prefix) (addr : Addr) :
    (∃ p ∈ prefixes, addr ∈ p.hosts) ↔
      ∃ q ∈ prefixes.map fun p => (p.addr.is4, p.hostBits, p.addr.toNat / 2 ^ p.hostBits),
        addr.is4 = q.1 ∧ addr.toNat / 2 ^ q.2.1 = q.2.2 := by
  simp [Prefix.mem_hosts]

theorem lanRanges_sampleIPSet : LanRanges sampleIPSet where
  ranges4 ranges h := by
    have hranges : sampleIPSet lanPrefixes4 = .ok _ := rfl
    rw [← Except.ok.inj (hranges.symm.trans h)]
    refine ⟨by decide, by decide, by decide, fun addr => ?_⟩
    have hlist : lanPrefixes4.map (fun p => (p.addr.is4, p.hostBits,
        p.addr.toNat / 2 ^ p.hostBits)) = [(true, 24, 10), (true, 20, 0xac1), (true, 16, 0xc0a8),
          (true, 16, 0xa9fe), (true, 28, 14), (true, 0, 0xffffffff)] := by decide +kernel
    rw [exists_mem_hosts, hlist]
    cases addr with
    | v4 value =>
      simp [Addr.is4, Addr.toNat]
      omega
    | v6 high low => simp [Addr.is4]
  ranges6 ranges h := by
    have hranges : sampleIPSet lanPrefixes6 = .ok _ := rfl
    rw [← Except.ok.inj (hranges.symm.trans h)]
    refine ⟨by decide, by decide, by decide, fun addr => ?_⟩
    have hlist : lanPrefixes6.map (fun p => (p.addr.is4, p.hostBits,
        p.addr.toNat / 2 ^ p.hostBits)) = [(false, 118, 0x3fa), (false, 121, 0x7e),
          (false, 120, 0xff)] := by decide +kernel
    rw [exists_mem_hosts, hlist]
    cases addr with
    | v4 value => simp [Addr.is4]
    | v6 high low =>
      have hlow := low.isLt
      have hhigh := high.isLt
      simp [Addr.is4, Addr.toNat]
      omega

def sampleConfig : ParsedConfig where
  AllowLAN := true
  TunName := "throne-tun".toList
  TunPrefixes := []
  ExtraPaths := []
  BridgeName := []
  APIPort := 9095
  KeepStates := false
  tunName_valid := by decide
  bridgeName_valid := by decide

theorem sampleConfig_ok : ∃ r, newRuleset sampleIPSet .little sampleConfig = .ok r := ⟨_, rfl⟩

/-- A packet past the tunnel to 203.0.113.9, port 443, whose socket is gone. -/
def samplePacket : Packet ℕ where
  iif := none
  oif := some ⟨encode "eth0".toList, by decide, by decide⟩
  src := .v4 0xc0a80102
  dst := .v4 0xcb007109
  family_eq := rfl
  lead := List.replicate 12 0
  lead_length := rfl
  proto := some IPPROTO_TCP
  transport := [156, 64, 1, 187]
  gid := none
  gid_lt := by simp
  flow := some (1, false)

/-- The same, from a socket of the guard's group. -/
def sampleOwnPacket : Packet ℕ :=
  { samplePacket with gid := some GID, gid_lt := by intro g hg; cases hg; decide }

/-- **What leaves behind any run of packets.**  A packet leaves by one of the permits of the
policy, or because its flow was made the guard's own since it was opened. -/
theorem leaves_iff (hlan : LanRanges ipSet) (h : newRuleset ipSet order cfg = .ok r)
    {tracker : Tracker φ} (hsized : tracker.Sized)
    (hclear : ∀ f, ¬ hasLabel ctLabel (tracker f)) (events : List (Event φ)) (p : Packet φ) :
    (hook r order .postrouting (trackerAfter r order tracker events) p).1 = .accept ↔
      p.Loopback ∨ p.Interfaces cfg ∨ p.gid = some GID ∨ p.Upkeep cfg ∨ p.LanTraffic cfg ∨
        ∃ f reply, p.flow = some (f, reply) ∧ Owned cfg f events := by
  obtain ⟨-, hlabel⟩ := trackerAfter_label hlan h hsized hclear events
  have howned : p.Labelled ((trackerAfter r order tracker events).labelsOf p) ↔
      ∃ f reply, p.flow = some (f, reply) ∧ Owned cfg f events := by
    unfold Packet.Labelled Tracker.labelsOf
    cases hflow : p.flow with
    | none => simp
    | some flow => simp [hlabel flow.1, Prod.ext_iff]
  rw [hook_postrouting hlan h, postrouting_accept, howned]

theorem sample_leaves :
    ∃ r, newRuleset sampleIPSet .little sampleConfig = .ok r ∧
      (hook r .little .postrouting (trackerAfter r .little (fun _ => List.replicate 16 0)
        [.leave sampleOwnPacket]) samplePacket).1 = .accept ∧
      (hook r .little .postrouting (trackerAfter r .little (fun _ => List.replicate 16 0)
        [.leave sampleOwnPacket, .expire 1]) samplePacket).1 ≠ .accept := by
  have hzero : ¬ hasLabel ctLabel (List.replicate 16 0) := by decide
  obtain ⟨r, hr⟩ := sampleConfig_ok
  refine ⟨r, hr, ?_, ?_⟩
  · refine (leaves_iff lanRanges_sampleIPSet hr (fun _ => rfl) (fun _ => hzero) _
      samplePacket).mpr ?_
    refine .inr (.inr (.inr (.inr (.inr ⟨1, false, rfl, [], _, [], rfl, ?_, by simp⟩))))
    exact ⟨⟨false, rfl⟩, rfl, by decide, by decide⟩
  · rw [ne_eq, leaves_iff lanRanges_sampleIPSet hr (fun _ => rfl) (fun _ => hzero)]
    rintro (hlo | hifs | hgid | hup | hlocal | ⟨f, reply, hflow, hown⟩)
    · exact absurd hlo (by decide)
    · exact absurd hifs (by decide)
    · exact absurd hgid (by decide)
    · exact absurd hup (by decide)
    · exact absurd hlocal (by decide)
    · have hf : (1, false) = (f, reply) := Option.some.inj hflow
      obtain ⟨rfl, -⟩ := Prod.mk.inj hf
      rw [show [Event.leave sampleOwnPacket, .expire 1] = [.leave sampleOwnPacket] ++ [.expire 1]
        from rfl, owned_append_singleton] at hown
      obtain hnow | ⟨-, hne⟩ := hown
      · exact hnow
      · exact hne rfl

/-- A packet is forwarded through both hooks exactly when the first one lets it pass. -/
theorem routes_iff (hlan : LanRanges ipSet) (h : newRuleset ipSet order cfg = .ok r)
    (tracker : Tracker φ) (p : Packet φ) :
    (routeHooks r order tracker p).1 = .accept ↔
      p.Interfaces cfg ∨ (InPrefixes lanPrefixes p.src ∧ p.LanTraffic cfg) := by
  rw [← forward_accept, routeHooks, hook_forward hlan h]
  cases hforward : p.forward cfg with
  | drop => simp
  | accept =>
    dsimp only
    rw [hook_postrouting hlan h]
    simpa using postrouting_of_forward hforward _

theorem sample_routes :
    ∃ r, newRuleset sampleIPSet .little sampleConfig = .ok r ∧
      (routeHooks r .little (fun _ => List.replicate 16 0) samplePacket).1 ≠ .accept ∧
      (routeHooks r .little (fun _ => List.replicate 16 0)
        { samplePacket with dst := .v4 0x0a000001, family_eq := rfl }).1 = .accept := by
  obtain ⟨r, hr⟩ := sampleConfig_ok
  refine ⟨r, hr, ?_, ?_⟩
  · rw [ne_eq, routes_iff lanRanges_sampleIPSet hr]
    decide
  · rw [routes_iff lanRanges_sampleIPSet hr]
    decide

end Runs

end Throned.Guard
