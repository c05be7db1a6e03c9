import Mathlib.Data.Prod.Basic
import Mathlib.Order.Basic
import Mathlib.Algebra.Group.Prod
import Mathlib.Algebra.BigOperators.Group.List.Basic
import Throned.Model.ConnectionLister

/-!
# Every byte of a connection is credited once

What is credited for a connection is compared with the counters of its last report.  The
memory of the lister is that of one poll: the counters of the live connections, and the ids
of the closed ones.
-/

set_option autoImplicit false

namespace Throned.Stats

open Throned.Library

def ConnectionMetaData.counters (cm : ConnectionMetaData) : Int × Int := (cm.upload, cm.download)

/-- The entry of a connection in a list. -/
def entryOf (l : List ConnectionMetaData) (id : Text) : Option ConnectionMetaData :=
  l.find? fun cm => cm.id = id

/-- What is credited for one connection. -/
def credited (log : List AppDelta) (id : Text) : Int × Int :=
  ((log.filter fun delta => delta.id = id).map fun delta => (delta.up, delta.down)).sum

/-! ## What the polls have reported -/

/-- The reports up to some poll. -/
structure History where
  /-- The counters of the last report, where there was one. -/
  last : Text → Int × Int
  /-- The counters of the live connections in the last poll. -/
  live : Text → Option (Int × Int)
  /-- The closed ones of the last poll, and of all polls. -/
  ring : List Text
  wasClosed : List Text

namespace History

def start : History := ⟨fun _ => (0, 0), fun _ => none, [], []⟩

/-- The counters that a connection had among the live ones of the last poll. -/
def base (h : History) (id : Text) : Int × Int := (h.live id).getD (0, 0)

def next (h : History) (resp : QueryConnectionsResp) : History :=
  { last := fun id =>
      match entryOf resp.closed id, entryOf resp.active id with
      | some c, _ => c.counters
      | none, some a => a.counters
      | none, none => h.last id
    live := fun id => (entryOf resp.active id).map ConnectionMetaData.counters
    ring := resp.closed.map ConnectionMetaData.id
    wasClosed := h.wasClosed ++ resp.closed.map ConnectionMetaData.id }

def after (replies : List (Option QueryConnectionsResp)) : History :=
  replies.foldl (fun h reply => h.next (QueryConnections reply)) start

end History

/-- **What the core reports**: the ids of a list are distinct, the counters of a connection never
decrease, and what is closed is not live later. -/
structure WellFormed (h : History) (resp : QueryConnectionsResp) : Prop where
  active : (resp.active.map ConnectionMetaData.id).Nodup
  closed : (resp.closed.map ConnectionMetaData.id).Nodup
  live : ∀ a ∈ resp.active, h.last a.id ≤ a.counters ∧ a.id ∉ h.wasClosed
  ended : ∀ c ∈ resp.closed, h.last c.id ≤ c.counters
  order : ∀ a ∈ resp.active, ∀ c ∈ resp.closed, a.id = c.id → a.counters ≤ c.counters

/-- **When a poll is credited right**: what it reports with earlier counters was live in the poll
before with these, or is in the ring as it was then; and what it reports twice has moved nothing
since. -/
structure Regular (h : History) (resp : QueryConnectionsResp) : Prop where
  live : ∀ a ∈ resp.active, h.base a.id = h.last a.id
  ended : ∀ c ∈ resp.closed,
    if c.id ∈ h.ring then c.counters = h.last c.id else h.base c.id = h.last c.id
  both : ∀ a ∈ resp.active, ∀ c ∈ resp.closed, a.id = c.id → a.counters = h.last a.id

/-! ## The credits of one poll -/

theorem entryOf_of_mem {l : List ConnectionMetaData} {cm : ConnectionMetaData}
    (hl : (l.map ConnectionMetaData.id).Nodup) (h : cm ∈ l) : entryOf l cm.id = some cm := by
  induction l with
  | nil => cases h
  | cons c l ih =>
    rw [List.map_cons, List.nodup_cons] at hl
    unfold entryOf
    rcases List.mem_cons.mp h with rfl | h
    · rw [List.find?_cons, decide_eq_true rfl]
    · have hne : c.id ≠ cm.id := fun heq => hl.1 (heq ▸ List.mem_map_of_mem h)
      rw [List.find?_cons, decide_eq_false hne]
      exact ih hl.2 h

theorem mem_of_entryOf {l : List ConnectionMetaData} {cm : ConnectionMetaData} {id : Text}
    (h : entryOf l id = some cm) : cm ∈ l ∧ cm.id = id :=
  ⟨List.mem_of_find?_eq_some h, by simpa using List.find?_some h⟩

theorem credited_append (log log' : List AppDelta) (id : Text) :
    credited (log ++ log') id = credited log id + credited log' id := by
  simp only [credited, List.filter_append, List.map_append, List.sum_append]

/-- The bytes by which counters have grown. -/
def grown (base counters : Int × Int) : Int × Int :=
  (max (counters.1 - base.1) 0, max (counters.2 - base.2) 0)

theorem credited_singleton (delta : AppDelta) (id : Text) :
    credited [delta] id = if delta.id = id then (delta.up, delta.down) else 0 := by
  unfold credited
  by_cases hid : delta.id = id
  · simp [hid]
  · simp [hid]

theorem credited_credit (s : ConnectionLister) (cm : ConnectionMetaData) (id : Text) :
    credited (s.credit cm) id =
      if cm.id = id then grown ((s.lastBytes id).getD (0, 0)) cm.counters else 0 := by
  unfold ConnectionLister.credit
  simp only
  split
  · rename_i hzero
    split
    · rename_i hid
      rw [hid] at hzero
      exact (Prod.ext hzero.1 hzero.2).symm
    · rfl
  · rw [credited_singleton]
    simp only
    split
    · rename_i hid
      rw [hid]
      rfl
    · rfl

/-- Each connection of a list is credited once. -/
theorem credited_flatMap {f : ConnectionMetaData → List AppDelta} {g : ConnectionMetaData → Int × Int}
    (hf : ∀ cm id, credited (f cm) id = if cm.id = id then g cm else 0)
    {l : List ConnectionMetaData} (hl : (l.map ConnectionMetaData.id).Nodup) (id : Text) :
    credited (l.flatMap f) id = ((entryOf l id).map g).getD 0 := by
  induction l with
  | nil => rfl
  | cons c l ih =>
    rw [List.map_cons, List.nodup_cons] at hl
    rw [List.flatMap_cons, credited_append, hf, ih hl.2]
    unfold entryOf
    by_cases hid : c.id = id
    · have hnone : (l.find? fun cm => cm.id = id) = none := by
        rw [List.find?_eq_none]
        intro cm hcm heq
        exact hl.1 ((hid.trans (of_decide_eq_true heq).symm) ▸ List.mem_map_of_mem hcm)
      rw [if_pos hid, hnone, List.find?_cons, decide_eq_true hid]
      exact add_zero _
    · rw [if_neg hid, List.find?_cons, decide_eq_false hid]
      exact zero_add _

theorem newLast_eq {l : List ConnectionMetaData} (hl : (l.map ConnectionMetaData.id).Nodup)
    (id : Text) :
    ConnectionLister.newLast l id = (entryOf l id).map ConnectionMetaData.counters := by
  induction l using List.reverseRecOn with
  | nil => rfl
  | append_singleton l c ih =>
    rw [List.map_append, List.map_singleton, List.nodup_append] at hl
    unfold ConnectionLister.newLast at ih ⊢
    rw [List.foldl_append, List.foldl_cons, List.foldl_nil]
    unfold entryOf at ih ⊢
    rw [List.find?_append]
    by_cases hid : c.id = id
    · have hnone : (l.find? fun cm => cm.id = id) = none := by
        rw [List.find?_eq_none]
        intro cm hcm heq
        exact hl.2.2 _ (List.mem_map_of_mem hcm) _ (List.mem_singleton_self _)
          ((of_decide_eq_true heq).trans hid.symm)
      rw [hnone, hid, Function.update_self, Option.none_or, List.find?_cons, decide_eq_true hid]
      rfl
    · rw [Function.update_of_ne (fun heq => hid heq.symm), ih hl.1, List.find?_cons,
        decide_eq_false hid]
      simp

/-- The memory of the lister is that of the last poll. -/
structure Matches (s : ConnectionLister) (h : History) : Prop where
  live : s.lastBytes = h.live
  ring : s.accountedClosed = h.ring

/-- What a poll credits for a connection. -/
def earned (h : History) (resp : QueryConnectionsResp) (id : Text) : Int × Int :=
  ((entryOf resp.active id).map fun a => grown (h.base id) a.counters).getD 0 +
    ((entryOf resp.closed id).map fun c =>
      if id ∈ h.ring then 0 else grown (h.base id) c.counters).getD 0

theorem credited_update {s : ConnectionLister} {h : History} (hs : Matches s h)
    {reply : Option QueryConnectionsResp} (hreply : WellFormed h (QueryConnections reply))
    (id : Text) :
    credited (s.update reply).2 id = earned h (QueryConnections reply) id := by
  have hbase : (s.lastBytes id).getD (0, 0) = h.base id := by rw [hs.live]; rfl
  unfold ConnectionLister.update earned
  simp only
  rw [credited_append,
    @credited_flatMap s.credit (fun cm => grown (h.base cm.id) cm.counters) ?_ _ hreply.active id,
    @credited_flatMap _ (fun cm => if cm.id ∈ h.ring then 0 else grown (h.base cm.id) cm.counters)
      ?_ _ hreply.closed id]
  · congr 2
    · refine Option.map_congr fun a ha => ?_
      rw [(mem_of_entryOf ha).2]
    · refine Option.map_congr fun c hc => ?_
      rw [(mem_of_entryOf hc).2]
  · intro cm id'
    rw [hs.ring]
    by_cases hin : cm.id ∈ h.ring
    · rw [if_pos hin, if_pos hin, ite_self]
      rfl
    · rw [if_neg hin, if_neg hin, credited_credit, hs.live]
      split
      · rename_i hid
        rw [hid]
        rfl
      · rfl
  · intro cm id'
    rw [credited_credit, hs.live]
    split
    · rename_i hid
      rw [hid]
      rfl
    · rfl

theorem matches_update (s : ConnectionLister) {h : History}
    {reply : Option QueryConnectionsResp} (hreply : WellFormed h (QueryConnections reply)) :
    Matches (s.update reply).1 (h.next (QueryConnections reply)) :=
  ⟨funext fun id => newLast_eq hreply.active id, rfl⟩

/-! ## The condition -/

/-- What is known of the reports, whatever was credited. -/
structure History.Sound (h : History) : Prop where
  nonneg : ∀ id, 0 ≤ h.last id
  base : ∀ id, h.base id ≤ h.last id
  ring : ∀ id ∈ h.ring, id ∈ h.wasClosed

theorem History.sound_start : History.start.Sound := ⟨fun _ => le_rfl, fun _ => le_rfl, nofun⟩

theorem History.sound_next {h : History} (hs : h.Sound) {resp : QueryConnectionsResp}
    (hresp : WellFormed h resp) : (h.next resp).Sound := by
  have hended : ∀ id c, entryOf resp.closed id = some c → 0 ≤ c.counters := by
    intro id c hc
    exact (hs.nonneg c.id).trans (hresp.ended c (mem_of_entryOf hc).1)
  have hlive : ∀ id a, entryOf resp.active id = some a → 0 ≤ a.counters := by
    intro id a ha
    exact (hs.nonneg a.id).trans (hresp.live a (mem_of_entryOf ha).1).1
  refine ⟨fun id => ?_, fun id => ?_, fun id hid => List.mem_append_right _ hid⟩
  · simp only [next]
    cases hc : entryOf resp.closed id with
    | some c => exact hended id c hc
    | none =>
      cases ha : entryOf resp.active id with
      | some a => exact hlive id a ha
      | none => exact hs.nonneg id
  · simp only [next, base]
    cases ha : entryOf resp.active id with
    | some a =>
      cases hc : entryOf resp.closed id with
      | some c =>
        obtain ⟨hmem, hid⟩ := mem_of_entryOf ha
        obtain ⟨hmem', hid'⟩ := mem_of_entryOf hc
        exact hresp.order a hmem c hmem' (hid.trans hid'.symm)
      | none => exact le_rfl
    | none =>
      cases hc : entryOf resp.closed id with
      | some c => exact hended id c hc
      | none => exact hs.nonneg id

theorem add_grown_eq_iff {b l a : Int × Int} (hb : b ≤ l) (ha : l ≤ a) :
    l + grown b a = a ↔ b = l := by
  obtain ⟨hb₁, hb₂⟩ := Prod.le_def.mp hb
  obtain ⟨ha₁, ha₂⟩ := Prod.le_def.mp ha
  unfold grown
  rw [Prod.ext_iff, Prod.ext_iff, Prod.fst_add, Prod.snd_add]
  simp only
  omega

/-- What is reported live and closed at once is credited twice. -/
theorem add_grown_grown_eq_iff {b l a c : Int × Int} (hb : b ≤ l) (ha : l ≤ a) (hc : a ≤ c) :
    l + (grown b a + grown b c) = c ↔ b = l ∧ a = l := by
  obtain ⟨hb₁, hb₂⟩ := Prod.le_def.mp hb
  obtain ⟨ha₁, ha₂⟩ := Prod.le_def.mp ha
  obtain ⟨hc₁, hc₂⟩ := Prod.le_def.mp hc
  unfold grown
  rw [Prod.ext_iff, Prod.ext_iff, Prod.ext_iff, Prod.fst_add, Prod.snd_add, Prod.fst_add,
    Prod.snd_add]
  simp only
  omega

/-- The condition for one connection. -/
def Settles (h : History) (resp : QueryConnectionsResp) (id : Text) : Prop :=
  match entryOf resp.active id, entryOf resp.closed id with
  | some a, some _ => h.base id = h.last id ∧ a.counters = h.last id
  | some _, none => h.base id = h.last id
  | none, some c => if id ∈ h.ring then c.counters = h.last id else h.base id = h.last id
  | none, none => True

/-- **A poll is credited right for a connection exactly under the condition.** -/
theorem earned_eq_iff {h : History} (hs : h.Sound) {resp : QueryConnectionsResp}
    (hresp : WellFormed h resp) (id : Text) :
    h.last id + earned h resp id = (h.next resp).last id ↔ Settles h resp id := by
  have hbase := hs.base id
  unfold earned Settles
  simp only [History.next]
  cases ha : entryOf resp.active id with
  | some a =>
    obtain ⟨hmem, rfl⟩ := mem_of_entryOf ha
    obtain ⟨hgrows, hopen⟩ := hresp.live a hmem
    have hring : a.id ∉ h.ring := fun hin => hopen (hs.ring _ hin)
    cases hc : entryOf resp.closed a.id with
    | some c =>
      obtain ⟨hmem', hid⟩ := mem_of_entryOf hc
      simp only [Option.map_some, Option.getD_some, if_neg hring]
      exact add_grown_grown_eq_iff hbase hgrows (hresp.order a hmem c hmem' hid.symm)
    | none =>
      simp only [Option.map_some, Option.map_none, Option.getD_some, Option.getD_none, add_zero]
      exact add_grown_eq_iff hbase hgrows
  | none =>
    cases hc : entryOf resp.closed id with
    | some c =>
      obtain ⟨hmem', rfl⟩ := mem_of_entryOf hc
      simp only [Option.map_some, Option.map_none, Option.getD_some, Option.getD_none, zero_add]
      by_cases hring : c.id ∈ h.ring
      · rw [if_pos hring, if_pos hring, add_zero, eq_comm]
      · rw [if_neg hring, if_neg hring]
        exact add_grown_eq_iff hbase (hresp.ended c hmem')
    | none =>
      simp only [Option.map_none, Option.getD_none, add_zero]

theorem regular_iff {h : History} (hs : h.Sound) {resp : QueryConnectionsResp}
    (hresp : WellFormed h resp) : Regular h resp ↔ ∀ id, Settles h resp id := by
  constructor
  · intro hregular id
    unfold Settles
    cases ha : entryOf resp.active id with
    | some a =>
      obtain ⟨hmem, rfl⟩ := mem_of_entryOf ha
      cases hc : entryOf resp.closed a.id with
      | some c =>
        obtain ⟨hmem', hid⟩ := mem_of_entryOf hc
        exact ⟨hregular.live a hmem, hregular.both a hmem c hmem' hid.symm⟩
      | none => exact hregular.live a hmem
    | none =>
      cases hc : entryOf resp.closed id with
      | some c =>
        obtain ⟨hmem', rfl⟩ := mem_of_entryOf hc
        exact hregular.ended c hmem'
      | none => trivial
  · intro hall
    refine ⟨fun a hmem => ?_, fun c hmem => ?_, fun a hmem c hmem' hid => ?_⟩
    · have hset := hall a.id
      unfold Settles at hset
      rw [entryOf_of_mem hresp.active hmem] at hset
      cases hc : entryOf resp.closed a.id with
      | some c =>
        rw [hc] at hset
        exact hset.1
      | none =>
        rw [hc] at hset
        exact hset
    · have hset := hall c.id
      unfold Settles at hset
      rw [entryOf_of_mem hresp.closed hmem] at hset
      cases ha : entryOf resp.active c.id with
      | some a =>
        rw [ha] at hset
        obtain ⟨hmem', hid⟩ := mem_of_entryOf ha
        have hring : c.id ∉ h.ring := fun hin =>
          (hresp.live a hmem').2 (hs.ring _ (hid ▸ hin))
        rw [if_neg hring]
        exact hset.1
      | none =>
        rw [ha] at hset
        exact hset
    · have hset := hall a.id
      unfold Settles at hset
      rw [entryOf_of_mem hresp.active hmem, hid, entryOf_of_mem hresp.closed hmem'] at hset
      rw [hid]
      exact hset.2

/-! ## The runs -/

/-- What is credited for each connection adds up to the counters of its last report. -/
def CreditedOnce (replies : List (Option QueryConnectionsResp)) : Prop :=
  ∀ id, credited (ConnectionLister.polls replies).2 id = (History.after replies).last id

/-- Every poll of a run meets a condition on the reports before it. -/
def EachPoll (p : History → QueryConnectionsResp → Prop)
    (replies : List (Option QueryConnectionsResp)) : Prop :=
  ∀ earlier reply later, replies = earlier ++ reply :: later →
    p (History.after earlier) (QueryConnections reply)

variable {replies : List (Option QueryConnectionsResp)} {reply : Option QueryConnectionsResp}

theorem after_concat :
    History.after (replies ++ [reply]) = (History.after replies).next (QueryConnections reply) := by
  rw [History.after, List.foldl_append]
  rfl

theorem polls_concat :
    ConnectionLister.polls (replies ++ [reply]) =
      (((ConnectionLister.polls replies).1.update reply).1,
        (ConnectionLister.polls replies).2 ++ ((ConnectionLister.polls replies).1.update reply).2) := by
  rw [ConnectionLister.polls, List.foldl_append]
  rfl

theorem EachPoll.init {p : History → QueryConnectionsResp → Prop}
    (h : EachPoll p (replies ++ [reply])) : EachPoll p replies := by
  intro earlier reply' later heq
  exact h earlier reply' (later ++ [reply]) (by rw [heq, List.append_assoc, List.cons_append])

theorem eachPoll_concat {p : History → QueryConnectionsResp → Prop} (h : EachPoll p replies)
    (hlast : p (History.after replies) (QueryConnections reply)) :
    EachPoll p (replies ++ [reply]) := by
  intro earlier reply' later heq
  rcases List.eq_nil_or_concat later with rfl | ⟨later, last, rfl⟩
  · obtain ⟨rfl, hreply⟩ := List.append_inj' heq rfl
    rw [← (List.cons.inj hreply).1]
    exact hlast
  · rw [List.concat_eq_append, ← List.cons_append, ← List.append_assoc] at heq
    obtain ⟨rfl, -⟩ := List.append_inj' heq rfl
    exact h earlier reply' later rfl

/-- What holds after the polls, whatever they credited. -/
theorem polls_spec (h : EachPoll WellFormed replies) :
    Matches (ConnectionLister.polls replies).1 (History.after replies) ∧
      (History.after replies).Sound := by
  induction replies using List.reverseRecOn with
  | nil => exact ⟨⟨rfl, rfl⟩, History.sound_start⟩
  | append_singleton replies reply ih =>
    obtain ⟨hmatches, hsound⟩ := ih h.init
    have hreply := h replies reply [] rfl
    rw [polls_concat, after_concat]
    exact ⟨matches_update (ConnectionLister.polls replies).1 hreply, History.sound_next hsound hreply⟩

/-- One poll more is credited right exactly under the condition. -/
theorem creditedOnce_concat (h : EachPoll WellFormed (replies ++ [reply]))
    (hbefore : CreditedOnce replies) :
    CreditedOnce (replies ++ [reply]) ↔
      Regular (History.after replies) (QueryConnections reply) := by
  obtain ⟨hmatches, hsound⟩ := polls_spec h.init
  have hreply := h replies reply [] rfl
  rw [regular_iff hsound hreply]
  refine forall_congr' fun id => ?_
  rw [polls_concat, after_concat, credited_append, hbefore id, credited_update hmatches hreply]
  exact earned_eq_iff hsound hreply id

/-- **Every connection is credited its counters at all times, exactly if every poll meets the
condition.** -/
theorem creditedOnce_iff (h : EachPoll WellFormed replies) :
    (∀ n, CreditedOnce (replies.take n)) ↔ EachPoll Regular replies := by
  induction replies using List.reverseRecOn with
  | nil =>
    refine ⟨fun _ earlier reply later heq => ?_, fun _ n id => ?_⟩
    · exact absurd heq (by simp)
    · rw [List.take_nil]
      rfl
  | append_singleton replies reply ih =>
    have hrest := ih h.init
    constructor
    · intro hall
      have hbefore : ∀ n, CreditedOnce (replies.take n) := by
        intro n
        have hstarts : ∀ m, m ≤ replies.length → CreditedOnce (replies.take m) := by
          intro m hm
          have hnow := hall m
          rwa [List.take_append_of_le_length hm] at hnow
        rcases Nat.le_total n replies.length with hn | hn
        · exact hstarts n hn
        · have hwhole := hstarts replies.length le_rfl
          rwa [List.take_length, ← List.take_of_length_le hn] at hwhole
      refine eachPoll_concat (hrest.mp hbefore) ?_
      have hnow := hall (replies ++ [reply]).length
      rw [List.take_length] at hnow
      have hlast := hbefore replies.length
      rw [List.take_length] at hlast
      exact (creditedOnce_concat h hlast).mp hnow
    · intro hregular n
      have hbefore := hrest.mpr hregular.init
      by_cases hn : n ≤ replies.length
      · rw [List.take_append_of_le_length hn]
        exact hbefore n
      · rw [List.take_of_length_le (by rw [List.length_append, List.length_singleton]; omega)]
        have hlast := hbefore replies.length
        rw [List.take_length] at hlast
        exact (creditedOnce_concat h hlast).mpr (hregular replies reply [] rfl)

/-! ## A failed poll -/

def oneDownload (bytes : Int) : ConnectionMetaData :=
  ⟨['a'], ['c', 'u', 'r', 'l'], [], ['p', 'r', 'o', 'x', 'y'], 0, bytes⟩

/-- A connection, seen live twice and then in the ring. -/
def seenEachTime : List (Option QueryConnectionsResp) :=
  [some ⟨[oneDownload 100], []⟩, some ⟨[oneDownload 150], []⟩, some ⟨[], [oneDownload 170]⟩]

/-- The poll between two good ones fails, and the 100 bytes of the first are credited again. -/
def missedOnce : List (Option QueryConnectionsResp) :=
  [some ⟨[oneDownload 100], []⟩, none, some ⟨[oneDownload 150], []⟩]

theorem wellFormed_seenEachTime : EachPoll WellFormed seenEachTime := by
  have hnil : EachPoll WellFormed [] := fun earlier _ _ heq => absurd heq (by simp)
  refine @eachPoll_concat [_, _] _ _ (@eachPoll_concat [_] _ _ (@eachPoll_concat [] _ _ hnil ?_) ?_)
    ?_
  all_goals constructor <;> decide

theorem wellFormed_missedOnce : EachPoll WellFormed missedOnce := by
  have hnil : EachPoll WellFormed [] := fun earlier _ _ heq => absurd heq (by simp)
  refine @eachPoll_concat [_, _] _ _ (@eachPoll_concat [_] _ _ (@eachPoll_concat [] _ _ hnil ?_) ?_)
    ?_
  all_goals constructor <;> decide

theorem creditedOnce_iff_seenEachTime :
    (∀ n, CreditedOnce (seenEachTime.take n)) ↔ EachPoll Regular seenEachTime :=
  creditedOnce_iff wellFormed_seenEachTime

theorem not_creditedOnce_missedOnce :
    ¬ ∀ replies, EachPoll WellFormed replies → CreditedOnce replies := by
  intro h
  have htwice := h missedOnce wellFormed_missedOnce ['a']
  revert htwice
  decide

end Throned.Stats
