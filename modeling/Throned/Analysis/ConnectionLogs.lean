import Throned.Analysis.ConnectionLogLines
import Throned.Library.RingQueue

/-!
# The writer of connection logs over a run of writes

The cache of contexts is a queue of the identifiers in the order in which they came, kept in a
ring, and a map with one context for each.  A run of writes passes the right text for each line
exactly when each message that is replaced keeps its place.
-/

set_option autoImplicit false

namespace Throned.Boxmain

open Throned.Library
open Throned.Library.Expression

/-! ## Identifiers -/

/-- A context has a name. -/
theorem contextId_ne_nil {line id : ByteText} (h : contextId line = some id) : id ≠ [] := by
  unfold contextId at h
  cases hfound : findSubmatch connectionContextPattern line with
  | none => simp [hfound] at h
  | some groups =>
    obtain ⟨found, hfind, rfl⟩ := Option.map_eq_some_iff.mp hfound
    obtain ⟨before, rest, hrest, hrun⟩ := exists_run_of_findFrom hfind
    have hbytes : ∀ r ∈ rest, r.bytes ≠ [] := fun r hr =>
      bytes_ne_nil_of_mem_runes (hrest.subset hr)
    obtain ⟨opened, hopened, hrun⟩ := List.mem_flatMap.mp hrun
    obtain ⟨named, hnamed, hrun⟩ := List.mem_flatMap.mp hrun
    have hsuffix := (run_suffix _ hopened).1
    obtain ⟨part, hgroups, hne⟩ := groups_of_plus_rune hnamed fun r hr =>
      hbytes r (hsuffix.subset hr)
    have hstarts := (run_suffix (seqs [plus blank, plus (except [']']), literal "]".toList]) hrun).2
    rw [hfound] at h
    split at h
    next only hgroup =>
      rw [Option.some.injEq] at hgroup h
      rw [hgroups, hgroup, h] at hstarts
      have hlength := hstarts.length_le
      simp only [List.length_append, List.length_singleton] at hlength
      have hnil : opened.groups = [] := List.eq_nil_of_length_eq_zero (by omega)
      rw [hnil, List.nil_append, List.cons_prefix_cons] at hstarts
      exact hstarts.1 ▸ hne
    next => simp at h

/-! ## The cache -/

/-- The identifiers that are kept, the oldest first. -/
def contextQueue (w : connectionLogWriter) : List ByteText :=
  (rotated w.contextRing w.contextNext).filter (· ≠ [])

/-- The queue after a line: a new identifier is admitted. -/
def queueStep (queue : List ByteText) (line : ByteText) : List ByteText :=
  match contextId line with
  | none => queue
  | some id => if id ∈ queue then queue else enqueue contextCacheSize queue id

/-- The ring and the map keep the contexts of a queue. -/
structure KeepsContexts (w : connectionLogWriter) (queue : List ByteText) : Prop where
  ring : HoldsQueue [] contextCacheSize w.contextRing w.contextNext queue
  once : queue.Nodup
  keys : ∀ id, (w.contexts id).isSome = true ↔ id ∈ queue

theorem keepsContexts_new : KeepsContexts newConnectionLogWriter [] where
  ring := HoldsQueue.start [] (by decide)
  once := List.nodup_nil
  keys := by simp [newConnectionLogWriter]

/-- **A line keeps the cache.** -/
theorem KeepsContexts.observe {w : connectionLogWriter} {queue : List ByteText}
    (h : KeepsContexts w queue) (line : ByteText) :
    KeepsContexts (observeConnectionContext w line).2 (queueStep queue line) ∧
      (observeConnectionContext w line).2.passed = w.passed := by
  cases hid : contextId line with
  | none =>
    have hqueue : queueStep queue line = queue := by simp only [queueStep, hid]
    have hw : observeConnectionContext w line = ({}, w) := by
      simp only [observeConnectionContext, hid]
    rw [hqueue, hw]
    exact ⟨h, rfl⟩
  | some id =>
    have hne := contextId_ne_nil hid
    cases hcontext : w.contexts id with
    | some hint =>
      have hin : id ∈ queue := (h.keys id).mp (by rw [hcontext]; rfl)
      have hqueue : queueStep queue line = queue := by simp only [queueStep, hid, if_pos hin]
      have hw : (observeConnectionContext w line).2 =
          { w with contexts := Function.update w.contexts id (some (readContext line hint)) } := by
        simp only [observeConnectionContext, hid, hcontext]
      rw [hqueue, hw]
      refine ⟨⟨h.ring, h.once, fun other => ?_⟩, rfl⟩
      simp only
      by_cases hother : other = id
      · rw [hother, Function.update_self]
        exact iff_of_true rfl hin
      · rw [Function.update_of_ne hother, h.keys]
    | none =>
      have hnot : id ∉ queue := fun hin => by
        have hsome := (h.keys id).mpr hin
        rw [hcontext] at hsome
        simp at hsome
      have hqueue : queueStep queue line = enqueue contextCacheSize queue id := by
        simp only [queueStep, hid, if_neg hnot]
      have hw : (observeConnectionContext w line).2 =
          { w with
            contexts := Function.update
              (if w.contextRing[w.contextNext]?.getD [] ≠ [] then
                Function.update w.contexts (w.contextRing[w.contextNext]?.getD []) none
              else w.contexts) id (some (readContext line {}))
            contextRing := w.contextRing.set w.contextNext id
            contextNext := (w.contextNext + 1) % contextCacheSize } := by
        simp only [observeConnectionContext, hid, hcontext]
      rw [hqueue, hw]
      refine ⟨⟨h.ring.enqueue hne, nodup_enqueue h.once hnot _, fun other => ?_⟩, rfl⟩
      rw [h.ring.mem_enqueue_iff h.once]
      simp only
      by_cases hother : other = id
      · rw [hother, Function.update_self]
        exact iff_of_true rfl (Or.inl rfl)
      · rw [Function.update_of_ne hother, or_iff_right hother]
        by_cases hevicted : w.contextRing[w.contextNext]?.getD [] = []
        · rw [if_neg (not_not.mpr hevicted), h.keys, hevicted]
          exact ⟨fun hin => ⟨hin, fun hnil => h.ring.nonempty (hnil ▸ hin)⟩, fun hin => hin.1⟩
        · rw [if_pos hevicted]
          by_cases hold : other = w.contextRing[w.contextNext]?.getD []
          · rw [hold, Function.update_self]
            simp
          · rw [Function.update_of_ne hold, h.keys, and_iff_left hold]

/-! ## Runs -/

section Runs

variable (go : GoLibrary)

/-- The writer after some calls; a panic ends the run. -/
def runWrites : connectionLogWriter → List LogCall → Option connectionLogWriter
  | w, [] => some w
  | w, call :: calls =>
    match Write go w call with
    | none => none
    | some (_, w) => runWrites w calls

/-- **The cache**: a map of the entries of the ring, each once and not more than there are places,
with the entries in the order in which they came. -/
structure CacheHolds (w : connectionLogWriter) (lines : List ByteText) : Prop where
  keys : ∀ id, (w.contexts id).isSome = true ↔ id ∈ w.contextRing ∧ id ≠ []
  once : (w.contextRing.filter (· ≠ [])).Nodup
  bounded : (w.contextRing.filter (· ≠ [])).length ≤ contextCacheSize
  order : contextQueue w = lines.foldl queueStep []

theorem KeepsContexts.cacheHolds {w : connectionLogWriter} {lines : List ByteText}
    (h : KeepsContexts w (lines.foldl queueStep [])) : CacheHolds w lines := by
  have hperm : (w.contextRing.filter (· ≠ [])).Perm (lines.foldl queueStep []) := by
    rw [← h.ring.filter_eq]
    exact (rotated_perm _ _).symm.filter _
  exact ⟨fun id => (h.keys id).trans (h.ring.mem_iff id), hperm.nodup_iff.mpr h.once,
    hperm.length_eq.trans_le h.ring.length_le, h.ring.filter_eq⟩

/-- **One call** keeps the cache and passes one text. -/
theorem Write_spec {w w' : connectionLogWriter} {queue : List ByteText} {call : LogCall}
    {result : WriteResult} (h : KeepsContexts w queue)
    (hwrite : Write go w call = some (result, w')) :
    KeepsContexts w' (queueStep queue call.data) ∧
      ∃ text, w'.passed = w.passed ++ [text] ∧
        enrichConnectionLogWithContext go call.data call.resolve
          (observeConnectionContext w call.data).1 = some text := by
  obtain ⟨hkeeps, hpassed⟩ := h.observe call.data
  unfold Write at hwrite
  simp only at hwrite
  split at hwrite
  next => simp at hwrite
  next output houtput =>
    have hw' : w' = { (observeConnectionContext w call.data).2 with
        passed := (observeConnectionContext w call.data).2.passed ++ [output] } := by
      split at hwrite
      next => simp_all
      next =>
        split at hwrite
        next => simp_all
        next => simp_all
    subst hw'
    exact ⟨⟨hkeeps.ring, hkeeps.once, hkeeps.keys⟩, output, by rw [hpassed], houtput⟩

/-- Every call of a run returns and passes the right text for its line, and no other. -/
def RightlyPassed : connectionLogWriter → List LogCall → Prop
  | _, [] => True
  | w, call :: calls =>
    ∃ result w' text, Write go w call = some (result, w') ∧ w'.passed = w.passed ++ [text] ∧
      RightText go call.resolve (observeConnectionContext w call.data).1 call.data text ∧
      RightlyPassed w' calls

/-- In every call of a run the message keeps its place. -/
def AllKeepPlace : connectionLogWriter → List LogCall → Prop
  | _, [] => True
  | w, call :: calls =>
    KeepsPlace go call.resolve (observeConnectionContext w call.data).1 call.data ∧
      ∀ result w', Write go w call = some (result, w') → AllKeepPlace w' calls

/-- A call returns where there is a text to pass. -/
theorem exists_Write {w : connectionLogWriter} {call : LogCall} {text : ByteText}
    (h : enrichConnectionLogWithContext go call.data call.resolve
      (observeConnectionContext w call.data).1 = some text) :
    ∃ result w', Write go w call = some (result, w') := by
  unfold Write
  simp only [h]
  split
  next => exact ⟨_, _, rfl⟩
  next =>
    split
    next => exact ⟨_, _, rfl⟩
    next => exact ⟨_, _, rfl⟩

theorem rightlyPassed_iff {w : connectionLogWriter} {queue : List ByteText}
    (h : KeepsContexts w queue) (calls : List LogCall) :
    RightlyPassed go w calls ↔ AllKeepPlace go w calls := by
  induction calls generalizing w queue with
  | nil => exact Iff.rfl
  | cons call calls ih =>
    have hline := enrich_right_iff go call.data call.resolve
      (observeConnectionContext w call.data).1
    unfold RightlyPassed AllKeepPlace
    rw [← hline]
    constructor
    · rintro ⟨result, w', text, hwrite, hpassed, hright, hrest⟩
      obtain ⟨hkeeps, output, houtput, henrich⟩ := Write_spec go h hwrite
      have htext : output = text := by
        rw [houtput] at hpassed
        simpa using hpassed
      refine ⟨⟨output, henrich, htext ▸ hright⟩, fun result' w'' hwrite' => ?_⟩
      obtain ⟨-, rfl⟩ := Prod.mk.inj (Option.some.inj (hwrite.symm.trans hwrite'))
      exact (ih hkeeps).mp hrest
    · rintro ⟨⟨text, henrich, hright⟩, hall⟩
      obtain ⟨result, w', hwrite⟩ := exists_Write go henrich
      obtain ⟨hkeeps, output, houtput, henrich'⟩ := Write_spec go h hwrite
      obtain rfl := Option.some.inj (henrich.symm.trans henrich')
      exact ⟨result, w', text, hwrite, houtput, hright, (ih hkeeps).mpr (hall result w' hwrite)⟩

theorem runWrites_keeps {w w' : connectionLogWriter} {queue : List ByteText}
    (h : KeepsContexts w queue) {calls : List LogCall} (hrun : runWrites go w calls = some w') :
    KeepsContexts w' ((calls.map (·.data)).foldl queueStep queue) ∧
      w'.passed.length = w.passed.length + calls.length := by
  induction calls generalizing w queue with
  | nil =>
    obtain rfl := Option.some.inj hrun
    exact ⟨h, rfl⟩
  | cons call calls ih =>
    unfold runWrites at hrun
    split at hrun
    next => simp at hrun
    next result next hwrite =>
      obtain ⟨hkeeps, text, hpassed, -⟩ := Write_spec go h hwrite
      obtain ⟨hall, hlength⟩ := ih hkeeps hrun
      refine ⟨hall, ?_⟩
      rw [hlength, hpassed, List.length_append, List.length_singleton, List.length_cons]
      omega

/-- **The log writer.** In a run of writes every call returns and passes the right text exactly
when every message that is replaced keeps its place; and the cache holds after every run, with one
text passed for each call. -/
theorem Write_guaranteed (calls : List LogCall) :
    (RightlyPassed go newConnectionLogWriter calls ↔
      AllKeepPlace go newConnectionLogWriter calls) ∧
    ∀ w, runWrites go newConnectionLogWriter calls = some w →
      CacheHolds w (calls.map (·.data)) ∧ w.passed.length = calls.length := by
  refine ⟨rightlyPassed_iff go keepsContexts_new calls, fun w hrun => ?_⟩
  obtain ⟨hkeeps, hlength⟩ := runWrites_keeps go keepsContexts_new hrun
  refine ⟨hkeeps.cacheHolds, ?_⟩
  rw [hlength]
  exact Nat.zero_add _

end Runs

/-! ## A line with bytes that are no text -/

def asciiLibrary : GoLibrary where
  toLower := Char.toLower
  base path := path
  toLower_ascii _ _ := rfl

def localProcess (endpoints : List ByteText) : trackedProcess where
  source := endpoints.headD []
  name := bytes "app"
  matched := true

/-- A reset of a local client, behind forty bytes that are no UTF-8. -/
def brokenLine : ByteText :=
  List.replicate 40 0xff ++
    bytes "connection upload closed: raw-read tcp 127.0.0.1:1->127.0.0.1:2: wsarecv"

example : (enrichConnectionLogWithContext asciiLibrary
    (bytes "ERROR connection upload closed: raw-read tcp 127.0.0.1:1->127.0.0.1:2: wsarecv\n")
    localProcess {}) =
    some (bytes ("INFO local client closed connection: 127.0.0.1:2 -> 127.0.0.1:1" ++
      " [process: app]\n")) := by decide +kernel

/-- The writer panics on a line that is shorter than what stands before its message in small
letters. -/
theorem broken_line_panics :
    ¬ ∀ (go : GoLibrary) (calls : List LogCall),
      ∃ w, runWrites go newConnectionLogWriter calls = some w := by
  intro h
  obtain ⟨w, hw⟩ := h asciiLibrary [⟨brokenLine, localProcess, fun text => (text.length, false)⟩]
  have hnone : (runWrites asciiLibrary newConnectionLogWriter
      [⟨brokenLine, localProcess, fun text => (text.length, false)⟩]).isSome = false := by
    decide +kernel
  rw [hw] at hnone
  simp at hnone

end Throned.Boxmain
