import Mathlib.Data.List.Basic
import Throned.Model.RpcChannel

/-!
# Frames of the channel

A response below the limit of `int` is cut from the stream whatever bytes follow it, and what
the core writes is cut into the responses it has written.
-/

set_option autoImplicit false

namespace Throned.API

open Throned.Library

/-- The payload is short enough for the cast. -/
def Fits (frame : Response) : Prop := frame.data.length < intLimit

theorem settled_responses : responses.Settled Fits := by
  intro buf frame rest h hfits more
  change nextResponse buf = some (frame, rest) at h
  change nextResponse (buf ++ more) = some (frame, rest ++ more)
  unfold nextResponse at h
  split at h
  · rename_i i0 i1 i2 i3 status l0 l1 l2 l3 tail
    simp only at h
    split at h
    · cases h
    · rename_i hlen
      have hlen : u32 l0 l1 l2 l3 ≤ tail.length := not_lt.mp hlen
      have hframe := congrArg Prod.fst (Option.some.inj h)
      have hrest := congrArg Prod.snd (Option.some.inj h)
      simp only at hframe hrest
      have hsmall : u32 l0 l1 l2 l3 < intLimit := by
        by_contra hbig
        rw [if_neg hbig] at hframe
        unfold Fits at hfits
        rw [← hframe] at hfits
        exact hbig (lt_of_le_of_lt hlen hfits)
      rw [if_pos hsmall] at hframe
      have hlong : ¬ (tail ++ more).length < u32 l0 l1 l2 l3 := by
        rw [List.length_append]
        omega
      simp only [List.cons_append, nextResponse]
      rw [if_neg hlong, if_pos hsmall, List.take_append_of_le_length hlen,
        List.drop_append_of_le_length hlen, hframe, hrest]
  · cases h

/-! ## What the core writes -/

theorem u32_putU32 {n : ℕ} (h : n < 2 ^ 32) :
    u32 (.ofNat n) (.ofNat (n / 256)) (.ofNat (n / 65536)) (.ofNat (n / 16777216)) = n := by
  unfold u32
  rw [UInt8.toNat_ofNat', UInt8.toNat_ofNat', UInt8.toNat_ofNat', UInt8.toNat_ofNat']
  omega

theorem nextResponse_writeResponse {frame : Response} (hid : frame.reqId < 2 ^ 32)
    (hfits : Fits frame) (more : List UInt8) :
    nextResponse (writeResponse frame ++ more) = some (frame, more) := by
  have hlen : frame.data.length < 2 ^ 32 := lt_trans hfits (by decide)
  unfold Fits at hfits
  unfold writeResponse putU32
  simp only [List.cons_append, List.nil_append, nextResponse]
  rw [u32_putU32 hid, u32_putU32 hlen, if_neg (by simp), if_pos hfits, List.take_left,
    List.drop_left]

/-- **The responses of the core come out as they went in.** -/
theorem drain_writeResponses {frames : List Response}
    (h : ∀ frame ∈ frames, frame.reqId < 2 ^ 32 ∧ Fits frame) :
    responses.drain (frames.flatMap writeResponse) = (frames, []) := by
  induction frames with
  | nil => exact responses.drain_none (responses.next_nil)
  | cons frame frames ih =>
    obtain ⟨hid, hfits⟩ := h frame List.mem_cons_self
    have hnext : responses.next (writeResponse frame ++ frames.flatMap writeResponse) =
        some (frame, frames.flatMap writeResponse) := nextResponse_writeResponse hid hfits _
    rw [List.flatMap_cons, responses.drain_some hnext,
      ih fun other hother => h other (List.mem_cons_of_mem _ hother)]

end Throned.API
