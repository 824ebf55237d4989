import StepRunner.Connection.Frame
import StepRunner.Proofs.Bytes.Varint

namespace StepRunner

namespace Frame

/-- A payload that is not empty, after a prefix that states its length. -/
structure Whole where
  lengthPrefix : Bytes
  payload : Bytes
  states_length : Varint.decode lengthPrefix = some (payload.length, lengthPrefix.length)
  nonempty : payload ≠ []

namespace Whole

def bytes (frame : Whole) : Bytes := frame.lengthPrefix ++ frame.payload

/-- The frame that a payload is written as. -/
def ofPayload (payload : Bytes) (hne : payload ≠ []) (hlt : payload.length < UInt64.size) : Whole :=
  ⟨Varint.encode payload.length, payload,
    by simpa using Varint.decode_encode payload.length [] hlt, hne⟩

theorem bytes_ne_nil (frame : Whole) : frame.bytes ≠ [] := by
  intro h
  exact frame.nonempty (List.append_eq_nil_iff.mp h).2

/-- The first frame of bytes is the only one. -/
theorem eq_of_append_eq {frame other : Whole} {rest others : Bytes}
    (h : frame.bytes ++ rest = other.bytes ++ others) : frame = other ∧ rest = others := by
  obtain ⟨lengthPrefix, payload, hlength, hne⟩ := frame
  obtain ⟨lengthPrefix', payload', hlength', hne'⟩ := other
  simp only [bytes, List.append_assoc] at h
  have hread := Varint.readUpTo_append hlength (payload ++ rest)
  have hread' := Varint.readUpTo_append hlength' (payload' ++ others)
  rw [h, hread', Option.some.injEq, Prod.mk.injEq] at hread
  obtain ⟨hpayload, htaken⟩ := hread
  obtain ⟨rfl, hrest⟩ := List.append_inj h htaken.symm
  obtain ⟨rfl, hothers⟩ := List.append_inj hrest hpayload.symm
  exact ⟨rfl, hothers⟩

/-- **Bytes are a row of frames in at most one way.** -/
theorem eq_of_flatMap_eq {frames others : List Whole}
    (h : frames.flatMap bytes = others.flatMap bytes) : frames = others := by
  induction frames generalizing others with
  | nil =>
    cases others with
    | nil => rfl
    | cons other others =>
      have hnil : other.bytes ++ others.flatMap bytes = [] := h.symm
      exact absurd (List.append_eq_nil_iff.mp hnil).1 other.bytes_ne_nil
  | cons frame frames ih =>
    cases others with
    | nil => exact absurd (List.append_eq_nil_iff.mp h).1 frame.bytes_ne_nil
    | cons other others =>
      obtain ⟨rfl, hrest⟩ := eq_of_append_eq h
      rw [ih hrest]

end Whole

end Frame

end StepRunner
