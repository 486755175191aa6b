import ArmControl.Frame.Reply

/-!
# Frames in a stream

The reliable channel is a stream of bytes, in which the frames of the controller follow each other.
`Frames.cut` takes the complete frames off the front of a stream.  It stops where a frame is not yet
complete, or where the declared size is not that of any reply.

Nothing is lost: the frames and the rest make up the stream (`flatten_cut`).
-/

namespace ArmControl

/-- A stream after its complete frames have been taken off. -/
structure Frames where
  frames : List Bytes
  /-- What follows the frames. -/
  rest : Bytes
  /-- The size that is declared at the front of the rest, if no reply has that size. -/
  wrongSize : Option Nat
deriving DecidableEq, Repr, Inhabited

namespace Frames

/-- Some reply may have this size. -/
def isReplySize (size : Nat) : Bool := Header.length ≤ size && size ≤ Reply.maxSize

theorem length_pos_of_isReplySize {size : Nat} (h : isReplySize size) : 0 < size := by
  simp only [isReplySize, Bool.and_eq_true, decide_eq_true_eq] at h
  exact Nat.lt_of_lt_of_le (by decide) h.1

/-- Takes the complete frames off the front of a stream. -/
def cut (stream : Bytes) : Frames :=
  match Header.declaredSize? stream with
  | none => ⟨[], stream, none⟩
  | some size =>
    if _h : isReplySize size then
      if stream.length < size then ⟨[], stream, none⟩
      else
        let behind := cut (stream.drop size)
        { behind with frames := stream.take size :: behind.frames }
    else ⟨[], stream, some size⟩
termination_by stream.length
decreasing_by
  have := length_pos_of_isReplySize _h
  rw [List.length_drop]
  omega

theorem flatten_cut (stream : Bytes) : (cut stream).frames.flatten ++ (cut stream).rest = stream := by
  fun_induction cut stream with
  | case1 | case2 | case4 => rfl
  | case3 stream size _ _ _ behind ih =>
    simp only [List.flatten_cons, List.append_assoc]
    rw [ih, List.take_append_drop]

end Frames
end ArmControl
