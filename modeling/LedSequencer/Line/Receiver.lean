import LedSequencer.Line.Waveform

/-! A receiver on a two-wire bus, which knows nothing but the edges. -/
namespace LedSequencer

/-- What a receiver took in from a start condition on: the data bits in the order of their clock
pulses, and whether a stop condition ended them. -/
structure Frame where
  bits : List Bool
  closed : Bool
  deriving DecidableEq

namespace Frame

/-- A number from its bits, the most significant first. -/
def byteOfBits (bits : List Bool) : UInt8 :=
  bits.foldl (fun n bit => 2 * n + (if bit then 1 else 0)) 0

/-- The complete bytes among some bits. A byte takes nine clock pulses, the last one carries the
acknowledge bit. -/
def bytesOf : List Bool → List UInt8
  | a :: b :: c :: d :: e :: f :: g :: h :: _ :: bits =>
    byteOfBits [a, b, c, d, e, f, g, h] :: bytesOf bits
  | _ => []

def bytes (frame : Frame) : List UInt8 := bytesOf frame.bits

end Frame

/-- How a receiver's frames, the latest first, go on with an edge. -/
def receive (frames : List Frame) (edge : Edge) : List Frame :=
  match edge, frames with
  | .start, _ => ⟨[], false⟩ :: frames
  | .stop, ⟨bits, false⟩ :: earlier => ⟨bits, true⟩ :: earlier
  | .clockRise bit, ⟨bits, false⟩ :: earlier => ⟨bits ++ [bit], false⟩ :: earlier
  -- Outside an open frame clock pulses and stop conditions mean nothing.
  | _, _ => frames

/-- The frames of a waveform, in the order of their start conditions. -/
def framesOf (edges : List Edge) : List Frame := (edges.foldl receive []).reverse

end LedSequencer
