/-! Pages of program memory. -/
namespace LedSequencer

inductive Page where
  | program
  | ledMux
  deriving DecidableEq

namespace Page

def size : Nat := 32

def selector : Page → UInt8
  | program => 0
  | ledMux => 1

def fill (bytes : List UInt8) : List UInt8 := bytes.rightpad size 0

theorem length_fill {bytes : List UInt8} (h : bytes.length ≤ size) :
    (fill bytes).length = size := by
  simp [fill, List.rightpad, h]

end Page

def bigEndian (word : UInt16) : List UInt8 := [(word >>> 8).toUInt8, word.toUInt8]

end LedSequencer
