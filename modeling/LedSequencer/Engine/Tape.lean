import LedSequencer.Engine.Instruction

/-! What an engine can play: mux tables, and the program that walks through them. -/
namespace LedSequencer

/-- The mux tables that can be played: a green and blue chase while booting, blinking reds after an
error. -/
inductive Tape where
  | boot
  | error
  deriving DecidableEq

namespace Tape

-- Where the engine finds the mux table.
def location : UInt8 := 0x10

def rowCount : UInt8 := 6

/-- The LEDs that light up together in each row of a tape. -/
def rows : Tape → List (List UInt16)
  | boot => [[1], [5], [7], [2], [4], [8]]
  | error => List.replicate rowCount.toNat [0, 3, 6]

def mask (leds : List UInt16) : UInt16 :=
  leds.foldl (fun word led => word ||| ((1 : UInt16) <<< led)) 0

def ledMux (tape : Tape) : List UInt8 :=
  Page.fill (tape.rows.flatMap fun leds => bigEndian (mask leds))

def index : Tape → Nat
  | boot => 0
  | error => 1

def all : List Tape := [boot, error]

theorem all_index (tape : Tape) : all[tape.index]? = some tape := by cases tape <;> rfl

theorem all_of_lt {index : Nat} (h : index < 2) :
    all[index]? = some (if index = 0 then boot else error) := by
  obtain rfl | rfl : index = 0 ∨ index = 1 := by omega
  · rfl
  · rfl

theorem all_of_le {index : Nat} (h : 2 ≤ index) : all[index]? = none :=
  List.getElem?_eq_none h

/-- Walks through the rows for ever: each row's LEDs are on for about half a second. -/
def player : List Instruction :=
  [.mapStart location, .loadEnd (location + rowCount - 1), .setPwm 0xFF, .wait true 31, .setPwm 0,
    .mapNext, .branch 0 2]

def playerCode : List UInt8 := Page.fill (Instruction.assemble player)

/-- The bytes of the pages, each page filled up with zeros. -/
theorem pages_eq :
    playerCode = [0x9C, 0x10, 0x9C, 0x95, 0x40, 0xFF, 0x7E, 0x00, 0x40, 0x00, 0x9D, 0x80, 0xA0,
        0x02] ++ List.replicate 18 0 ∧
      boot.ledMux = [0x00, 0x02, 0x00, 0x20, 0x00, 0x80, 0x00, 0x04, 0x00, 0x10, 0x01, 0x00] ++
        List.replicate 20 0 ∧
      error.ledMux = [0x00, 0x49, 0x00, 0x49, 0x00, 0x49, 0x00, 0x49, 0x00, 0x49, 0x00, 0x49] ++
        List.replicate 20 0 :=
  ⟨rfl, rfl, rfl⟩

theorem length_ledMux (tape : Tape) : tape.ledMux.length = Page.size := by
  cases tape <;> exact Page.length_fill (by decide)

theorem length_playerCode : playerCode.length = Page.size := by
  refine Page.length_fill ?_
  rw [Instruction.length_assemble]
  decide

end Tape

end LedSequencer
