/-! Numbers in hexadecimal. -/
namespace LedSequencer

/-- A number in lower case hexadecimal after its mark, with no leading zeros; zero is one digit. -/
def hex (n : Nat) : String := "0x" ++ String.ofList (Nat.toDigits 16 n)

def hexWord (n : Nat) : String :=
  "0x" ++ String.ofList ((Nat.toDigits 16 n).leftpad 8 '0')

end LedSequencer
