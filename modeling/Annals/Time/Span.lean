import Annals.Text.Numeral

/-!
# Spans of time

A span is a natural number of nanoseconds, and so is a moment on the clock of a running kernel: the
span since the clock began. The text of a span names the largest unit that gives a whole part, with
as many decimals as it takes to be exact.
-/

namespace Annals.Span

def millis (n : Nat) : Nat :=
  n * 1000000

def seconds (n : Nat) : Nat :=
  n * 1000000000

/-- The decimals of `rest` parts of a unit that has `10 ^ width` of them, without the trailing
zeros, and with a point in front unless none are left. -/
def decimals (width rest : Nat) : List Char :=
  match ((digitsOfWidth width rest).reverse.dropWhile (· = '0')).reverse with
  | [] => []
  | shown => '.' :: shown

def text (nanos : Nat) : String :=
  let (unit, width, name) :=
    if 1000000000 ≤ nanos then (1000000000, 9, "s")
    else if 1000000 ≤ nanos then (1000000, 6, "ms")
    else if 1000 ≤ nanos then (1000, 3, "µs")
    else (1, 0, "ns")
  String.ofList (digits (nanos / unit) ++ decimals width (nanos % unit)) ++ name

end Annals.Span
