import SqlBatch.Text.Basic
/-!
# Decimal numerals

Numbers are written without leading zeros and read up to the largest unsigned 64-bit integer.
-/

namespace SqlBatch.Text

def maxWord : Nat := UInt64.size - 1

def decimal (n : Nat) : Text := Nat.toDigits 10 n

/-- The number that ASCII digits write; leading zeros are allowed. -/
def numeralValue (digits : Text) : Nat :=
  digits.foldl (fun n c => 10 * n + (c.toNat - '0'.toNat)) 0

/-- Reads a numeral of ASCII digits whose value fits in sixty-four bits. -/
def readWord? (digits : Text) : Option Nat :=
  if !digits.isEmpty && digits.all Char.isDigit && numeralValue digits ≤ maxWord then
    some (numeralValue digits)
  else none

def padStart (width : Nat) (text : Text) : Text :=
  List.replicate (width - text.length) ' ' ++ text

end SqlBatch.Text
