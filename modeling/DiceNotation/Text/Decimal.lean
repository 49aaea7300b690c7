/-!
# Decimal digits of every script

Commands may spell numbers with the decimal digits of any script, such as
the Arabic-Indic `٣` or the full-width `３`.  Unicode 14.0 groups every such
digit into a run of ten consecutive code points that starts with the digit
zero, so the table below lists only the zeros.
-/

namespace DiceNotation.Text

/-- The code points of the digit zero of each decimal digit run of Unicode 14.0. -/
def decimalZeros : List Nat :=
  [0x30, 0x660, 0x6f0, 0x7c0, 0x966, 0x9e6, 0xa66, 0xae6, 0xb66, 0xbe6, 0xc66, 0xce6,
   0xd66, 0xde6, 0xe50, 0xed0, 0xf20, 0x1040, 0x1090, 0x17e0, 0x1810, 0x1946, 0x19d0,
   0x1a80, 0x1a90, 0x1b50, 0x1bb0, 0x1c40, 0x1c50, 0xa620, 0xa8d0, 0xa900, 0xa9d0,
   0xa9f0, 0xaa50, 0xabf0, 0xff10, 0x104a0, 0x10d30, 0x11066, 0x110f0, 0x11136,
   0x111d0, 0x112f0, 0x11450, 0x114d0, 0x11650, 0x116c0, 0x11730, 0x118e0, 0x11950,
   0x11c50, 0x11d50, 0x11da0, 0x16a60, 0x16ac0, 0x16b50, 0x1d7ce, 0x1d7d8, 0x1d7e2,
   0x1d7ec, 0x1d7f6, 0x1e140, 0x1e2f0, 0x1e950, 0x1fbf0]

/-- The value of a decimal digit of any script: its distance from the zero of its run. -/
def decimalValue? (c : Char) : Option Nat :=
  decimalZeros.findSome? fun base =>
    if base ≤ c.toNat ∧ c.toNat < base + 10 then some (c.toNat - base) else none

/-- Whether a character is a decimal digit of some script. -/
def isDecimal (c : Char) : Bool :=
  (decimalValue? c).isSome

/-- The ASCII digit with the same value as a decimal digit of any script. -/
def asciiDigit (c : Char) : Char :=
  match decimalValue? c with
  | some d => Char.ofNat (0x30 + d)
  | none => c

theorem decimalValue?_lt {c : Char} {d : Nat} (h : decimalValue? c = some d) : d < 10 := by
  unfold decimalValue? at h
  obtain ⟨base, -, hz⟩ := List.exists_of_findSome?_eq_some h
  split at hz
  · cases hz; omega
  · cases hz

example : decimalValue? '7' = some 7 ∧ decimalValue? '٣' = some 3 ∧ decimalValue? 'x' = none := by
  decide

end DiceNotation.Text
