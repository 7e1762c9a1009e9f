namespace QueueScript.Text

def isDigit (c : Char) : Bool := '0' ≤ c && c ≤ '9'

def decimal (n : Nat) : List Char := Nat.toDigits 10 n

def digitsValue (s : List Char) : Nat := Nat.ofDigitChars 10 s 0

def countLimit : Nat := 4294967296 -- 2 ^ 32

def count? (s : List Char) : Option UInt32 :=
  let digits := match s with
    | '+' :: r => r
    | _ => s
  if digits ≠ [] ∧ digits.all isDigit = true ∧ digitsValue digits < countLimit then
    some (UInt32.ofNat (digitsValue digits))
  else none

end QueueScript.Text
