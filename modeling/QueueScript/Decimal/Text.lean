import QueueScript.Decimal.Shortest

namespace QueueScript.Decimal

def digitChars (ds : List Nat) : List Char := ds.map Nat.digitChar

def Digits.plain (d : Digits) : List Char :=
  if d.first < 0 then
    '0' :: '.' :: List.replicate (-d.first - 1).toNat '0' ++ digitChars d.digits
  else
    let whole := d.first.toNat + 1
    let after := digitChars (d.digits.drop whole)
    digitChars (d.digits.take whole) ++ List.replicate (whole - d.digits.length) '0' ++ '.' ::
      (if after.isEmpty then ['0'] else after)

def Digits.scientific (d : Digits) : List Char :=
  let mantissa := match digitChars d.digits with
    | [] => []
    | [c] => [c]
    | c :: cs => c :: '.' :: cs
  mantissa ++ 'e' :: (if d.first < 0 then '-' else '+') :: Nat.toDigits 10 d.first.natAbs

def Digits.text (d : Digits) : List Char :=
  if -5 ≤ d.first ∧ d.first ≤ 15 then d.plain else d.scientific

def Binary.text (b : Binary) : List Char :=
  let body := if b.m = 0 then ['0', '.', '0'] else b.shortest.text
  if b.negative then '-' :: body else body

def floatText (x : Float) : List Char := (Binary.ofBits x.toBits).text

end QueueScript.Decimal
