import QueueScript.Json.Fault
import QueueScript.Text.Numeral
/-!
Reading numbers. Digits are absorbed into a 64-bit significand for as long as they fit. A number
with a point, an exponent or too many digits becomes a float by one scaling of the significand with
a power of ten, so its last bits may differ from the nearest float.
-/

namespace QueueScript.Json

open Text (isDigit)

def digitValue (c : Char) : Nat := c.toNat - '0'.toNat

def absorb (limit : Nat) : Nat → List Char → Nat × List Char
  | n, [] => (n, [])
  | n, c :: cs =>
      if 10 * n + digitValue c < limit then absorb limit (10 * n + digitValue c) cs
      else (n, c :: cs)

def significandLimit : Nat := 18446744073709551616 -- 2 ^ 64

def exponentLimit : Nat := 2147483648 -- 2 ^ 31

def negativeLimit : Nat := 9223372036854775808 -- 2 ^ 63

def powerOfTen (n : Nat) : Float := Float.ofScientific 1 false n

/-- The float `x * 10 ^ e`, by one multiplication or division with a power up to `10 ^ 308`; smaller
exponents are worked off in steps of `308`. There is no result beyond the largest float. -/
def scale (x : Float) (e : Int) : Option Float :=
  if e.natAbs ≤ 308 then
    if 0 ≤ e then
      let y := x * powerOfTen e.natAbs
      if y.isInf then none else some y
    else some (x / powerOfTen e.natAbs)
  else if x == 0 then some x
  else if 0 ≤ e then none
  else scale (x / powerOfTen 308) (e + 308)
termination_by e.natAbs
decreasing_by omega

def Number.ofWhole (negative : Bool) (n : Nat) : Number :=
  if negative then
    if 1 ≤ n ∧ n ≤ negativeLimit then .whole (-n) else .float (-(Float.ofNat n))
  else .whole n

def Number.ofFloat (negative : Bool) (x : Float) : Number := .float (if negative then -x else x)

def readScaled (negative : Bool) (n : Nat) (e : Int) : Reader Number := fun rest =>
  match scale (Float.ofNat n) e with
  | some x => .ok (.ofFloat negative x, rest)
  | none => .error (.before .numberRange rest)

def readExponent (negative : Bool) (n : Nat) (e : Int) : Reader Number := fun s =>
  let (down, s) : Bool × List Char := match s with
    | '+' :: r => (false, r)
    | '-' :: r => (true, r)
    | _ => (false, s)
  match s with
  | [] => .error (.before .endInValue [])
  | c :: r =>
      if isDigit c then
        let rest := (c :: r).dropWhile isDigit
        match absorb exponentLimit 0 ((c :: r).takeWhile isDigit) with
        | (x, []) => readScaled negative n (if down then e - x else e + x) rest
        | (_, _ :: excess) =>
            if n ≠ 0 ∧ !down then .error (.before .numberRange (excess ++ rest))
            else .ok (.ofFloat negative 0, rest)
      else .error (.at .badNumber (c :: r))

def readFraction (negative : Bool) (n : Nat) (e : Int) : Reader Number := fun s =>
  let digits := s.takeWhile isDigit
  let rest := s.dropWhile isDigit
  match digits, rest with
  | [], [] => .error (.at .endInValue [])
  | [], c :: r => .error (.at .badNumber (c :: r))
  | _ :: _, _ =>
      let (n', excess) := absorb significandLimit n digits
      let e' : Int := e - ((digits.length - excess.length : Nat) : Int)
      match rest with
      | 'e' :: r => readExponent negative n' e' r
      | 'E' :: r => readExponent negative n' e' r
      | _ => readScaled negative n' e' rest

/-- A number after its sign. A leading zero stands alone; digits before the point that no longer
fit are dropped and count as powers of ten. -/
def readNumber (negative : Bool) : Reader Number
  | [] => .error (.before .endInValue [])
  | c :: r =>
      if !isDigit c then .error (.at .badNumber (c :: r))
      else if c = '0' ∧ (r.head?.any isDigit) = true then .error (.at .badNumber r)
      else
        let (n, excess) := absorb significandLimit 0 ((c :: r).takeWhile isDigit)
        match (c :: r).dropWhile isDigit with
        | '.' :: s => readFraction negative n excess.length s
        | 'e' :: s => readExponent negative n excess.length s
        | 'E' :: s => readExponent negative n excess.length s
        | s =>
            if excess.isEmpty then .ok (.ofWhole negative n, s)
            else readScaled negative n excess.length s

end QueueScript.Json
