/-!
Shortest decimals: the fewest digits that single out a binary floating-point number, and among
those the digits nearest to it.

A positive number is `m * 2 ^ q`. The reals nearest to it lie between the midpoints to its two
neighbours, the midpoints included when `m` is even. On the decimal grid with `n` digits only the
number's two neighbouring grid points can lie in that interval, so the first grid with a hit gives
the fewest digits.
-/

namespace QueueScript.Decimal

structure Binary where
  negative : Bool
  m : Nat
  q : Int

def leastNormal : Nat := 4503599627370496 -- 2 ^ 52

def Binary.ofBits (bits : UInt64) : Binary :=
  let fraction := bits.toNat % leastNormal
  let exponent := bits.toNat / leastNormal % 2048
  let negative := decide (2048 * leastNormal ≤ bits.toNat)
  if exponent = 0 then ⟨negative, fraction, -1074⟩
  else ⟨negative, leastNormal + fraction, (exponent : Int) - 1075⟩

structure Digits where
  digits : List Nat
  first : Int
  deriving DecidableEq, Repr

/-- The exponent `e` with `10 ^ e ≤ num / den < 10 ^ (e + 1)`, for a positive fraction. -/
def leadingExponent (num den : Nat) : Int :=
  if den ≤ num then ((Nat.toDigits 10 (num / den)).length : Int) - 1
  else -((Nat.toDigits 10 ((den - 1) / num)).length : Int)

structure Interval where
  low : Nat
  value : Nat
  high : Nat
  den : Nat
  closed : Bool

/-- The interval of `m * 2 ^ q`: the gap below a power of two is half the gap above it, unless the
exponent is already the least one. -/
def Binary.interval (b : Binary) : Interval :=
  let below := if b.m = leastNormal ∧ -1074 < b.q then 1 else 2
  let scale := Nat.pow 2 (b.q - 2).toNat
  ⟨(4 * b.m - below) * scale, 4 * b.m * scale, (4 * b.m + 2) * scale, Nat.pow 2 (2 - b.q).toNat,
    b.m % 2 == 0⟩

def Interval.contains (i : Interval) (num den : Nat) : Bool :=
  let x := num * i.den
  if i.closed then decide (i.low * den ≤ x) && decide (x ≤ i.high * den)
  else decide (i.low * den < x) && decide (x < i.high * den)

/-- The point of the grid of step `10 ^ e` that stands for the interval: the one grid neighbour of
its value that lies in it, of two the nearer, of two equally near the even one. -/
def Interval.gridPoint? (i : Interval) (e : Int) : Option Nat :=
  let up := Nat.pow 10 e.toNat
  let down := Nat.pow 10 (-e).toNat
  let num := i.value * down
  let den := i.den * up
  let k := num / den
  let hit := fun k => i.contains (k * up) down
  match hit k, hit (k + 1) with
  | true, true =>
      let twice := 2 * (num % den)
      if twice < den ∨ (twice = den ∧ k % 2 = 0) then some k else some (k + 1)
  | true, false => some k
  | false, true => some (k + 1)
  | false, false => none

def Digits.ofGrid (k : Nat) (e : Int) : Digits :=
  let ds := (Nat.toDigits 10 k).map (fun c => c.toNat - '0'.toNat)
  let kept := (ds.reverse.dropWhile (fun d => d == 0)).reverse
  ⟨kept, e + (ds.length : Int) - 1⟩

def Interval.search (i : Interval) (first : Int) (tried : Nat) : Nat → Digits
  | 0 => .ofGrid (i.value / i.den) 0
  | left + 1 =>
      match i.gridPoint? (first - tried) with
      | some k => .ofGrid k (first - tried)
      | none => i.search first (tried + 1) left

def Binary.shortest (b : Binary) : Digits :=
  let i := b.interval
  i.search (leadingExponent i.value i.den) 0 17

end QueueScript.Decimal
