import QueueScript.Json.Basic
import QueueScript.Decimal.Text

namespace QueueScript.Json

structure Style where
  gap : Nat → List Char
  colon : List Char

def Style.compact : Style := ⟨fun _ => [], [':']⟩

def Style.indented : Style := ⟨fun depth => '\n' :: List.replicate (2 * depth) ' ', [':', ' ']⟩

def escapeChar (c : Char) : List Char :=
  if c = '"' then ['\\', '"']
  else if c = '\\' then ['\\', '\\']
  else if 0x20 ≤ c.toNat then [c]
  else if c.toNat = 0x08 then ['\\', 'b']
  else if c = '\t' then ['\\', 't']
  else if c = '\n' then ['\\', 'n']
  else if c.toNat = 0x0C then ['\\', 'f']
  else if c = '\r' then ['\\', 'r']
  else ['\\', 'u', '0', '0', Nat.digitChar (c.toNat / 16), Nat.digitChar (c.toNat % 16)]

def writeString (s : List Char) : List Char := '"' :: s.flatMap escapeChar ++ ['"']

def Number.write : Number → List Char
  | .whole (.ofNat n) => Nat.toDigits 10 n
  | .whole (.negSucc n) => '-' :: Nat.toDigits 10 (n + 1)
  | .float x => Decimal.floatText x

mutual

def write (style : Style) (depth : Nat) : Json → List Char
  | .null => ['n', 'u', 'l', 'l']
  | .bool true => ['t', 'r', 'u', 'e']
  | .bool false => ['f', 'a', 'l', 's', 'e']
  | .number n => n.write
  | .string s => writeString s.toList
  | .array [] => ['[', ']']
  | .array (v :: vs) =>
      '[' :: style.gap (depth + 1) ++ write style (depth + 1) v ++ writeItems style depth vs
  | .object [] => ['{', '}']
  | .object ((k, v) :: ms) =>
      '{' :: style.gap (depth + 1) ++ writeString k.toList ++ style.colon ++
        write style (depth + 1) v ++ writeMembers style depth ms

def writeItems (style : Style) (depth : Nat) : List Json → List Char
  | [] => style.gap depth ++ [']']
  | v :: vs =>
      ',' :: style.gap (depth + 1) ++ write style (depth + 1) v ++ writeItems style depth vs

def writeMembers (style : Style) (depth : Nat) : List (String × Json) → List Char
  | [] => style.gap depth ++ ['}']
  | (k, v) :: ms =>
      ',' :: style.gap (depth + 1) ++ writeString k.toList ++ style.colon ++
        write style (depth + 1) v ++ writeMembers style depth ms

end

def compact (v : Json) : String := String.ofList (v.write .compact 0)

def indented (v : Json) : String := String.ofList (v.write .indented 0)

end QueueScript.Json
