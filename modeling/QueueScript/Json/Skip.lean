import QueueScript.Json.Reader
/-!
Passing over values that nobody asks for. The form is checked as far as it takes to find the end of
the value: nesting has no limit, numbers have no range and escaped surrogates need no partner.
-/

namespace QueueScript.Json

open Text (isDigit)

def skipExponent (s : List Char) : Except Fault (List Char) :=
  let s := match s with
    | '+' :: r => r
    | '-' :: r => r
    | _ => s
  if s.head?.any isDigit then .ok (s.dropWhile isDigit) else .error (.at .badNumber s)

def skipTail : List Char → Except Fault (List Char)
  | '.' :: r =>
      if r.head?.any isDigit then
        match r.dropWhile isDigit with
        | 'e' :: t => skipExponent t
        | 'E' :: t => skipExponent t
        | t => .ok t
      else .error (.at .badNumber r)
  | 'e' :: r => skipExponent r
  | 'E' :: r => skipExponent r
  | s => .ok s

def skipNumber : List Char → Except Fault (List Char)
  | [] => .error (.at .badNumber [])
  | c :: r =>
      if !isDigit c then .error (.at .badNumber (c :: r))
      else if c = '0' then
        if r.head?.any isDigit then .error (.at .badNumber r) else skipTail r
      else skipTail (r.dropWhile isDigit)

def skipString : List Char → Except Fault (List Char)
  | [] => .error (.before .endInString [])
  | '"' :: s => .ok s
  | '\\' :: [] => .error (.before .endInString [])
  | '\\' :: 'u' :: s =>
      match s with
      | a :: b :: c :: d :: r =>
          match hex4? a b c d with
          | none => .error (brokenHex s)
          | some _ => skipString r
      | _ => .error (brokenHex s)
  | '\\' :: c :: s =>
      match escaped? c with
      | none => .error (.at .badEscape (c :: s))
      | some _ => skipString s
  | c :: s =>
      if c.toNat < 0x20 then .error (.before .controlCharacter (c :: s)) else skipString s

def skipItems (skip : List Char → Except Fault (List Char)) :
    Nat → Bool → List Char → Except Fault (List Char)
  | 0, _, s => .error (.before .endInList s)
  | bound + 1, first, s =>
      match skipSpace s with
      | [] => .error (.at .endInList [])
      | ']' :: r => .ok r
      | c :: r =>
          if first then do
            skipItems skip bound false (← skip (c :: r))
          else if c = ',' then do
            skipItems skip bound false (← skip r)
          else .error (.at .expectedListEnd (c :: r))

def skipKey (s : List Char) : Except Fault (List Char) :=
  match skipSpace s with
  | [] => .error (.at .endInObject [])
  | '"' :: r => do colon (← skipString r)
  | c :: r => .error (.at .keyNotString (c :: r))

def skipMembers (skip : List Char → Except Fault (List Char)) :
    Nat → Bool → List Char → Except Fault (List Char)
  | 0, _, s => .error (.before .endInObject s)
  | bound + 1, first, s =>
      match skipSpace s with
      | [] => .error (.at .endInObject [])
      | '}' :: r => .ok r
      | c :: r =>
          if first then do
            skipMembers skip bound false (← skip (← skipKey (c :: r)))
          else if c = ',' then do
            skipMembers skip bound false (← skip (← skipKey r))
          else .error (.at .expectedObjectEnd (c :: r))

/-- One value. Each container takes a character, so a bound above the length of the text is never
reached. -/
def skipWithin : Nat → List Char → Except Fault (List Char)
  | 0, s => .error (.at .endInValue s)
  | bound + 1, s =>
      match skipSpace s with
      | [] => .error (.at .endInValue [])
      | 'n' :: r => do return (← readLiteral () ['u', 'l', 'l'] r).2
      | 't' :: r => do return (← readLiteral () ['r', 'u', 'e'] r).2
      | 'f' :: r => do return (← readLiteral () ['a', 'l', 's', 'e'] r).2
      | '"' :: r => skipString r
      | '-' :: r => skipNumber r
      | '[' :: r => skipItems (skipWithin bound) (r.length + 1) true r
      | '{' :: r => skipMembers (skipWithin bound) (r.length + 1) true r
      | c :: r =>
          if isDigit c then skipNumber (c :: r) else .error (.at .expectedValue (c :: r))

def skipValue (s : List Char) : Except Fault (List Char) := skipWithin (s.length + 1) s

end QueueScript.Json
