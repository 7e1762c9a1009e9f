import QueueScript.Json.Number
import QueueScript.Table

namespace QueueScript.Json

def isSpace (c : Char) : Bool := c = ' ' || c = '\n' || c = '\t' || c = '\r'

def skipSpace (s : List Char) : List Char := s.dropWhile isSpace

def readLiteral (a : α) : List Char → Reader α
  | [], s => .ok (a, s)
  | _ :: _, [] => .error (.before .endInValue [])
  | x :: xs, c :: s =>
      if c = x then readLiteral a xs s else .error (.at .expectedLiteral (c :: s))

def hexDigit? (c : Char) : Option Nat :=
  if '0' ≤ c ∧ c ≤ '9' then some (c.toNat - '0'.toNat)
  else if 'a' ≤ c ∧ c ≤ 'f' then some (c.toNat - 'a'.toNat + 10)
  else if 'A' ≤ c ∧ c ≤ 'F' then some (c.toNat - 'A'.toNat + 10)
  else none

def hex4? (a b c d : Char) : Option Nat := do
  return (((← hexDigit? a) * 16 + (← hexDigit? b)) * 16 + (← hexDigit? c)) * 16 + (← hexDigit? d)

def escaped? (c : Char) : Option Char :=
  if c = '"' ∨ c = '\\' ∨ c = '/' then some c
  else if c = 'b' then some (Char.ofNat 0x08)
  else if c = 'f' then some (Char.ofNat 0x0C)
  else if c = 'n' then some '\n'
  else if c = 'r' then some '\r'
  else if c = 't' then some '\t'
  else none

def isHighSurrogate (n : Nat) : Bool := 0xD800 ≤ n && n ≤ 0xDBFF

def isLowSurrogate (n : Nat) : Bool := 0xDC00 ≤ n && n ≤ 0xDFFF

def surrogatePair (high low : Nat) : Char :=
  Char.ofNat (0x10000 + (high - 0xD800) * 0x400 + (low - 0xDC00))

def brokenHex (s : List Char) : Fault :=
  if byteLength s < 4 then .before .endInString [] else .into 4 .badEscape s

def readString : Reader (List Char)
  | [] => .error (.before .endInString [])
  | '"' :: s => .ok ([], s)
  | '\\' :: [] => .error (.before .endInString [])
  | '\\' :: 'u' :: s =>
      match s with
      | a :: b :: c :: d :: r =>
          match hex4? a b c d with
          | none => .error (brokenHex s)
          | some n =>
              if isLowSurrogate n then .error (.before .unpairedSurrogate r)
              else if isHighSurrogate n then
                match r with
                | [] => .error (.before .endInString [])
                | '\\' :: [] => .error (.before .endInString [])
                | '\\' :: 'u' :: t =>
                    match t with
                    | a :: b :: c :: d :: q =>
                        match hex4? a b c d with
                        | none => .error (brokenHex t)
                        | some m =>
                            if isLowSurrogate m then do
                              let (cs, rest) ← readString q
                              return (surrogatePair n m :: cs, rest)
                            else .error (.before .unpairedSurrogate q)
                    | _ => .error (brokenHex t)
                | '\\' :: c :: t => .error (.at .brokenPair (c :: t))
                | c :: t => .error (.at .brokenPair (c :: t))
              else do
                let (cs, rest) ← readString r
                return (Char.ofNat n :: cs, rest)
      | _ => .error (brokenHex s)
  | '\\' :: c :: s =>
      match escaped? c with
      | none => .error (.at .badEscape (c :: s))
      | some x => do
          let (cs, rest) ← readString s
          return (x :: cs, rest)
  | c :: s =>
      if c.toNat < 0x20 then .error (.at .controlCharacter (c :: s))
      else do
        let (cs, rest) ← readString s
        return (c :: cs, rest)

inductive Next where
  | done (rest : List Char)
  | more (rest : List Char)

def nextItem (first : Bool) (s : List Char) : Except Fault Next :=
  match skipSpace s with
  | [] => .error (.at .endInList [])
  | ']' :: r => .ok (.done r)
  | c :: r =>
      if first then .ok (.more (c :: r))
      else if c = ',' then
        match skipSpace r with
        | [] => .error (.at .endInValue [])
        | ']' :: t => .error (.at .trailingComma (']' :: t))
        | t => .ok (.more t)
      else .error (.at .expectedListEnd (c :: r))

def openKey : List Char → Except Fault Next
  | '"' :: r => .ok (.more r)
  | s => .error (.at .keyNotString s)

def nextKey (first : Bool) (s : List Char) : Except Fault Next :=
  match skipSpace s with
  | [] => .error (.at .endInObject [])
  | '}' :: r => .ok (.done r)
  | c :: r =>
      if first then openKey (c :: r)
      else if c = ',' then
        match skipSpace r with
        | [] => .error (.at .endInValue [])
        | '}' :: t => .error (.at .trailingComma ('}' :: t))
        | t => openKey t
      else .error (.at .expectedObjectEnd (c :: r))

def colon (s : List Char) : Except Fault (List Char) :=
  match skipSpace s with
  | [] => .error (.at .endInObject [])
  | ':' :: r => .ok r
  | c :: r => .error (.at .expectedColon (c :: r))

/-- The items of a list after its opening bracket. Each item takes at least one character, so a
bound above the length of the text is never reached. -/
def readItems (read : Reader α) : Nat → Bool → Reader (List α)
  | 0, _, s => .error (.before .endInList s)
  | bound + 1, first, s => do
      match ← nextItem first s with
      | .done r => return ([], r)
      | .more r =>
          let (a, r) ← read r
          let (as, r) ← readItems read bound false r
          return (a :: as, r)

def readMembers (member : σ → String → Reader σ) :
    Nat → Bool → σ → Reader σ
  | 0, _, _, s => .error (.before .endInObject s)
  | bound + 1, first, acc, s => do
      match ← nextKey first s with
      | .done r => return (acc, r)
      | .more r =>
          let (key, r) ← readString r
          let (acc, r) ← member acc (String.ofList key) r
          readMembers member bound false acc r

def readMember (read : Reader Json) (ms : Table String Json) (key : String) :
    Reader (Table String Json) := fun s => do
  let r ← colon s
  let (v, r) ← read r
  return (Table.insert key v ms, r)

def readValue : Nat → Reader Json
  | depth, s =>
      match skipSpace s with
      | [] => .error (.at .endInValue [])
      | 'n' :: r => readLiteral .null ['u', 'l', 'l'] r
      | 't' :: r => readLiteral (.bool true) ['r', 'u', 'e'] r
      | 'f' :: r => readLiteral (.bool false) ['a', 'l', 's', 'e'] r
      | '"' :: r => do
          let (cs, r) ← readString r
          return (.string (String.ofList cs), r)
      | '-' :: r => do
          let (n, r) ← readNumber true r
          return (.number n, r)
      | '[' :: r =>
          match depth with
          | 0 => .error (.at .tooDeep ('[' :: r))
          | depth + 1 => do
              let (vs, r) ← readItems (readValue depth) (r.length + 1) true r
              return (.array vs, r)
      | '{' :: r =>
          match depth with
          | 0 => .error (.at .tooDeep ('{' :: r))
          | depth + 1 => do
              let (ms, r) ← readMembers (readMember (readValue depth)) (r.length + 1) true [] r
              return (.object ms, r)
      | c :: r =>
          if Text.isDigit c then do
            let (n, r) ← readNumber false (c :: r)
            return (.number n, r)
          else .error (.at .expectedValue (c :: r))

def maxDepth : Nat := 127

def readWhole (read : Reader α) (text : List Char) : Except ReadError α :=
  match read text with
  | .error f => .error (f.locate text)
  | .ok (a, r) =>
      match skipSpace r with
      | [] => .ok a
      | c :: r => .error ((Fault.at .trailingText (c :: r)).locate text)

def parse (text : List Char) : Except ReadError Json := readWhole (readValue maxDepth) text

end QueueScript.Json
