namespace QueueScript.Text

def isBlank (c : Char) : Bool := -- the Unicode property White_Space
  let n := c.toNat
  (0x09 ≤ n && n ≤ 0x0D) || n == 0x20 || n == 0x85 || n == 0xA0 || n == 0x1680 ||
    (0x2000 ≤ n && n ≤ 0x200A) || n == 0x2028 || n == 0x2029 || n == 0x202F || n == 0x205F ||
    n == 0x3000

def trimStart (s : List Char) : List Char := s.dropWhile isBlank

def trimEnd (s : List Char) : List Char := (s.reverse.dropWhile isBlank).reverse

def trim (s : List Char) : List Char := trimEnd (trimStart s)

def nextWord? (s : List Char) : Option (List Char × List Char) :=
  match trimStart s with
  | [] => none
  | c :: r =>
      some ((c :: r).takeWhile (fun c => !isBlank c), (c :: r).dropWhile (fun c => !isBlank c))

end QueueScript.Text
