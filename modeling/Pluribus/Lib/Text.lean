namespace Pluribus.Lib.Text

def after (head : List Char) (text : List Char) : Option (List Char) :=
  if head.isPrefixOf text then some (text.drop head.length) else none

def before (tail : List Char) (text : List Char) : Option (List Char) :=
  if tail.isSuffixOf text then some (text.take (text.length - tail.length)) else none

def startsWith (head text : String) : Bool := head.toList.isPrefixOf text.toList

def endsWith (tail text : String) : Bool := tail.toList.isSuffixOf text.toList

def take (n : Nat) (text : String) : String := String.ofList (text.toList.take n)

def split (separator : Char) : List Char → List (List Char)
  | [] => [[]]
  | c :: rest =>
    if c = separator then [] :: split separator rest
    else
      match split separator rest with
      | [] => [[c]]
      | first :: others => (c :: first) :: others

def unescape (digit c : Char) : List Char → List Char
  | '~' :: d :: rest => if d = digit then c :: unescape digit c rest else '~' :: unescape digit c (d :: rest)
  | d :: rest => d :: unescape digit c rest
  | [] => []

def isDigit (c : Char) : Bool := '0' ≤ c ∧ c ≤ '9'

def index (token : List Char) : Option Nat :=
  if token.isEmpty || !token.all isDigit || (token.head? = some '0' && token.length ≠ 1) then none
  else some (token.foldl (fun n c => 10 * n + (c.toNat - '0'.toNat)) 0)

/-- An unsigned number of 64 bits, with a plus sign or without one. -/
def parseU64 (token : List Char) : Option Nat :=
  let digits := (after ['+'] token).getD token
  let value := digits.foldl (fun n c => 10 * n + (c.toNat - '0'.toNat)) 0
  if digits.isEmpty || !digits.all isDigit || 18446744073709551615 < value then none else some value

end Pluribus.Lib.Text
