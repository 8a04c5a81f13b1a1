import Pluribus.Rlm.Turn

namespace Pluribus.Rlm

open Lib List

def unescape : List Char → List Char
  | '~' :: '0' :: rest => '~' :: unescape rest
  | '~' :: '1' :: rest => '/' :: unescape rest
  | c :: rest => c :: unescape rest
  | [] => []

def child (value : Json) (token : String) : Option Json :=
  match value with
  | .array items => token.toNat?.bind (items[·]?)
  | value => value.get token

/-- The value a JSON pointer names. -/
def resolve (value : Json) (pointer : String) : Option Json :=
  match pointer.toList with
  | [] => some value
  | '/' :: rest => (rest.splitOn '/').foldlM (fun value token => child value (.ofList (unescape token))) value
  | _ => none

end Pluribus.Rlm
