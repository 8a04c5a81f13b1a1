import Pluribus.Lib.Table
import Pluribus.Lib.Text

namespace Pluribus.Lib

open List

/-- A JSON number as a parser keeps it: an unsigned or a negative integer, or the text
of any other number. -/
inductive Number where
  | posInt (value : Nat)
  | negInt (value : Int)
  | float (text : String)
deriving DecidableEq, Repr

def Number.toString : Number → String
  | .posInt value => value.repr
  | .negInt value => value.repr
  | .float text => text

/-- A JSON value. The fields of an object stand in the order of their keys. -/
inductive Json where
  | null
  | bool (value : Bool)
  | number (value : Number)
  | string (value : String)
  | array (items : List Json)
  | object (fields : List (String × Json))
deriving Repr

namespace Json

mutual

def decEq : (a b : Json) → Decidable (a = b)
  | .null, .null => isTrue rfl
  | .bool a, .bool b => decidable_of_iff (a = b) (by simp)
  | .number a, .number b => decidable_of_iff (a = b) (by simp)
  | .string a, .string b => decidable_of_iff (a = b) (by simp)
  | .array a, .array b => @decidable_of_iff _ (a = b) (by simp) (decEqItems a b)
  | .object a, .object b => @decidable_of_iff _ (a = b) (by simp) (decEqFields a b)
  | .null, .bool _ | .null, .number _ | .null, .string _ | .null, .array _ | .null, .object _
  | .bool _, .null | .bool _, .number _ | .bool _, .string _ | .bool _, .array _
  | .bool _, .object _
  | .number _, .null | .number _, .bool _ | .number _, .string _ | .number _, .array _
  | .number _, .object _
  | .string _, .null | .string _, .bool _ | .string _, .number _ | .string _, .array _
  | .string _, .object _
  | .array _, .null | .array _, .bool _ | .array _, .number _ | .array _, .string _
  | .array _, .object _
  | .object _, .null | .object _, .bool _ | .object _, .number _ | .object _, .string _
  | .object _, .array _ => isFalse (by simp)

def decEqItems : (a b : List Json) → Decidable (a = b)
  | [], [] => isTrue rfl
  | [], _ :: _ | _ :: _, [] => isFalse (by simp)
  | a :: as, b :: bs =>
    @decidable_of_iff _ (a = b ∧ as = bs) (by simp)
      (@instDecidableAnd _ _ (decEq a b) (decEqItems as bs))

def decEqFields : (a b : List (String × Json)) → Decidable (a = b)
  | [], [] => isTrue rfl
  | [], _ :: _ | _ :: _, [] => isFalse (by simp)
  | (k, a) :: as, (l, b) :: bs =>
    @decidable_of_iff _ ((k = l ∧ a = b) ∧ as = bs) (by simp)
      (@instDecidableAnd _ _ (@instDecidableAnd _ _ inferInstance (decEq a b)) (decEqFields as bs))

end

instance : DecidableEq Json := decEq

def get (key : String) : Json → Option Json
  | .object fields => Table.find fields key
  | _ => none

def asStr : Json → Option String
  | .string value => some value
  | _ => none

def asBool : Json → Option Bool
  | .bool value => some value
  | _ => none

def asI64 : Json → Option Int
  | .number (.posInt n) => if n ≤ 9223372036854775807 then some n else none
  | .number (.negInt n) => some n
  | _ => none

def asU64 : Json → Option Nat
  | .number (.posInt n) => some n
  | _ => none

def asArray : Json → Option (List Json)
  | .array items => some items
  | _ => none

def isObject : Json → Bool
  | .object _ => true
  | _ => false

def getStr (key : String) (value : Json) : Option String :=
  (value.get key).bind asStr

/-- The object with the given fields; a later field replaces an earlier one of its key. -/
def ofFields (fields : List (String × Json)) : Json :=
  .object (fields.foldl (fun acc field => Table.insert field.1 field.2 acc) [])

theorem find_ofFields (fields table : List (String × Json)) (key : String) :
    Table.find (fields.foldl (fun acc field => Table.insert field.1 field.2 acc) table) key =
      ((fields.reverse.find? fun field => field.1 = key).map Prod.snd).or (Table.find table key) := by
  induction fields generalizing table with
  | nil => rfl
  | cons field rest ih =>
    rw [foldl_cons, ih, Table.find_insert, reverse_cons, find?_append]
    cases rest.reverse.find? fun field => field.1 = key <;> by_cases hkey : field.1 = key <;> simp [hkey]

theorem get_ofFields (fields : List (String × Json)) (key : String) :
    (ofFields fields).get key = (fields.reverse.find? fun field => field.1 = key).map Prod.snd := by
  rw [ofFields, get, find_ofFields]
  exact Option.or_none

def ofInt (i : Int) : Json :=
  if 0 ≤ i then .number (.posInt i.toNat) else .number (.negInt i)

def ofNat (n : Nat) : Json := .number (.posInt n)

def ofOption {α : Type} (f : α → Json) : Option α → Json
  | some a => f a
  | none => .null

def index (key : String) (value : Json) : Json := (value.get key).getD .null

def nth (i : Nat) : Json → Json
  | .array items => items.getD i .null
  | _ => .null

def set (value : Json) (key : String) (field : Json) : Json :=
  match value with
  | .object fields => .object (Table.insert key field fields)
  | _ => value

def remove (key : String) : Json → Json
  | .object fields => .object (fields.filter (·.1 ≠ key))
  | value => value

def child (token : List Char) : Json → Option Json
  | .object fields => Table.find fields (String.ofList token)
  | .array items => (Text.index token).bind (items[·]?)
  | _ => none

def pointer (path : String) (value : Json) : Option Json :=
  match Text.split '/' path.toList with
  | [[]] => some value
  | [] :: tokens =>
    tokens.foldl (fun target token => target.bind (child (Text.unescape '0' '~' (Text.unescape '1' '/' token))))
      (some value)
  | _ => none

end Json

/-- Bytes held where JSON text is expected: text of a value, or bytes a parser refuses with
the given message. -/
inductive JsonBytes where
  | json (value : Json)
  | other (bytes : List UInt8) (message : String)
deriving DecidableEq, Repr

def JsonBytes.parse : JsonBytes → Except String Json
  | .json value => .ok value
  | .other _ message => .error message

end Pluribus.Lib
