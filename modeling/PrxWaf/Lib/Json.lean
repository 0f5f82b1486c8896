import PrxWaf.Lib.Text

/-!
# JSON values

A JSON value as a deserializer sees it.  An object has its keys in some order, each
of them once; an integer is told from a number with a fraction or an exponent.
-/

namespace PrxWaf
namespace Lib

inductive Json where
  | null
  | bool (b : Bool)
  | int (n : Int)
  | float (text : Text)
  | string (s : Text)
  | array (items : List Json)
  | object (fields : List (Text × Json))

namespace Json

def field (key : Text) : Json -> Option Json
  | object fields => fields.lookup key
  | _ => none

def toText : Json -> Option Text
  | string s => some s
  | _ => none

def toTexts : Json -> Option (List Text)
  | array items => items.mapM toText
  | _ => none

def toI64 : Json -> Option Int
  | int n => if -(2 ^ 63) ≤ n ∧ n < 2 ^ 63 then some n else none
  | _ => none

end Json

end Lib
end PrxWaf
