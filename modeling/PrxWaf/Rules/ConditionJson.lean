import PrxWaf.Lib.Json
import PrxWaf.Rules.Reload

/-!
# Conditions in JSON

The conditions column of a rule holds JSON, and the conditions are what the
deserializers make of it.  A derived deserializer of a structure also takes the
fields in their order as an array, and ignores keys that it does not know; one of
an enumeration without tags takes the first variant that fits.
-/

namespace PrxWaf
namespace Rules

open Lib

namespace ConditionField

def tags : List (Text × ConditionField) :=
  [("ip".toList, .ip), ("path".toList, .path), ("query".toList, .query),
    ("method".toList, .method), ("body".toList, .body),
    ("cookie".toList, .cookie none), ("user_agent".toList, .userAgent),
    ("content_type".toList, .contentType),
    ("content_length".toList, .contentLength), ("host".toList, .host),
    ("geo_country".toList, .geoCountry), ("geo_iso".toList, .geoIso),
    ("geo_province".toList, .geoProvince), ("geo_city".toList, .geoCity),
    ("geo_isp".toList, .geoIsp)]

/-- A tag, or an object with one key that names a header or a cookie. -/
def fromValue : Json -> Option ConditionField
  | .string tag => tags.lookup tag
  | .object [(key, value)] =>
    if key = "header".toList then value.toText.map .header
    else if key = "cookie".toList then
      match value with
      | .null => some (.cookie none)
      | value => value.toText.map (fun name => .cookie (some name))
    else none
  | _ => none

end ConditionField

namespace Operator

def tags : List (Text × Operator) :=
  [("eq".toList, .eq), ("ne".toList, .ne), ("contains".toList, .contains),
    ("not_contains".toList, .notContains), ("starts_with".toList, .startsWith),
    ("ends_with".toList, .endsWith), ("regex".toList, .regex),
    ("wildcard".toList, .wildcard), ("in_list".toList, .inList),
    ("not_in_list".toList, .notInList), ("cidr_match".toList, .cidrMatch),
    ("gt".toList, .gt), ("lt".toList, .lt), ("gte".toList, .gte),
    ("lte".toList, .lte)]

/-- A variant without data is its tag, or an object with the tag and `null`. -/
def fromValue : Json -> Option Operator
  | .string tag => tags.lookup tag
  | .object [(tag, .null)] => tags.lookup tag
  | _ => none

end Operator

def ConditionValue.fromValue (value : Json) : Option ConditionValue :=
  (value.toText.map ConditionValue.str).or
    ((value.toTexts.map ConditionValue.list).or
      (value.toI64.map ConditionValue.number))

namespace Condition

def fromFields (field operator value : Option Json) : Option Condition := do
  let field <- field.bind ConditionField.fromValue
  let operator <- operator.bind Operator.fromValue
  let value <- value.bind ConditionValue.fromValue
  return { field := field, operator := operator, value := value }

def fromValue : Json -> Option Condition
  | .object fields =>
    fromFields (fields.lookup "field".toList) (fields.lookup "operator".toList)
      (fields.lookup "value".toList)
  | .array [field, operator, value] => fromFields field operator value
  | _ => none

end Condition

def conditionsFromValue : Json -> Option (List Condition)
  | .array items => items.mapM Condition.fromValue
  | _ => none

namespace ConditionNode

/-- The first variant that fits. -/
def untagged (andNodes orNodes : Option (List ConditionNode))
    (notNode : Option ConditionNode) (cond : Option Condition) :
    Option ConditionNode :=
  (andNodes.map ConditionNode.and).or ((orNodes.map ConditionNode.or).or
    ((notNode.map ConditionNode.not).or (cond.map ConditionNode.leaf)))

mutual

def fromValue : Json -> Option ConditionNode
  | .object fields =>
    untagged (nodesAt "and".toList fields) (nodesAt "or".toList fields)
      (nodeAt "not".toList fields) (Condition.fromValue (.object fields))
  | .array [item] =>
    untagged (nodesFromValue item) (nodesFromValue item) (fromValue item)
      (Condition.fromValue (.array [item]))
  | .array items =>
    untagged none none none (Condition.fromValue (.array items))
  | _ => none

def nodesFromValue : Json -> Option (List ConditionNode)
  | .array items => nodesFromItems items
  | _ => none

def nodesFromItems : List Json -> Option (List ConditionNode)
  | [] => some []
  | item :: rest => do
      let node <- fromValue item
      let nodes <- nodesFromItems rest
      return node :: nodes

def nodesAt (key : Text) : List (Text × Json) -> Option (List ConditionNode)
  | [] => none
  | (name, value) :: rest =>
    if name = key then nodesFromValue value else nodesAt key rest

def nodeAt (key : Text) : List (Text × Json) -> Option ConditionNode
  | [] => none
  | (name, value) :: rest =>
    if name = key then fromValue value else nodeAt key rest

end

end ConditionNode

/-- The column is told apart by the key `match_tree` of an object. -/
def ConditionsColumn.ofValue (value : Json) : ConditionsColumn :=
  match value.field "match_tree".toList with
  | some value => .tree (ConditionNode.fromValue value)
  | none => .list (conditionsFromValue value)

end Rules
end PrxWaf
