import PrxWaf.Rules.ConditionJson

/-!
# Condition trees

The limits on the depth and the leaves of a tree, and the JSON that a tree is
written as.
-/

namespace PrxWaf
namespace Rules

open Lib

namespace ConditionNode

mutual

def conditions : ConditionNode -> List Condition
  | .and nodes => conditionsOfAll nodes
  | .or nodes => conditionsOfAll nodes
  | .not node => conditions node
  | .leaf cond => [cond]

def conditionsOfAll : List ConditionNode -> List Condition
  | [] => []
  | node :: rest => conditions node ++ conditionsOfAll rest

end

mutual

def depth : ConditionNode -> Nat
  | .and nodes => depthOfAll nodes + 1
  | .or nodes => depthOfAll nodes + 1
  | .not node => depth node + 1
  | .leaf _ => 1

def depthOfAll : List ConditionNode -> Nat
  | [] => 0
  | node :: rest => max (depth node) (depthOfAll rest)

end

/-- A walk that starts at a depth and a count stays within the limits. -/
def WithinLimits (start leaves height count : Nat) : Prop :=
  start + height ≤ maxTreeDepth + 1 ∧ leaves + count ≤ maxTreeLeaves

theorem walkBranch_iff {start leaves height count n : Nat} {walked : Except CompileError Nat}
    (h : start ≤ maxTreeDepth -> (walked = .ok n <->
      WithinLimits (start + 1) leaves height count ∧ n = leaves + count)) :
    (if maxTreeDepth < start then .error .maxDepth else walked) = .ok n <->
      WithinLimits start leaves (height + 1) count ∧ n = leaves + count := by
  split
  · rename_i hdeep
    refine iff_of_false nofun ?_
    rintro ⟨⟨hdepth, -⟩, -⟩
    lia
  · rename_i hdeep
    rw [h (Nat.not_lt.mp hdeep), WithinLimits, WithinLimits, Nat.add_assoc, Nat.add_comm 1 height]

mutual

theorem walk_eq_ok_iff {start leaves n : Nat} (hleaves : leaves ≤ maxTreeLeaves) :
    forall node, walk start leaves node = .ok n <->
      WithinLimits start leaves node.depth node.conditions.length ∧
        n = leaves + node.conditions.length
  | .and nodes => by
    unfold walk depth conditions
    exact walkBranch_iff (fun hstart => walkAll_eq_ok_iff (Nat.succ_le_succ hstart) hleaves nodes)
  | .or nodes => by
    unfold walk depth conditions
    exact walkBranch_iff (fun hstart => walkAll_eq_ok_iff (Nat.succ_le_succ hstart) hleaves nodes)
  | .not node => by
    unfold walk depth conditions
    exact walkBranch_iff (fun _ => walk_eq_ok_iff hleaves node)
  | .leaf cond => by
    -- for its depth a leaf is a branch without children
    unfold walk depth conditions
    refine @walkBranch_iff start leaves 0 1 n _ ?_
    intro hstart
    unfold WithinLimits
    split
    · refine iff_of_false nofun ?_
      rintro ⟨⟨-, hcount⟩, -⟩
      lia
    · rw [Except.ok.injEq]
      lia

theorem walkAll_eq_ok_iff {start leaves n : Nat} (hstart : start ≤ maxTreeDepth + 1)
    (hleaves : leaves ≤ maxTreeLeaves) : forall nodes, walkAll start leaves nodes = .ok n <->
      WithinLimits start leaves (depthOfAll nodes) (conditionsOfAll nodes).length ∧
        n = leaves + (conditionsOfAll nodes).length
  | [] => by
    unfold walkAll depthOfAll conditionsOfAll WithinLimits
    rw [Except.ok.injEq, List.length_nil]
    lia
  | node :: rest => by
    unfold walkAll depthOfAll conditionsOfAll
    rw [List.length_append]
    cases hwalk : walk start leaves node with
    | error e =>
      refine iff_of_false nofun ?_
      rintro ⟨⟨hdepth, hcount⟩, -⟩
      have hok : walk start leaves node = .ok (leaves + node.conditions.length) :=
        (walk_eq_ok_iff hleaves node).mpr ⟨⟨by lia, by lia⟩, rfl⟩
      rw [hwalk] at hok
      cases hok
    | ok counted =>
      obtain ⟨⟨hdepth, hcount⟩, rfl⟩ := (walk_eq_ok_iff hleaves node).mp hwalk
      dsimp only
      rw [walkAll_eq_ok_iff hstart hcount rest]
      unfold WithinLimits
      lia

end

/-- A tree is accepted exactly if its depth and its number of leaves are. -/
theorem validateTree_ok_iff (node : ConditionNode) :
    validateTree node = .ok () <->
      node.depth ≤ maxTreeDepth ∧ node.conditions.length ≤ maxTreeLeaves := by
  unfold validateTree
  constructor
  · intro h
    obtain ⟨n, hwalk, -⟩ := map_ok h
    obtain ⟨⟨hdepth, hcount⟩, -⟩ := (walk_eq_ok_iff (Nat.zero_le _) node).mp hwalk
    lia
  · rintro ⟨hdepth, hcount⟩
    have hwalk : walk 1 0 node = .ok (0 + node.conditions.length) :=
      (walk_eq_ok_iff (Nat.zero_le _) node).mpr ⟨⟨by lia, by lia⟩, rfl⟩
    rw [hwalk]
    rfl

end ConditionNode

/-! ## Serialisation -/

def ConditionField.toValue : ConditionField -> Json
  | .ip => .string "ip".toList
  | .path => .string "path".toList
  | .query => .string "query".toList
  | .method => .string "method".toList
  | .body => .string "body".toList
  | .cookie none => .object [("cookie".toList, .null)]
  | .cookie (some name) => .object [("cookie".toList, .string name)]
  | .userAgent => .string "user_agent".toList
  | .contentType => .string "content_type".toList
  | .contentLength => .string "content_length".toList
  | .host => .string "host".toList
  | .header name => .object [("header".toList, .string name)]
  | .geoCountry => .string "geo_country".toList
  | .geoIso => .string "geo_iso".toList
  | .geoProvince => .string "geo_province".toList
  | .geoCity => .string "geo_city".toList
  | .geoIsp => .string "geo_isp".toList

def Operator.toValue : Operator -> Json
  | .eq => .string "eq".toList
  | .ne => .string "ne".toList
  | .contains => .string "contains".toList
  | .notContains => .string "not_contains".toList
  | .startsWith => .string "starts_with".toList
  | .endsWith => .string "ends_with".toList
  | .regex => .string "regex".toList
  | .wildcard => .string "wildcard".toList
  | .inList => .string "in_list".toList
  | .notInList => .string "not_in_list".toList
  | .cidrMatch => .string "cidr_match".toList
  | .gt => .string "gt".toList
  | .lt => .string "lt".toList
  | .gte => .string "gte".toList
  | .lte => .string "lte".toList

def ConditionValue.toValue : ConditionValue -> Json
  | .str s => .string s
  | .list l => .array (l.map Json.string)
  | .number n => .int n

def Condition.toValue (cond : Condition) : Json :=
  .object [("field".toList, cond.field.toValue),
    ("operator".toList, cond.operator.toValue),
    ("value".toList, cond.value.toValue)]

/-- A number is one of 64 bits. -/
def ConditionValue.FitsI64 (value : ConditionValue) : Prop :=
  forall n, value = .number n -> -(2 ^ 63) ≤ n ∧ n < 2 ^ 63

theorem ConditionField.fromValue_toValue (field : ConditionField) :
    fromValue field.toValue = some field := by
  cases field with
  | cookie name => cases name <;> rfl
  | _ => rfl

theorem Operator.fromValue_toValue (op : Operator) :
    fromValue op.toValue = some op := by
  cases op <;> rfl

theorem ConditionValue.fromValue_toValue {value : ConditionValue} (h : value.FitsI64) :
    fromValue value.toValue = some value := by
  cases value with
  | str s => rfl
  | list l =>
    have hitems : (l.map Json.string).mapM Json.toText = some l := by
      induction l with
      | nil => rfl
      | cons s rest ih =>
        rw [List.map_cons, List.mapM_cons, ih nofun]
        rfl
    unfold fromValue toValue Json.toTexts
    dsimp only
    rw [hitems]
    rfl
  | number n =>
    have hfits := h n rfl
    unfold fromValue toValue Json.toI64
    dsimp only
    rw [if_pos hfits]
    rfl

theorem Condition.fromValue_toValue {cond : Condition} (h : cond.value.FitsI64) :
    fromValue cond.toValue = some cond := by
  have hvalue := ConditionValue.fromValue_toValue h
  have hoperator := Operator.fromValue_toValue cond.operator
  have hfield := ConditionField.fromValue_toValue cond.field
  change fromFields (some cond.field.toValue) (some cond.operator.toValue)
    (some cond.value.toValue) = some cond
  unfold fromFields
  rw [Option.bind_some, Option.bind_some, Option.bind_some, hfield, hoperator, hvalue]
  rfl

namespace ConditionNode

mutual

def toValue : ConditionNode -> Json
  | .and nodes => .object [("and".toList, .array (toValues nodes))]
  | .or nodes => .object [("or".toList, .array (toValues nodes))]
  | .not node => .object [("not".toList, toValue node)]
  | .leaf cond => cond.toValue

def toValues : List ConditionNode -> List Json
  | [] => []
  | node :: rest => toValue node :: toValues rest

end

def FitsI64 (conditions : List Condition) : Prop :=
  forall cond, cond ∈ conditions -> cond.value.FitsI64

mutual

theorem fromValue_of_fits : forall node : ConditionNode, FitsI64 node.conditions ->
    fromValue node.toValue = some node
  | .and nodes, h => by
    have hnodes := nodesFromItems_of_fits nodes (by unfold conditions at h; exact h)
    unfold toValue fromValue
    rw [nodesAt, if_pos rfl, nodesFromValue, hnodes]
    rfl
  | .or nodes, h => by
    have hnodes := nodesFromItems_of_fits nodes (by unfold conditions at h; exact h)
    unfold toValue fromValue
    rw [nodesAt, if_neg (by decide), nodesAt, nodesAt, if_pos rfl, nodesFromValue, hnodes]
    rfl
  | .not node, h => by
    have hnode := fromValue_of_fits node (by unfold conditions at h; exact h)
    unfold toValue fromValue
    rw [nodesAt, if_neg (by decide), nodesAt, nodesAt, if_neg (by decide), nodesAt,
      nodeAt, if_pos rfl, hnode]
    rfl
  | .leaf cond, h => by
    have hcond := Condition.fromValue_toValue (h cond (by unfold conditions; simp))
    unfold Condition.toValue at hcond
    unfold toValue Condition.toValue fromValue
    rw [hcond]
    rfl

theorem nodesFromItems_of_fits : forall nodes, FitsI64 (conditionsOfAll nodes) ->
    nodesFromItems (toValues nodes) = some nodes
  | [], _ => rfl
  | node :: rest, h => by
    unfold conditionsOfAll at h
    have hnode := fromValue_of_fits node (fun cond hcond => h cond (List.mem_append_left _ hcond))
    have hrest := nodesFromItems_of_fits rest
      (fun cond hcond => h cond (List.mem_append_right _ hcond))
    unfold toValues nodesFromItems
    rw [hnode, hrest]
    rfl

end

/-- A tree is read back from its JSON. -/
theorem toValue_read_back {node : ConditionNode} (h : FitsI64 node.conditions) :
    fromValue node.toValue = some node :=
  fromValue_of_fits node h

/-- A named cookie, an empty branch under a negation, and all cookies against a
number. -/
def cookieTree : ConditionNode :=
  .and [
    .leaf {
      field := .cookie (some "session".toList)
      operator := .inList
      value := .list ["a".toList, []] },
    .not (.or []),
    .leaf { field := .cookie none, operator := .gt, value := .number (-7) }]

theorem cookieTree_read_back :
    FitsI64 cookieTree.conditions ∧ fromValue cookieTree.toValue = some cookieTree := by
  have hfits : FitsI64 cookieTree.conditions := by
    intro cond hcond n hn
    rcases List.mem_cons.mp hcond with rfl | hlast
    · cases hn
    · rw [List.mem_singleton.mp hlast] at hn
      cases hn
      decide
  exact ⟨hfits, toValue_read_back hfits⟩

end ConditionNode

end Rules
end PrxWaf
