import PrxWaf.Cluster.RuleSync

/-!
# The indexes of the rule registry

The registry lists the ids of its rules by category and by source.  Both lists are
kept in the same way, so that the facts about them are stated once, for an index by
any property of a rule.
-/

namespace PrxWaf
namespace Cluster
namespace RuleRegistry

open Lib

def filterByCategory (registry : RuleRegistry) (category : Text) : List Rule :=
  (registry.byCategory category).filterMap registry.rules

def filterBySource (registry : RuleRegistry) (source : Text) : List Rule :=
  (registry.bySource source).filterMap registry.rules

section Index

variable {keyOf : Rule -> Text} {rules : Text -> Option Rule} {index : Text -> List Text}

def without (index : Text -> List Text) (id : Text) : Text -> List Text :=
  fun key => (index key).filter (fun x => x ≠ id)

def withEntry (index : Text -> List Text) (key id : Text) : Text -> List Text :=
  Function.update index key (index key ++ [id])

/-- The index has, under each key, the ids of the rules with this key, each once. -/
structure Mirrors (keyOf : Rule -> Text) (rules : Text -> Option Rule)
    (index : Text -> List Text) : Prop where
  nodup : forall key, (index key).Nodup
  mem_iff : forall key id, id ∈ index key <-> exists rule, rules id = some rule ∧ keyOf rule = key

theorem Mirrors.without_of_absent (h : Mirrors keyOf rules index) {id : Text}
    (habsent : rules id = none) : without index id = index := by
  funext key
  refine List.filter_eq_self.mpr ?_
  intro x hx
  rw [decide_eq_true_eq]
  rintro rfl
  obtain ⟨rule, hrule, -⟩ := (h.mem_iff key x).mp hx
  rw [habsent] at hrule
  cases hrule

theorem Mirrors.removed (h : Mirrors keyOf rules index) (id : Text) :
    Mirrors keyOf (Function.update rules id none) (without index id) where
  nodup := fun key => (h.nodup key).filter _
  mem_iff := by
    intro key x
    unfold without
    rw [List.mem_filter, h.mem_iff, decide_eq_true_eq]
    rcases eq_or_ne x id with rfl | hne
    · simp
    · simp [hne]

theorem Mirrors.inserted (h : Mirrors keyOf rules index) {id : Text}
    (habsent : rules id = none) (rule : Rule) :
    Mirrors keyOf (Function.update rules id (some rule)) (withEntry index (keyOf rule) id) := by
  have hfresh : forall key, id ∉ index key := by
    intro key hmem
    obtain ⟨old, hold, -⟩ := (h.mem_iff key id).mp hmem
    rw [habsent] at hold
    cases hold
  constructor
  · intro key
    unfold withEntry
    rcases eq_or_ne key (keyOf rule) with rfl | hkey
    · rw [Function.update_self, ← List.concat_eq_append]
      exact List.Nodup.concat (hfresh _) (h.nodup _)
    · rw [Function.update_of_ne hkey]
      exact h.nodup key
  · intro key x
    have hentry : x ∈ withEntry index (keyOf rule) id key <->
        x ∈ index key ∨ x = id ∧ key = keyOf rule := by
      unfold withEntry
      rcases eq_or_ne key (keyOf rule) with rfl | hkey
      · simp
      · simp [hkey]
    rw [hentry]
    rcases eq_or_ne x id with rfl | hne
    · rw [Function.update_self]
      simp [hfresh key, eq_comm]
    · rw [Function.update_of_ne hne, h.mem_iff]
      simp [hne]

theorem without_withEntry (index : Text -> List Text) (key id : Text) :
    without (withEntry index key id) id = without index id := by
  funext other
  unfold without withEntry
  rcases eq_or_ne other key with rfl | hne
  · rw [Function.update_self, List.filter_append]
    simp
  · rw [Function.update_of_ne hne]

theorem without_without (index : Text -> List Text) (id : Text) :
    without (without index id) id = without index id := by
  funext key
  unfold without
  rw [List.filter_filter]
  simp

end Index

structure Consistent (registry : RuleRegistry) : Prop where
  ids : forall id rule, registry.rules id = some rule -> rule.id = id
  category : Mirrors Rule.category registry.rules registry.byCategory
  source : Mirrors Rule.source registry.rules registry.bySource

theorem consistent_new : Consistent new where
  ids := nofun
  category := ⟨fun _ => List.nodup_nil, by simp [new]⟩
  source := ⟨fun _ => List.nodup_nil, by simp [new]⟩

section Operations

variable {registry : RuleRegistry}

theorem ids_update (h : Consistent registry) {key : Text} {entry : Option Rule}
    (hentry : forall rule, entry = some rule -> rule.id = key) (id : Text) (rule : Rule)
    (hrule : Function.update registry.rules key entry id = some rule) : rule.id = id := by
  rcases eq_or_ne id key with rfl | hne
  · rw [Function.update_self] at hrule
    exact hentry rule hrule
  · rw [Function.update_of_ne hne] at hrule
    exact h.ids id rule hrule

theorem remove_eq (h : Consistent registry) (id : Text) :
    (registry.remove id).rules = Function.update registry.rules id none ∧
      (registry.remove id).byCategory = without registry.byCategory id ∧
      (registry.remove id).bySource = without registry.bySource id := by
  refine ⟨rules_remove registry id, ?_⟩
  unfold remove
  split
  · rename_i habsent
    exact ⟨(h.category.without_of_absent habsent).symm, (h.source.without_of_absent habsent).symm⟩
  · exact ⟨rfl, rfl⟩

theorem insert_eq (h : Consistent registry) (rule : Rule) :
    (registry.insert rule).rules = Function.update registry.rules rule.id (some rule) ∧
      (registry.insert rule).byCategory =
        withEntry (without registry.byCategory rule.id) rule.category rule.id ∧
      (registry.insert rule).bySource =
        withEntry (without registry.bySource rule.id) rule.source rule.id := by
  refine ⟨rules_insert registry rule, ?_⟩
  unfold insert
  dsimp only
  split
  · exact ⟨rfl, rfl⟩
  · -- a rule that is not replaced has no entries to take out
    rename_i habsent
    rw [Option.not_isSome_iff_eq_none] at habsent
    rw [h.category.without_of_absent habsent, h.source.without_of_absent habsent]
    exact ⟨rfl, rfl⟩

theorem Consistent.remove (h : Consistent registry) (id : Text) :
    Consistent (registry.remove id) := by
  obtain ⟨hrules, hcategory, hsource⟩ := remove_eq h id
  constructor
  · rw [hrules]
    exact ids_update h nofun
  · rw [hrules, hcategory]
    exact h.category.removed id
  · rw [hrules, hsource]
    exact h.source.removed id

theorem Consistent.insert (h : Consistent registry) (rule : Rule) :
    Consistent (registry.insert rule) := by
  obtain ⟨hrules, hcategory, hsource⟩ := insert_eq h rule
  have habsent : Function.update registry.rules rule.id none rule.id = none :=
    Function.update_self _ _ _
  have hagain : Function.update registry.rules rule.id (some rule) =
      Function.update (Function.update registry.rules rule.id none) rule.id (some rule) :=
    (Function.update_idem _ _ _).symm
  constructor
  · rw [hrules]
    exact ids_update h (fun _ hrule => by rw [Option.some.inj hrule])
  · rw [hrules, hcategory, hagain]
    exact (h.category.removed rule.id).inserted habsent rule
  · rw [hrules, hsource, hagain]
    exact (h.source.removed rule.id).inserted habsent rule

def Finds (registry : RuleRegistry) (keyOf : Rule -> Text) (key : Text) (found : List Rule) :
    Prop :=
  found.Nodup ∧
    forall rule, rule ∈ found <-> (exists id, registry.rules id = some rule) ∧ keyOf rule = key

theorem finds_filterMap (h : Consistent registry) {keyOf : Rule -> Text}
    {index : Text -> List Text} (hindex : Mirrors keyOf registry.rules index) (key : Text) :
    registry.Finds keyOf key ((index key).filterMap registry.rules) := by
  constructor
  · refine (hindex.nodup key).filterMap ?_
    intro a b rule ha hb
    rw [← h.ids a rule ha, h.ids b rule hb]
  · intro rule
    rw [List.mem_filterMap]
    constructor
    · rintro ⟨id, hid, hrule⟩
      obtain ⟨found, hfound, hkey⟩ := (hindex.mem_iff key id).mp hid
      rw [hrule, Option.some_inj] at hfound
      exact ⟨⟨id, hrule⟩, hfound ▸ hkey⟩
    · rintro ⟨⟨id, hrule⟩, hkey⟩
      exact ⟨id, (hindex.mem_iff key id).mpr ⟨rule, hrule, hkey⟩, hrule⟩

/-- Apart from the given rule, the indexes have the same entries in the same order. -/
def KeepsOthers (before after : RuleRegistry) (id : Text) : Prop :=
  without after.byCategory id = without before.byCategory id ∧
    without after.bySource id = without before.bySource id

theorem keepsOthers_remove (h : Consistent registry) (id : Text) :
    KeepsOthers registry (registry.remove id) id := by
  obtain ⟨-, hcategory, hsource⟩ := remove_eq h id
  unfold KeepsOthers
  rw [hcategory, hsource, without_without, without_without]
  exact ⟨rfl, rfl⟩

theorem keepsOthers_insert (h : Consistent registry) (rule : Rule) :
    KeepsOthers registry (registry.insert rule) rule.id := by
  obtain ⟨-, hcategory, hsource⟩ := insert_eq h rule
  unfold KeepsOthers
  rw [hcategory, hsource, without_withEntry, without_withEntry, without_without, without_without]
  exact ⟨rfl, rfl⟩

end Operations

inductive RegistryOp where
  | insert (rule : Rule)
  | remove (id : Text)
  | clear

def perform (registry : RuleRegistry) : RegistryOp -> RuleRegistry
  | .insert rule => registry.insert rule
  | .remove id => registry.remove id
  | .clear => registry.clear

theorem consistent_run (ops : List RegistryOp) : Consistent (ops.foldl perform new) := by
  refine List.foldlRecOn ops perform consistent_new ?_
  intro registry h op hop
  cases op with
  | insert rule => exact h.insert rule
  | remove id => exact h.remove id
  | clear => exact consistent_new

/-- After any operations both indexes find the rules with a key, each once, and an
operation on one rule leaves the entries of the others. -/
theorem indexes_mirror_rules (ops : List RegistryOp) :
    (forall category, (ops.foldl perform new).Finds Rule.category category
        ((ops.foldl perform new).filterByCategory category)) ∧
      (forall source, (ops.foldl perform new).Finds Rule.source source
        ((ops.foldl perform new).filterBySource source)) ∧
      (forall rule, KeepsOthers (ops.foldl perform new)
        ((ops.foldl perform new).insert rule) rule.id) ∧
      forall id, KeepsOthers (ops.foldl perform new) ((ops.foldl perform new).remove id) id := by
  have h := consistent_run ops
  exact ⟨finds_filterMap h h.category, finds_filterMap h h.source, keepsOthers_insert h,
    keepsOthers_remove h⟩

end RuleRegistry
end Cluster
end PrxWaf
