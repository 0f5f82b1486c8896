import PrxWaf.Lib.Json

/-!
# Documents and the values built from them

A document has the members of its objects as they stand in the text, with keys that
may be repeated.  A deserializer puts them into a sorted map one after the other, so
that a later member replaces an earlier one of the same key.
-/

namespace PrxWaf
namespace Lib
namespace Json

/-- Insertion into a map that is kept as a list sorted by the keys. -/
def insertField (key : Text) (value : Json) : List (Text × Json) -> List (Text × Json)
  | [] => [(key, value)]
  | (k, v) :: rest =>
    if key = k then (k, value) :: rest
    else if key < k then (key, value) :: (k, v) :: rest
    else (k, v) :: insertField key value rest

mutual

def build : Json -> Json
  | array items => array (buildItems items)
  | object fields => object (buildFields [] fields)
  | null => null
  | bool b => bool b
  | int n => int n
  | float text => float text
  | string s => string s

def buildItems : List Json -> List Json
  | [] => []
  | item :: rest => item.build :: buildItems rest

def buildFields (map : List (Text × Json)) : List (Text × Json) -> List (Text × Json)
  | [] => map
  | (key, value) :: rest => buildFields (insertField key value.build map) rest

end

mutual

/-- The strings of a tree, the keys apart. -/
def strings : Json -> List Text
  | string s => [s]
  | array items => itemStrings items
  | object fields => fieldStrings fields
  | null => []
  | bool _ => []
  | int _ => []
  | float _ => []

def itemStrings : List Json -> List Text
  | [] => []
  | item :: rest => item.strings ++ itemStrings rest

def fieldStrings : List (Text × Json) -> List Text
  | [] => []
  | (_, value) :: rest => value.strings ++ fieldStrings rest

end

mutual

/-- The strings under members whose keys do not come again in their objects. -/
def lastStrings : Json -> List Text
  | string s => [s]
  | array items => itemLastStrings items
  | object fields => fieldLastStrings fields
  | null => []
  | bool _ => []
  | int _ => []
  | float _ => []

def itemLastStrings : List Json -> List Text
  | [] => []
  | item :: rest => item.lastStrings ++ itemLastStrings rest

def fieldLastStrings : List (Text × Json) -> List Text
  | [] => []
  | (key, value) :: rest =>
    (if (rest.map Prod.fst).contains key then [] else value.lastStrings) ++ fieldLastStrings rest

end

mutual

/-- The strings under a member whose key comes again later in the same object. -/
def repeatedStrings : Json -> List Text
  | array items => itemRepeatedStrings items
  | object fields => fieldRepeatedStrings fields
  | string _ => []
  | null => []
  | bool _ => []
  | int _ => []
  | float _ => []

def itemRepeatedStrings : List Json -> List Text
  | [] => []
  | item :: rest => item.repeatedStrings ++ itemRepeatedStrings rest

def fieldRepeatedStrings : List (Text × Json) -> List Text
  | [] => []
  | (key, value) :: rest =>
    (if (rest.map Prod.fst).contains key then value.strings else value.repeatedStrings) ++
      fieldRepeatedStrings rest

end

mutual

theorem mem_strings_iff {s : Text} : (document : Json) ->
    (s ∈ document.strings <-> s ∈ document.lastStrings ∨ s ∈ document.repeatedStrings)
  | array items => mem_itemStrings_iff items
  | object fields => mem_fieldStrings_iff fields
  | string _ => (or_iff_left List.not_mem_nil).symm
  | null => (or_iff_left List.not_mem_nil).symm
  | bool _ => (or_iff_left List.not_mem_nil).symm
  | int _ => (or_iff_left List.not_mem_nil).symm
  | float _ => (or_iff_left List.not_mem_nil).symm

theorem mem_itemStrings_iff {s : Text} : (items : List Json) ->
    (s ∈ itemStrings items <-> s ∈ itemLastStrings items ∨ s ∈ itemRepeatedStrings items)
  | [] => (or_iff_left List.not_mem_nil).symm
  | item :: rest => by
      rw [itemStrings, itemLastStrings, itemRepeatedStrings, List.mem_append, List.mem_append,
        List.mem_append, mem_strings_iff item, mem_itemStrings_iff rest, or_or_or_comm]

theorem mem_fieldStrings_iff {s : Text} : (fields : List (Text × Json)) ->
    (s ∈ fieldStrings fields <-> s ∈ fieldLastStrings fields ∨ s ∈ fieldRepeatedStrings fields)
  | [] => (or_iff_left List.not_mem_nil).symm
  | (key, value) :: rest => by
      rw [fieldStrings, fieldLastStrings, fieldRepeatedStrings, List.mem_append, List.mem_append,
        List.mem_append, mem_fieldStrings_iff rest]
      split
      · rw [or_or_or_comm, or_iff_right (List.not_mem_nil (a := s))]
      · rw [mem_strings_iff value, or_or_or_comm]

end

/-!
## What is kept

The map stays sorted by its keys, so that it has each of them once, and an insertion
replaces what was there under the key.
-/

def SortedKeys (map : List (Text × Json)) : Prop :=
  map.Pairwise (fun a b => a.1 < b.1)

theorem text_ne_of_lt {a b : Text} (h : a < b) : a ≠ b := by
  rintro rfl
  exact List.lt_irrefl a h

theorem text_lt_of_not_lt {a b : Text} (hne : a ≠ b) (hnot : ¬ a < b) : b < a := by
  refine Decidable.byContradiction ?_
  intro hother
  exact hne (List.le_antisymm (List.not_lt.mp hother) (List.not_lt.mp hnot))

theorem mem_insertField {key : Text} {value : Json} {map : List (Text × Json)}
    (hsorted : SortedKeys map) {field : Text × Json} :
    field ∈ insertField key value map <->
      field = (key, value) ∨ field.1 ≠ key ∧ field ∈ map := by
  induction map with
  | nil => simp [insertField]
  | cons first rest ih =>
    obtain ⟨k, v⟩ := first
    rcases List.pairwise_cons.mp hsorted with ⟨hfirst, hrest⟩
    rw [insertField]
    split
    · rename_i hkey
      subst hkey
      rw [List.mem_cons, List.mem_cons]
      refine or_congr_right ?_
      constructor
      · intro hmem
        exact ⟨(text_ne_of_lt (hfirst field hmem)).symm, Or.inr hmem⟩
      · rintro ⟨hne, rfl | hmem⟩
        · exact absurd rfl hne
        · exact hmem
    split
    · rename_i hlt
      rw [List.mem_cons]
      refine or_congr_right (and_iff_right_of_imp ?_).symm
      intro hmem
      rcases List.mem_cons.mp hmem with rfl | hlater
      · exact (text_ne_of_lt hlt).symm
      · exact (text_ne_of_lt (List.lt_trans hlt (hfirst field hlater))).symm
    · rename_i hkey _
      rw [List.mem_cons, List.mem_cons, ih hrest]
      constructor
      · rintro (rfl | hnew | ⟨hne, hold⟩)
        · exact Or.inr ⟨Ne.symm hkey, Or.inl rfl⟩
        · exact Or.inl hnew
        · exact Or.inr ⟨hne, Or.inr hold⟩
      · rintro (hnew | ⟨hne, rfl | hold⟩)
        · exact Or.inr (Or.inl hnew)
        · exact Or.inl rfl
        · exact Or.inr (Or.inr ⟨hne, hold⟩)

theorem sortedKeys_insertField {key : Text} {value : Json} {map : List (Text × Json)}
    (hsorted : SortedKeys map) : SortedKeys (insertField key value map) := by
  induction map with
  | nil => exact List.pairwise_singleton _ _
  | cons first rest ih =>
    obtain ⟨k, v⟩ := first
    rcases List.pairwise_cons.mp hsorted with ⟨hfirst, hrest⟩
    rw [insertField]
    split
    · exact List.pairwise_cons.mpr ⟨hfirst, hrest⟩
    split
    · rename_i hlt
      refine List.pairwise_cons.mpr ⟨?_, hsorted⟩
      intro field hmem
      rcases List.mem_cons.mp hmem with rfl | hlater
      · exact hlt
      · exact List.lt_trans hlt (hfirst field hlater)
    · rename_i hkey hnot
      refine List.pairwise_cons.mpr ⟨?_, ih hrest⟩
      intro field hmem
      rcases (mem_insertField hrest).mp hmem with rfl | ⟨_, hold⟩
      · exact text_lt_of_not_lt hkey hnot
      · exact hfirst field hold

theorem mem_fieldStrings {s : Text} {fields : List (Text × Json)} :
    s ∈ fieldStrings fields <-> exists field, field ∈ fields ∧ s ∈ field.2.strings := by
  induction fields with
  | nil => simp [fieldStrings]
  | cons field rest ih =>
    rw [fieldStrings, List.mem_append, ih, List.exists_mem_cons_iff]

/-- What a later member of one of the keys will not replace. -/
def LeftIn (s : Text) (map : List (Text × Json)) (keys : List Text) : Prop :=
  exists field, field ∈ map ∧ field.1 ∉ keys ∧ s ∈ field.2.strings

theorem leftIn_insertField {s key : Text} {value : Json} {map : List (Text × Json)}
    {keys : List Text} (hsorted : SortedKeys map) :
    LeftIn s (insertField key value map) keys <->
      (key ∉ keys ∧ s ∈ value.strings) ∨ LeftIn s map (key :: keys) := by
  unfold LeftIn
  simp only [mem_insertField hsorted, List.mem_cons, not_or]
  constructor
  · rintro ⟨field, rfl | ⟨hne, hmem⟩, hkeys, hs⟩
    · exact Or.inl ⟨hkeys, hs⟩
    · exact Or.inr ⟨field, hmem, ⟨hne, hkeys⟩, hs⟩
  · rintro (⟨hkeys, hs⟩ | ⟨field, hmem, ⟨hne, hkeys⟩, hs⟩)
    · exact ⟨(key, value), Or.inl rfl, hkeys, hs⟩
    · exact ⟨field, Or.inr ⟨hne, hmem⟩, hkeys, hs⟩

mutual

/-- The value has the strings under the last member of each key. -/
theorem mem_strings_build {s : Text} : (document : Json) ->
    (s ∈ document.build.strings <-> s ∈ document.lastStrings)
  | array items => by
      rw [build, strings, lastStrings]
      exact mem_itemStrings_build items
  | object fields => by
      rw [build, strings, lastStrings, mem_fieldStrings_build [] fields List.Pairwise.nil]
      refine or_iff_right ?_
      rintro ⟨field, hmem, -⟩
      cases hmem
  | null => Iff.rfl
  | bool _ => Iff.rfl
  | int _ => Iff.rfl
  | float _ => Iff.rfl
  | string _ => Iff.rfl

theorem mem_itemStrings_build {s : Text} : (items : List Json) ->
    (s ∈ itemStrings (buildItems items) <-> s ∈ itemLastStrings items)
  | [] => Iff.rfl
  | item :: rest => by
      rw [buildItems, itemStrings, itemLastStrings, List.mem_append, List.mem_append,
        mem_strings_build item, mem_itemStrings_build rest]

theorem mem_fieldStrings_build {s : Text} (map : List (Text × Json)) :
    (fields : List (Text × Json)) -> SortedKeys map ->
    (s ∈ fieldStrings (buildFields map fields) <->
      LeftIn s map (fields.map Prod.fst) ∨ s ∈ fieldLastStrings fields)
  | [], _ => by
      rw [buildFields, mem_fieldStrings, fieldLastStrings, or_iff_left List.not_mem_nil]
      simp [LeftIn]
  | (key, value) :: rest, hsorted => by
      rw [buildFields, mem_fieldStrings_build _ rest (sortedKeys_insertField hsorted),
        leftIn_insertField hsorted, mem_strings_build value, fieldLastStrings, List.mem_append,
        List.map_cons, or_comm (b := LeftIn s map _), or_assoc]
      refine or_congr_right (or_congr_left ?_)
      split
      · rename_i hagain
        exact iff_of_false (fun h => h.1 (List.contains_iff_mem.mp hagain)) List.not_mem_nil
      · rename_i hlast
        exact and_iff_right (fun hmem => hlast (List.contains_iff_mem.mpr hmem))

end

end Json
end Lib
end PrxWaf
