import ComputeGraph.Json.Double
import ComputeGraph.Json.Printer
import ComputeGraph.Shape.Basic

/-!
# Attributes of nodes

What the engine is told about a node besides its operands. Shapes and axes are stored as the engine
counts them. The attributes of a node are a map from keys to values, listed in the order of the
keys.

* `Attribute` — a value;
* `Attributes` — the map, with `insert` and `find?`.

**A value put in is found again and no other is touched:** `find?_insert`.
-/

namespace ComputeGraph

/-- Nodes are numbered from zero in the order in which they are added. -/
abbrev NodeId := Nat

/-- The value of an attribute. -/
inductive Attribute where
  | int (value : Int)
  | float (value : Float)
  | bool (value : Bool)
  | text (value : String)
  | shape (value : EngineShape)
  | axis (value : EngineAxis)
  | node (id : NodeId)
  | path (bytes : List UInt8)
  | literal (value : String)
deriving DecidableEq

namespace Attribute

/-- The integer that a value is. -/
def int? : Attribute → Option Int
  | .int value => some value
  | _ => none

/-- The double that a value is. -/
def float? : Attribute → Option Float
  | .float value => some value
  | _ => none

/-- The text of a value that is a text or a literal. -/
def text? : Attribute → Option String
  | .text value => some value
  | .literal value => some value
  | _ => none

/-- The shape that a value is. -/
def shape? : Attribute → Option EngineShape
  | .shape value => some value
  | _ => none

/-- The axis that a value is. -/
def axis? : Attribute → Option EngineAxis
  | .axis value => some value
  | _ => none

/-- The node that a value refers to. -/
def node? : Attribute → Option NodeId
  | .node id => some id
  | _ => none

/-- The value in JSON, without its type. A path must be a text in UTF-8. -/
def toJson? : Attribute → Option (Json (List Char))
  | .int value => some (.ofInt value)
  | .float value => some (.ofDouble value)
  | .bool value => some (.bool value)
  | .text value => some (.string value.toList)
  | .shape value => some value.toJson
  | .axis value => some (.ofNat value.number)
  | .node id => some (.ofNat id)
  | .path bytes => (String.fromUTF8? ⟨bytes.toArray⟩).map fun value => .string value.toList
  | .literal value => some (.string value.toList)

end Attribute

/-! ### Maps of attributes -/

/-- Entries are in the order of their keys, and no key occurs twice. -/
def KeysSorted {α : Type} (entries : List (String × α)) : Prop :=
  entries.Pairwise fun a b => a.1 < b.1

/-- Puts a value at the place of its key, in place of an earlier value. -/
def insertSorted {α : Type} (key : String) (value : α) : List (String × α) → List (String × α)
  | [] => [(key, value)]
  | (k, v) :: entries =>
    if key = k then (key, value) :: entries
    else if key < k then (key, value) :: (k, v) :: entries
    else (k, v) :: insertSorted key value entries

theorem mem_insertSorted {α : Type} {key : String} {value : α} {entries : List (String × α)}
    {e : String × α} (h : e ∈ insertSorted key value entries) : e = (key, value) ∨ e ∈ entries := by
  induction entries with
  | nil => exact .inl (by simpa [insertSorted] using h)
  | cons head entries ih =>
    obtain ⟨k, v⟩ := head
    rw [insertSorted] at h
    split at h
    · rcases List.mem_cons.1 h with h | h
      · exact .inl h
      · exact .inr (List.mem_cons_of_mem _ h)
    · split at h
      · exact List.mem_cons.1 h
      · rcases List.mem_cons.1 h with h | h
        · exact .inr (h ▸ List.mem_cons_self)
        · exact (ih h).imp_right (List.mem_cons_of_mem _)

theorem KeysSorted.insertSorted {α : Type} {entries : List (String × α)} (h : KeysSorted entries)
    (key : String) (value : α) : KeysSorted (insertSorted key value entries) := by
  induction entries with
  | nil => exact List.pairwise_singleton _ _
  | cons head entries ih =>
    obtain ⟨k, v⟩ := head
    obtain ⟨hhead, htail⟩ := List.pairwise_cons.1 h
    rw [ComputeGraph.insertSorted]
    split
    · rename_i heq
      subst heq
      exact List.pairwise_cons.2 ⟨hhead, htail⟩
    · rename_i hne
      split
      · rename_i hlt
        refine List.pairwise_cons.2 ⟨fun e he => ?_, h⟩
        rcases List.mem_cons.1 he with he | he
        · exact he ▸ hlt
        · exact String.lt_trans hlt (hhead e he)
      · rename_i hle
        have hgt : k < key := by
          rcases Decidable.em (k < key) with hgt | hge
          · exact hgt
          · exact absurd (String.le_antisymm (String.not_lt.1 hge) (String.not_lt.1 hle)) hne
        refine List.pairwise_cons.2 ⟨fun e he => ?_, ih htail⟩
        rcases mem_insertSorted he with he | he
        · exact he ▸ hgt
        · exact hhead e he

/-- The attributes of a node. -/
structure Attributes where
  entries : List (String × Attribute)
  sorted : KeysSorted entries
deriving DecidableEq

namespace Attributes

/-- No attributes. -/
def empty : Attributes :=
  ⟨[], List.Pairwise.nil⟩

/-- The attributes with a value at a key, in place of an earlier one. -/
def insert (key : String) (value : Attribute) (attributes : Attributes) : Attributes :=
  ⟨insertSorted key value attributes.entries, attributes.sorted.insertSorted key value⟩

/-- The attributes of a list, in which a later entry replaces an earlier one of its key. -/
def ofList (entries : List (String × Attribute)) : Attributes :=
  entries.foldl (fun attributes e => attributes.insert e.1 e.2) empty

/-- The value at a key. -/
def find? (attributes : Attributes) (key : String) : Option Attribute :=
  attributes.entries.lookup key

/-- An entry as a member of an object. -/
def entryToJson? (entry : String × Attribute) : Option (List Char × Json (List Char)) :=
  entry.2.toJson?.map fun value => (entry.1.toList, value)

/-- The attributes as an object, unless a path is not a text. -/
def toJson? (attributes : Attributes) : Option (Json (List Char)) :=
  (attributes.entries.mapM entryToJson?).map .object

theorem lookup_insertSorted {α : Type} (key k : String) (value : α) (entries : List (String × α)) :
    (insertSorted key value entries).lookup k =
      if k = key then some value else entries.lookup k := by
  induction entries with
  | nil =>
    by_cases h : k = key
    · simp [insertSorted, h]
    · have h' : (k == key) = false := by simpa using h
      simp [insertSorted, List.lookup_cons, h, h']
  | cons head entries ih =>
    obtain ⟨k', v⟩ := head
    rw [insertSorted]
    split
    · rename_i heq
      subst heq
      by_cases h : k = key
      · simp [h]
      · have h' : (k == key) = false := by simpa using h
        simp [List.lookup_cons, h, h']
    · rename_i hne
      split
      · by_cases h : k = key
        · simp [h]
        · have h' : (k == key) = false := by simpa using h
          simp [List.lookup_cons, h, h']
      · by_cases h : k = k'
        · subst h
          simp [Ne.symm hne]
        · have h' : (k == k') = false := by simpa using h
          simp [List.lookup_cons, h', ih]

@[simp] theorem find?_empty (key : String) : empty.find? key = none :=
  rfl

@[simp] theorem find?_insert (attributes : Attributes) (key k : String) (value : Attribute) :
    (attributes.insert key value).find? k = if k = key then some value else attributes.find? k :=
  lookup_insertSorted key k value attributes.entries

end Attributes

end ComputeGraph
