import Std.Data.TreeMap

/-!
# Tables

A table binds names to values, one value a name. Its entries are in the order of the names.

* `Table.insert`, `Table.get?`: binding and looking up.
* `Table.size`: the number of names.
-/

namespace Stylesheet

/-- A finite map from names. -/
structure Table (α : Type) where
  map : Std.TreeMap String α := {}

namespace Table

variable {α : Type}

def empty : Table α := {}

instance : Inhabited (Table α) := ⟨empty⟩

/-- What a name is bound to. -/
def get? (t : Table α) (name : String) : Option α := t.map[name]?

def contains (t : Table α) (name : String) : Bool := (t.get? name).isSome

/-- Binds a name, replacing what it was bound to. -/
def insert (t : Table α) (name : String) (value : α) : Table α := ⟨t.map.insert name value⟩

/-- The number of names. -/
def size (t : Table α) : Nat := t.map.size

def isEmpty (t : Table α) : Bool := t.map.isEmpty

/-- Names and values in the order of the names. -/
def entries (t : Table α) : List (String × α) := t.map.toList

/-- Binds a list of names in order. -/
def insertAll (t : Table α) (entries : List (String × α)) : Table α :=
  entries.foldl (fun t e => t.insert e.1 e.2) t

/-! ## Lookup after insertion -/

@[simp] theorem get?_empty (name : String) : (empty : Table α).get? name = none := by
  simp [empty, get?]

@[simp] theorem get?_insert_self (t : Table α) (name : String) (value : α) :
    (t.insert name value).get? name = some value := by
  simp [insert, get?]

theorem get?_insert_of_ne (t : Table α) {name other : String} (h : other ≠ name) (value : α) :
    (t.insert name value).get? other = t.get? other := by
  simp [insert, get?, Std.TreeMap.getElem?_insert, Ne.symm h]

theorem mem_of_get?_insertAll {t : Table α} {entries : List (String × α)} {name : String}
    {value : α} (h : (t.insertAll entries).get? name = some value) :
    (name, value) ∈ entries ∨ t.get? name = some value := by
  induction entries generalizing t with
  | nil => exact .inr h
  | cons e entries ih =>
    rcases ih h with hmem | hget
    · exact .inl (List.mem_cons_of_mem e hmem)
    · by_cases hname : name = e.1
      · subst hname
        rw [get?_insert_self] at hget
        cases hget
        exact .inl List.mem_cons_self
      · rw [get?_insert_of_ne t hname] at hget
        exact .inr hget

end Table

end Stylesheet
