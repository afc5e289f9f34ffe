/-!
# Records

A record is a list of named entries, oldest first. Writing to a name replaces its entry in place or,
if there is none, adds one at the end; so a record built by writing has distinct names in the order
of their first writing.
-/

namespace Scriptlet

/-- Named entries in order. -/
abbrev Record (α : Type) := List (String × α)

namespace Record

variable {α : Type}

/-- The entry of a name. -/
def get? : Record α → String → Option α
  | [], _ => none
  | entry :: rest, name => if entry.1 = name then some entry.2 else get? rest name

/-- Writes an entry. -/
def put (name : String) (value : α) : Record α → Record α
  | [] => [(name, value)]
  | entry :: rest => if entry.1 = name then (name, value) :: rest else entry :: put name value rest

/-- The names in order. -/
def names (record : Record α) : List String := record.map Prod.fst

/-- Removes the entries of a name. -/
def drop (record : Record α) (name : String) : Record α := record.filter (·.1 ≠ name)

/-- A name reads what was written to it last, and writing leaves every other name alone. -/
theorem get?_put (record : Record α) (name other : String) (value : α) :
    get? (put name value record) other = if name = other then some value else get? record other := by
  induction record with
  | nil => simp [put, get?]
  | cons entry rest ih =>
    by_cases h : entry.1 = name <;> by_cases ho : name = other <;> grind [put, get?]

/-- Writing keeps the names and adds the written one at the end if it is new. -/
theorem names_put (record : Record α) (name : String) (value : α) :
    names (put name value record) =
      if name ∈ names record then names record else names record ++ [name] := by
  induction record with
  | nil => simp [put, names]
  | cons entry rest ih => by_cases h : entry.1 = name <;> grind [put, names]

/-- Only names of entries can be read. -/
theorem get?_eq_none_iff {record : Record α} {name : String} :
    record.get? name = none ↔ name ∉ names record := by
  induction record with
  | nil => simp [get?, names]
  | cons entry rest ih => by_cases h : entry.1 = name <;> grind [get?, names]

theorem put_of_get?_eq_none {record : Record α} {name : String} {value : α}
    (h : record.get? name = none) : put name value record = record ++ [(name, value)] := by
  induction record with
  | nil => rfl
  | cons entry rest ih => by_cases hentry : entry.1 = name <;> grind [put, get?]

/-- Writing adds nothing but the written entry. -/
theorem mem_of_mem_put {record : Record α} {name : String} {value : α} {entry : String × α}
    (h : entry ∈ put name value record) : entry = (name, value) ∨ entry ∈ record := by
  induction record with
  | nil => exact .inl (by simpa [put] using h)
  | cons first rest ih => by_cases hfirst : first.1 = name <;> grind [put]

theorem values_put_subset (record : Record α) (name : String) (value : α) :
    (put name value record).map (·.2) ⊆ value :: record.map (·.2) := by
  intro other hother
  obtain ⟨entry, hentry, rfl⟩ := List.mem_map.mp hother
  rcases mem_of_mem_put hentry with rfl | hentry
  · exact List.mem_cons_self
  · exact List.mem_cons_of_mem _ (List.mem_map_of_mem hentry)

theorem mem_of_get?_eq_some {record : Record α} {name : String} {value : α}
    (h : record.get? name = some value) : (name, value) ∈ record := by
  induction record with
  | nil => simp [get?] at h
  | cons first rest ih => by_cases hfirst : first.1 = name <;> grind [get?]

end Record

end Scriptlet
