/-!
Named values in an order that shows: the fields of an object, the columns of a
record, the entries of a table of codes.  Setting a name that is already there
replaces its value and keeps its place; a new name goes to the end.
-/

namespace RowContract

/-- Names with their values, in the order in which the names were first set. -/
abbrev Fields (α : Type) := List (String × α)

namespace Fields

variable {α : Type}

def get? : Fields α → String → Option α
  | [], _ => none
  | (n, v) :: r, name => if n = name then some v else get? r name

def set : Fields α → String → α → Fields α
  | [], name, value => [(name, value)]
  | (n, v) :: r, name, value =>
    if n = name then (n, value) :: r else (n, v) :: set r name value

def names (fs : Fields α) : List String := fs.map Prod.fst

def contains (fs : Fields α) (name : String) : Bool := (fs.get? name).isSome

def setAll (fs : Fields α) (entries : List (String × α)) : Fields α :=
  entries.foldl (fun fs e => fs.set e.1 e.2) fs

/-- The fields that a list of entries makes: the last value of a name at its first place. -/
def ofList (entries : List (String × α)) : Fields α := setAll [] entries

@[simp] theorem get?_nil (name : String) : get? ([] : Fields α) name = none := rfl

theorem get?_cons (n : String) (v : α) (r : Fields α) (name : String) :
    get? ((n, v) :: r) name = if n = name then some v else get? r name := rfl

theorem get?_set_same (fs : Fields α) (name : String) (value : α) :
    (fs.set name value).get? name = some value := by
  induction fs with
  | nil => simp [set, get?]
  | cons e r ih =>
    obtain ⟨n, v⟩ := e
    by_cases h : n = name <;> simp [set, get?, h, ih]

theorem get?_set_of_ne (fs : Fields α) {name other : String} (value : α) (h : other ≠ name) :
    (fs.set name value).get? other = fs.get? other := by
  induction fs with
  | nil => simp [set, get?, Ne.symm h]
  | cons e r ih =>
    obtain ⟨n, v⟩ := e
    by_cases hn : n = name
    · subst hn
      simp [set, get?, Ne.symm h]
    · simp only [set, hn, if_false, get?_cons, ih]

theorem names_set (fs : Fields α) (name : String) (value : α) :
    (fs.set name value).names = if name ∈ fs.names then fs.names else fs.names ++ [name] := by
  induction fs with
  | nil => simp [set, names]
  | cons e r ih =>
    obtain ⟨n, v⟩ := e
    by_cases h : n = name
    · simp [set, names, h]
    · simp only [names, List.map_cons] at ih ⊢
      simp only [set, h, if_false, List.map_cons, ih, List.mem_cons, Ne.symm h, false_or]
      split <;> simp [*]

end Fields

end RowContract
