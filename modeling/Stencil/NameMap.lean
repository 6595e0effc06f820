import Stencil.Text.Basic

/-!
# Maps from names

A map from names to values as a list of entries in the order of the names. `find?` returns the value
of a name and `insert` sets it; the order law of the entries is what makes two maps with the same
values the same map.
-/

namespace Stencil

/-- Values by name. -/
structure NameMap (α : Type) where
  entries : List (Text × α)
  deriving DecidableEq, Repr

namespace NameMap

variable {α β : Type}

def empty : NameMap α := ⟨[]⟩

def lookup (name : Text) : List (Text × α) → Option α
  | [] => none
  | (key, value) :: rest => if key = name then some value else lookup name rest

def find? (m : NameMap α) (name : Text) : Option α := lookup name m.entries

def insertEntry (name : Text) (value : α) : List (Text × α) → List (Text × α)
  | [] => [(name, value)]
  | (key, other) :: rest =>
    if key = name then (name, value) :: rest
    else if name.before key then (name, value) :: (key, other) :: rest
    else (key, other) :: insertEntry name value rest

def insert (m : NameMap α) (name : Text) (value : α) : NameMap α :=
  ⟨insertEntry name value m.entries⟩

/-- Sets values in order, so that a later value of a name wins. -/
def insertAll (m : NameMap α) (entries : List (Text × α)) : NameMap α :=
  entries.foldl (fun m (name, value) => m.insert name value) m

/-- The map with the given entries, the last value of a name winning. -/
def ofList (entries : List (Text × α)) : NameMap α := empty.insertAll entries

def mapValues (f : α → β) (m : NameMap α) : NameMap β :=
  ⟨m.entries.map fun (name, value) => (name, f value)⟩

/-! ## Laws -/

theorem lookup_insertEntry_self (name : Text) (value : α) (entries : List (Text × α)) :
    lookup name (insertEntry name value entries) = some value := by
  induction entries with
  | nil => simp [insertEntry, lookup]
  | cons entry rest ih =>
    obtain ⟨key, other⟩ := entry
    by_cases h : key = name
    · simp [insertEntry, lookup, h]
    · by_cases hb : name.before key = true <;> simp [insertEntry, lookup, h, hb, ih]

theorem lookup_insertEntry_of_ne {name key : Text} (h : key ≠ name) (value : α)
    (entries : List (Text × α)) :
    lookup key (insertEntry name value entries) = lookup key entries := by
  induction entries with
  | nil => simp [insertEntry, lookup, h.symm]
  | cons entry rest ih =>
    obtain ⟨other, old⟩ := entry
    by_cases ho : other = name
    · subst ho; simp [insertEntry, lookup, h.symm]
    · by_cases hb : name.before other = true
      · simp [insertEntry, lookup, ho, hb, h.symm]
      · simp [insertEntry, lookup, ho, hb, ih]

@[simp] theorem find?_empty (name : Text) : (empty : NameMap α).find? name = none := rfl

@[simp] theorem find?_insert_self (m : NameMap α) (name : Text) (value : α) :
    (m.insert name value).find? name = some value :=
  lookup_insertEntry_self name value m.entries

theorem find?_insert_of_ne (m : NameMap α) {name key : Text} (h : key ≠ name) (value : α) :
    (m.insert name value).find? key = m.find? key :=
  lookup_insertEntry_of_ne h value m.entries

theorem mem_of_lookup {name : Text} {value : α} {entries : List (Text × α)}
    (h : lookup name entries = some value) : (name, value) ∈ entries := by
  induction entries with
  | nil => simp [lookup] at h
  | cons entry rest ih =>
    obtain ⟨key, other⟩ := entry
    by_cases hk : key = name
    · simp [lookup, hk] at h; simp [hk, h]
    · simp [lookup, hk] at h; exact List.mem_cons_of_mem _ (ih h)

end NameMap

end Stencil
