/-!
# Dictionaries

A dictionary is a list of entries with strictly increasing names, so two dictionaries hold the same
entries exactly when they are the same list. `insert`, `find?` and `erase` keep that order;
`insert` replaces an older entry of the same name.
-/

namespace StreamFusion

/-- Entries in increasing order of their names. -/
abbrev Dictionary (β : Type) := List (String × β)

namespace Dictionary

variable {β γ : Type}

/-- The entry of a name. -/
def find? (name : String) : Dictionary β → Option β
  | [] => none
  | (key, value) :: rest => if key = name then some value else find? name rest

/-- Puts an entry at its place, in the place of an older one of the same name. -/
def insert (name : String) (value : β) : Dictionary β → Dictionary β
  | [] => [(name, value)]
  | (key, old) :: rest =>
    if name < key then (name, value) :: (key, old) :: rest
    else if name = key then (name, value) :: rest
    else (key, old) :: insert name value rest

/-- Removes the entry of a name, if there is one. -/
def erase (name : String) (entries : Dictionary β) : Dictionary β :=
  entries.filter (fun entry => entry.1 ≠ name)

/-- The dictionary of a list of entries; a later entry replaces an earlier one of its name. -/
def ofEntries (entries : List (String × β)) : Dictionary β :=
  entries.foldl (fun found entry => insert entry.1 entry.2 found) []

@[simp] theorem find?_nil (name : String) : find? name ([] : Dictionary β) = none := rfl

theorem find?_insert_self (name : String) (value : β) (entries : Dictionary β) :
    find? name (insert name value entries) = some value := by
  induction entries with
  | nil => simp [insert, find?]
  | cons entry rest ih =>
    obtain ⟨key, old⟩ := entry
    unfold insert
    split
    · simp [find?]
    · split
      · simp [find?]
      · rename_i h
        simp [find?, Ne.symm h, ih]

theorem find?_insert_of_ne {name other : String} (h : other ≠ name) (value : β)
    (entries : Dictionary β) : find? other (insert name value entries) = find? other entries := by
  induction entries with
  | nil => simp [insert, find?, h.symm]
  | cons entry rest ih =>
    obtain ⟨key, old⟩ := entry
    unfold insert
    split
    · simp [find?, h.symm]
    · split
      · rename_i hk
        subst hk
        simp [find?, h.symm]
      · simp [find?, ih]

theorem find?_erase_self (name : String) (entries : Dictionary β) :
    find? name (erase name entries) = none := by
  induction entries with
  | nil => rfl
  | cons entry rest ih =>
    obtain ⟨key, value⟩ := entry
    by_cases h : key = name
    · simpa [erase, h] using ih
    · simpa [erase, h, find?] using ih

theorem find?_erase_of_ne {name other : String} (h : other ≠ name) (entries : Dictionary β) :
    find? other (erase name entries) = find? other entries := by
  induction entries with
  | nil => rfl
  | cons entry rest ih =>
    obtain ⟨key, value⟩ := entry
    by_cases hk : key = name
    · subst hk
      simpa [erase, find?, h.symm] using ih
    · by_cases ho : key = other
      · subst ho
        simp [erase, find?, h]
      · simpa [erase, hk, find?, ho] using ih

end Dictionary

end StreamFusion
