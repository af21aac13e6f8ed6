import Mathlib.Data.String.Basic
import StreamFusion.Dictionary

/-!
# Names and entries

Dictionaries keep their entries in the order of their names, so a name has one entry at most. To
insert an entry is to remove what stood under its name and to add the entry, up to the order of
entries; to look a name up is to find the one entry that removing would take away.
-/

namespace StreamFusion

namespace Dictionary

variable {β : Type} {entries : Dictionary β} {name : String} {value : β}

/-- The names of the entries increase. -/
def Sorted (entries : Dictionary β) : Prop :=
  entries.Pairwise fun earlier later => earlier.1 < later.1

theorem erase_eq_self (h : ∀ entry ∈ entries, entry.1 ≠ name) : entries.erase name = entries :=
  List.filter_eq_self.2 fun entry hmem => decide_eq_true (h entry hmem)

theorem Sorted.erase (h : entries.Sorted) (name : String) : (entries.erase name).Sorted :=
  h.filter _

theorem mem_insert {entry : String × β} (h : entry ∈ entries.insert name value) :
    entry = (name, value) ∨ entry ∈ entries := by
  induction entries with
  | nil => exact .inl (List.mem_singleton.1 h)
  | cons first rest ih =>
    obtain ⟨key, old⟩ := first
    unfold insert at h
    split at h
    · exact List.mem_cons.1 h
    · split at h
      · rcases List.mem_cons.1 h with hentry | hrest
        · exact .inl hentry
        · exact .inr (List.mem_cons_of_mem _ hrest)
      · rcases List.mem_cons.1 h with hentry | hrest
        · exact .inr (hentry ▸ List.mem_cons_self)
        · rcases ih hrest with hentry | hmem
          · exact .inl hentry
          · exact .inr (List.mem_cons_of_mem _ hmem)

theorem Sorted.insert (h : entries.Sorted) (name : String) (value : β) :
    (entries.insert name value).Sorted := by
  induction entries with
  | nil => exact List.pairwise_singleton _ _
  | cons first rest ih =>
    obtain ⟨key, old⟩ := first
    obtain ⟨hfirst, hrest⟩ := List.pairwise_cons.1 h
    unfold Dictionary.insert
    split
    · rename_i hlt
      refine List.pairwise_cons.2 ⟨fun entry hmem => ?_, h⟩
      rcases List.mem_cons.1 hmem with rfl | hmem
      · exact hlt
      · exact lt_trans hlt (hfirst entry hmem)
    · rename_i hnot
      split
      · rename_i hsame
        subst hsame
        exact List.pairwise_cons.2 ⟨hfirst, hrest⟩
      · rename_i hne
        have hlt : key < name := lt_of_le_of_ne (not_lt.1 hnot) (Ne.symm hne)
        refine List.pairwise_cons.2 ⟨fun entry hmem => ?_, ih hrest⟩
        rcases mem_insert hmem with rfl | hmem
        · exact hlt
        · exact hfirst entry hmem

/-- The names behind the first entry are not its name. -/
theorem Sorted.erase_tail {first : String × β} {rest : Dictionary β} (h : Sorted (first :: rest)) :
    rest.erase first.1 = rest :=
  erase_eq_self fun entry hmem => ne_of_gt ((List.pairwise_cons.1 h).1 entry hmem)

theorem erase_cons_self (key : String) (old : β) (rest : Dictionary β) :
    erase key ((key, old) :: rest) = rest.erase key :=
  List.filter_cons_of_neg (by simp)

theorem erase_cons_of_ne {key : String} (h : key ≠ name) (old : β) (rest : Dictionary β) :
    erase name ((key, old) :: rest) = (key, old) :: rest.erase name :=
  List.filter_cons_of_pos (by simpa using h)

/-- Up to order, inserting an entry replaces what stood under its name. -/
theorem Sorted.insert_perm (h : entries.Sorted) (name : String) (value : β) :
    (entries.insert name value).Perm ((name, value) :: entries.erase name) := by
  induction entries with
  | nil => exact .refl _
  | cons first rest ih =>
    obtain ⟨key, old⟩ := first
    obtain ⟨hfirst, hrest⟩ := List.pairwise_cons.1 h
    unfold Dictionary.insert
    split
    · rename_i hlt
      have hnames : ∀ entry ∈ (key, old) :: rest, entry.1 ≠ name := by
        intro entry hmem
        rcases List.mem_cons.1 hmem with rfl | hmem
        · exact ne_of_gt hlt
        · exact ne_of_gt (lt_trans hlt (hfirst entry hmem))
      rw [erase_eq_self hnames]
    · split
      · rename_i hsame
        subst hsame
        rw [erase_cons_self, h.erase_tail]
      · rename_i hne
        rw [erase_cons_of_ne (Ne.symm hne)]
        exact ((ih hrest).cons _).trans (.swap _ _ _)

/-- The entry that a name is found to have is the one that removing takes away. -/
theorem Sorted.perm_of_find? (h : entries.Sorted) (hfind : entries.find? name = some value) :
    entries.Perm ((name, value) :: entries.erase name) := by
  induction entries with
  | nil => exact absurd hfind (by simp)
  | cons first rest ih =>
    obtain ⟨key, old⟩ := first
    rw [find?] at hfind
    split at hfind
    · rename_i hsame
      subst hsame
      rw [erase_cons_self, h.erase_tail, Option.some.inj hfind]
    · rename_i hne
      rw [erase_cons_of_ne hne]
      exact ((ih (List.pairwise_cons.1 h).2 hfind).cons _).trans (.swap _ _ _)

theorem Sorted.find?_of_mem (h : entries.Sorted) (hmem : (name, value) ∈ entries) :
    entries.find? name = some value := by
  induction entries with
  | nil => exact absurd hmem (by simp)
  | cons first rest ih =>
    obtain ⟨key, old⟩ := first
    obtain ⟨hfirst, hrest⟩ := List.pairwise_cons.1 h
    rcases List.mem_cons.1 hmem with hentry | hmem
    · cases hentry
      exact if_pos rfl
    · have hne : key ≠ name := ne_of_lt (hfirst _ hmem)
      rw [find?, if_neg hne]
      exact ih hrest hmem

theorem erase_of_find?_eq_none (hfind : entries.find? name = none) :
    entries.erase name = entries := by
  induction entries with
  | nil => rfl
  | cons first rest ih =>
    obtain ⟨key, old⟩ := first
    rw [find?] at hfind
    split at hfind
    · exact absurd hfind (by simp)
    · rename_i hne
      rw [erase_cons_of_ne hne, ih hfind]

end Dictionary

end StreamFusion
