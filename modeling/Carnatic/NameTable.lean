/-
  Tables of things by name.

  The entries stand in increasing order of their names; a
  name occurs once.  Text is ordered by the code points of
  its characters.

  Key definitions include:
    * `NameTable`
    * `NameTable.insert`
    * `NameTable.get?`
    * `NameTable.names`
-/

------------------------------------------------------------
-- Name Tables
------------------------------------------------------------

namespace Carnatic

/- Entries in increasing order of their names. -/
structure NameTable (α : Type) where
  entries : List (String × α)
  ordered : (entries.map Prod.fst).Pairwise (· < ·)
deriving Repr

namespace NameTable

variable {α : Type}

/- Tables are compared entry by entry. -/
instance [BEq α] : BEq (NameTable α) where
  beq table other := table.entries == other.entries

/- The table without entries. -/
def empty : NameTable α where
  entries := []
  ordered := .nil

/- The entry of a name. -/
def get?
    (table : NameTable α)
    (name : String) : Option α :=
  table.entries.lookup name

/- All names, in increasing order. -/
def names (table : NameTable α) : List String :=
  table.entries.map Prod.fst

/- The number of entries. -/
def size (table : NameTable α) : Nat :=
  table.entries.length

------------------------------------------------------------
-- Insertion
------------------------------------------------------------

/- Put an entry where its name belongs, in place of an entry
of the same name. -/
def insertEntry
    (name : String)
    (value : α) :
    List (String × α) → List (String × α)
| [] => [(name, value)]
| entry :: rest =>
    if name < entry.1 then
      (name, value) :: entry :: rest
    else if name = entry.1 then
      (name, value) :: rest
    else
      entry :: insertEntry name value rest

theorem mem_map_fst_insertEntry
    {name other : String}
    {value : α}
    {entries : List (String × α)} :
    other ∈ (insertEntry name value entries).map Prod.fst ↔
      other = name ∨ other ∈ entries.map Prod.fst := by
  induction entries with
  | nil => simp [insertEntry]
  | cons entry rest ih =>
      simp only [insertEntry]
      split
      · simp
      · split
        · rename_i hSame
          simp [hSame]
        · simp only [List.map_cons, List.mem_cons, ih]
          exact or_left_comm

/- An entry that is put where its name belongs keeps the names
in order. -/
theorem pairwise_insertEntry
    {name : String}
    {value : α}
    {entries : List (String × α)}
    (hOrdered :
      (entries.map Prod.fst).Pairwise (· < ·)) :
    ((insertEntry name value entries).map
      Prod.fst).Pairwise (· < ·) := by
  induction entries with
  | nil => simp [insertEntry]
  | cons entry rest ih =>
      rw [List.map_cons, List.pairwise_cons] at hOrdered
      rcases hOrdered with ⟨hFirst, hRest⟩
      simp only [insertEntry]
      split
      · rename_i hBefore
        rw [List.map_cons, List.pairwise_cons]
        refine ⟨?_, List.pairwise_cons.mpr ⟨hFirst, hRest⟩⟩
        intro other hOther
        rcases List.mem_cons.mp hOther with rfl | hLater
        · exact hBefore
        · exact String.lt_trans hBefore
            (hFirst other hLater)
      · rename_i hNotBefore
        split
        · rename_i hSame
          rw [List.map_cons, List.pairwise_cons, hSame]
          exact ⟨hFirst, hRest⟩
        · rename_i hOther
          have hAfter : entry.1 < name :=
            Std.lt_of_le_of_ne (String.not_lt.mp hNotBefore)
              (Ne.symm hOther)
          rw [List.map_cons, List.pairwise_cons]
          refine ⟨?_, ih hRest⟩
          intro later hLater
          rcases mem_map_fst_insertEntry.mp hLater with
            rfl | hOld
          · exact hAfter
          · exact hFirst later hOld

/- Add an entry, replacing one of the same name. -/
def insert
    (table : NameTable α)
    (name : String)
    (value : α) : NameTable α where
  entries := insertEntry name value table.entries
  ordered := pairwise_insertEntry table.ordered

end NameTable

end Carnatic
