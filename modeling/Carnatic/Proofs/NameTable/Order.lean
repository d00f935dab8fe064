import Carnatic.NameTable
import Carnatic.Proofs.Reading.First
import Mathlib.Data.List.Induction
import Mathlib.Data.List.Nodup
import Mathlib.Data.String.Basic

/-
  Tables in the order of names.

  The names of a table increase strictly, so a table is
  determined by what its names stand for: the order in which
  entries are written does not matter, but for the last one
  of each name.

  Main declarations:
    * `NameTable.get?_insert`
    * `NameTable.eq_of_get?_eq`
    * `NameTable.isFirstWithout_iff`
    * `NameTable.lastWritten?`
    * `NameTable.get?_insertAll`
    * `NameTable.ofList_entries`
-/

------------------------------------------------------------
-- Single Insertions
------------------------------------------------------------

namespace Carnatic

namespace NameTable

variable {α : Type}

/- Only the name that is inserted stands for something else
than before. -/
theorem lookup_insertEntry
    (name other : String)
    (value : α)
    (entries : List (String × α)) :
    (insertEntry name value entries).lookup other =
      if other = name then
        some value
      else
        entries.lookup other := by
  induction entries with
  | nil =>
      by_cases hName : other = name
      · simp [insertEntry, hName]
      · simp [insertEntry, hName]
  | cons entry rest ih =>
      rcases entry with ⟨key, old⟩
      simp only [insertEntry]
      by_cases hBefore : name < key
      · by_cases hName : other = name
        · simp [hBefore, hName]
        · simp [hBefore, hName, List.lookup_cons,
            beq_false_of_ne hName]
      · rw [if_neg hBefore]
        by_cases hSame : name = key
        · subst hSame
          by_cases hName : other = name
          · simp [hName]
          · simp [hName, List.lookup_cons,
              beq_false_of_ne hName]
        · rw [if_neg hSame, List.lookup_cons, ih,
            List.lookup_cons]
          by_cases hName : other = name
          · subst hName
            simp [beq_false_of_ne hSame]
          · simp [hName]

theorem get?_insert
    (table : NameTable α)
    (name other : String)
    (value : α) :
    (table.insert name value).get? other =
      if other = name then
        some value
      else
        table.get? other :=
  lookup_insertEntry name other value table.entries

/- A name stands for nothing exactly when it is none of the
table's names. -/
theorem get?_eq_none_iff
    {table : NameTable α}
    {name : String} :
    table.get? name = none ↔ name ∉ table.names := by
  simp only [get?, names, List.lookup_eq_none_iff,
    List.mem_map, not_exists, not_and, bne_iff_ne]
  constructor
  · intro hOther entry hEntry hName
    exact hOther entry hEntry hName.symm
  · intro hOther entry hEntry hName
    exact hOther entry hEntry hName.symm

theorem mem_names_iff
    {table : NameTable α}
    {name : String} :
    name ∈ table.names ↔
      ∃ value, table.get? name = some value := by
  rw [← not_iff_not, ← get?_eq_none_iff,
    ← Option.ne_none_iff_exists', not_not]

------------------------------------------------------------
-- Entries And Names
------------------------------------------------------------

theorem nodup_names (table : NameTable α) :
    table.names.Nodup :=
  table.ordered.imp ne_of_lt

/- The entries of a table are what its names stand for. -/
theorem mem_entries_iff
    {table : NameTable α}
    {name : String}
    {value : α} :
    (name, value) ∈ table.entries ↔
      table.get? name = some value := by
  rcases table with ⟨entries, hOrdered⟩
  change (name, value) ∈ entries ↔
    entries.lookup name = some value
  induction entries with
  | nil => simp
  | cons entry rest ih =>
      rcases entry with ⟨key, first⟩
      rw [List.map_cons, List.pairwise_cons] at hOrdered
      rw [List.mem_cons, ih hOrdered.2, List.lookup_cons]
      by_cases hName : name = key
      · subst hName
        have hNone : rest.lookup name = none := by
          rw [List.lookup_eq_none_iff]
          intro later hLater
          have hLess := hOrdered.1 later.1
            (List.mem_map_of_mem hLater)
          simpa using hLess.ne
        simp [hNone, eq_comm]
      · simp [hName, beq_false_of_ne hName]

/- Tables whose names stand for the same are equal. -/
theorem eq_of_get?_eq
    {table other : NameTable α}
    (hSame : ∀ name, table.get? name = other.get? name) :
    table = other := by
  have hPerm : table.entries.Perm other.entries := by
    rw [List.perm_ext_iff_of_nodup
      (List.Nodup.of_map Prod.fst table.nodup_names)
      (List.Nodup.of_map Prod.fst other.nodup_names)]
    rintro ⟨name, value⟩
    rw [mem_entries_iff, mem_entries_iff, hSame]
  have hEntries : table.entries = other.entries :=
    hPerm.eq_of_pairwise
      (fun first second _ _ hLess hGreater =>
        absurd hGreater (lt_asymm hLess))
      (List.pairwise_map.mp table.ordered)
      (List.pairwise_map.mp other.ordered)
  cases table
  cases other
  cases hEntries
  rfl

/- The first entry without a property is the one of the least
name among those without it. -/
theorem isFirstWithout_iff
    {table : NameTable α}
    {property : String × α → Prop}
    {entry : String × α} :
    IsFirstWithout property table.entries entry ↔
      entry ∈ table.entries ∧
        ¬ property entry ∧
        ∀ earlier ∈ table.entries,
          earlier.1 < entry.1 → property earlier := by
  rcases table with ⟨entries, hOrdered⟩
  simp only
  induction entries with
  | nil => simp [not_isFirstWithout_nil]
  | cons first rest ih =>
      rw [List.map_cons, List.pairwise_cons] at hOrdered
      rw [isFirstWithout_cons_iff, ih hOrdered.2]
      have hLater :
          ∀ later ∈ rest, first.1 < later.1 :=
        fun later hMember =>
          hOrdered.1 later.1 (List.mem_map_of_mem hMember)
      simp only [List.mem_cons, forall_eq_or_imp]
      constructor
      · rintro (⟨rfl, hNone⟩ |
          ⟨hFirst, hMember, hNone, hEarlier⟩)
        · refine ⟨.inl rfl, hNone, ?_, ?_⟩
          · intro hLess
            exact absurd hLess (lt_irrefl _)
          · intro later hMember hLess
            exact absurd hLess
              (lt_asymm (hLater later hMember))
        · exact ⟨.inr hMember, hNone, fun _ => hFirst,
            hEarlier⟩
      · rintro ⟨rfl | hMember, hNone, hFirst, hEarlier⟩
        · exact .inl ⟨rfl, hNone⟩
        · exact .inr
            ⟨hFirst (hLater entry hMember), hMember, hNone,
              hEarlier⟩

------------------------------------------------------------
-- Written Entries
------------------------------------------------------------

/- The entry of a name that is written last. -/
def lastWritten?
    (written : List (String × α))
    (name : String) : Option α :=
  (written.filter fun entry =>
    entry.1 = name).getLast?.map Prod.snd

/- Insert entries one after the other. -/
def insertAll
    (table : NameTable α)
    (written : List (String × α)) : NameTable α :=
  written.foldl
    (fun reached entry => reached.insert entry.1 entry.2)
    table

/- The table of some entries, in the order they are written
in. -/
def ofList (written : List (String × α)) : NameTable α :=
  empty.insertAll written

theorem insertAll_concat
    (table : NameTable α)
    (written : List (String × α))
    (entry : String × α) :
    table.insertAll (written ++ [entry]) =
      (table.insertAll written).insert entry.1 entry.2 :=
  List.foldl_concat ..

theorem lastWritten?_concat
    (written : List (String × α))
    (entry : String × α)
    (name : String) :
    lastWritten? (written ++ [entry]) name =
      if name = entry.1 then
        some entry.2
      else
        lastWritten? written name := by
  unfold lastWritten?
  by_cases hName : name = entry.1
  · simp [List.filter_append, hName]
  · simp [List.filter_append, hName, Ne.symm hName]

/- Each name stands for what was written last, or for what it
did before. -/
theorem get?_insertAll
    (table : NameTable α)
    (written : List (String × α))
    (name : String) :
    (table.insertAll written).get? name =
      (lastWritten? written name).or (table.get? name) := by
  induction written using List.reverseRecOn with
  | nil => rfl
  | append_singleton written entry ih =>
      rw [insertAll_concat, get?_insert, ih,
        lastWritten?_concat]
      split <;> rfl

theorem get?_ofList
    (written : List (String × α))
    (name : String) :
    (ofList written).get? name =
      lastWritten? written name := by
  rw [ofList, get?_insertAll]
  exact Option.or_none

theorem mem_of_lastWritten?
    {written : List (String × α)}
    {name : String}
    {value : α}
    (hLast : lastWritten? written name = some value) :
    (name, value) ∈ written := by
  rcases Option.map_eq_some_iff.mp hLast with
    ⟨entry, hEntry, rfl⟩
  have hMember := List.mem_of_getLast? hEntry
  rw [List.mem_filter, decide_eq_true_iff] at hMember
  rw [← hMember.2]
  exact hMember.1

theorem lastWritten?_eq_none_iff
    {written : List (String × α)}
    {name : String} :
    lastWritten? written name = none ↔
      name ∉ written.map Prod.fst := by
  simp only [lastWritten?, Option.map_eq_none_iff,
    List.getLast?_eq_none_iff, List.filter_eq_nil_iff,
    decide_eq_true_eq, List.mem_map, not_exists, not_and]

/- In a table each name is written once. -/
theorem lastWritten?_entries
    (table : NameTable α)
    (name : String) :
    lastWritten? table.entries name = table.get? name := by
  cases hLast : lastWritten? table.entries name with
  | none =>
      exact (get?_eq_none_iff.mpr
        (lastWritten?_eq_none_iff.mp hLast)).symm
  | some value =>
      exact (mem_entries_iff.mp
        (mem_of_lastWritten? hLast)).symm

/- Every table can be written. -/
theorem ofList_entries (table : NameTable α) :
    ofList table.entries = table := by
  apply eq_of_get?_eq
  intro name
  rw [get?_ofList, table.lastWritten?_entries]

end NameTable

end Carnatic
