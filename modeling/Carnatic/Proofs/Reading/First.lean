import Mathlib.Data.List.Forall2
import Mathlib.Data.List.TakeWhile

/-
  Reading one item after the other.

  Items are read in order up to the first one that cannot be
  read. Either all of them are read, or the first fault is
  reported. A run of items that pass a test is cut off in front
  of the first one that fails it.

  Main declarations:
    * `IsFirstWithout` and `isFirstWithout_iff_getElem?`
    * `takeWhile_dropWhile_append`
    * `exists_run_of_append_eq`
    * `exists_split_of_forall₂`
    * `mapM_eq_ok_iff` and `exists_mapM_iff`
    * `exists_append_of_mapM`
    * `mapM_eq_error_iff` and `mapM_eq_error_iff_of_fault`
-/

------------------------------------------------------------
-- First Items
------------------------------------------------------------

namespace Carnatic

variable {α β ε : Type}

/- The first of some items that lacks a property. -/
def IsFirstWithout
    (property : α → Prop)
    (items : List α)
    (item : α) : Prop :=
  ∃ before after,
    items = before ++ item :: after ∧
      (∀ other ∈ before, property other) ∧
      ¬ property item

theorem IsFirstWithout.not_property
    {property : α → Prop}
    {items : List α}
    {item : α}
    (hFirst : IsFirstWithout property items item) :
    ¬ property item := by
  rcases hFirst with ⟨_, _, _, _, hItem⟩
  exact hItem

theorem IsFirstWithout.mem
    {property : α → Prop}
    {items : List α}
    {item : α}
    (hFirst : IsFirstWithout property items item) :
    item ∈ items := by
  rcases hFirst with ⟨before, after, rfl, _⟩
  simp

theorem IsFirstWithout.not_forall
    {property : α → Prop}
    {items : List α}
    {item : α}
    (hFirst : IsFirstWithout property items item) :
    ¬ ∀ other ∈ items, property other := by
  intro hAll
  exact hFirst.not_property (hAll item hFirst.mem)

theorem not_isFirstWithout_nil
    (property : α → Prop)
    (item : α) :
    ¬ IsFirstWithout property [] item := by
  rintro ⟨before, after, hItems, _⟩
  simp at hItems

/- The first item without a property is the head, or it stands
in the rest and the head has the property. -/
theorem isFirstWithout_cons_iff
    {property : α → Prop}
    {head item : α}
    {rest : List α} :
    IsFirstWithout property (head :: rest) item ↔
      (item = head ∧ ¬ property head) ∨
        (property head ∧
          IsFirstWithout property rest item) := by
  constructor
  · rintro ⟨before, after, hItems, hBefore, hItem⟩
    cases before with
    | nil =>
        simp only [List.nil_append, List.cons.injEq] at hItems
        rcases hItems with ⟨rfl, rfl⟩
        exact .inl ⟨rfl, hItem⟩
    | cons first before =>
        simp only [List.cons_append,
          List.cons.injEq] at hItems
        rcases hItems with ⟨rfl, rfl⟩
        rcases List.forall_mem_cons.mp hBefore with
          ⟨hFirst, hLater⟩
        exact .inr ⟨hFirst, before, after, rfl, hLater, hItem⟩
  · rintro (⟨rfl, hItem⟩ |
      ⟨hHead, before, after, rfl, hBefore, hItem⟩)
    · exact ⟨[], rest, rfl, by simp, hItem⟩
    · exact ⟨head :: before, after, rfl,
        List.forall_mem_cons.mpr ⟨hHead, hBefore⟩, hItem⟩

/- Where some item lacks a property, one is the first. -/
theorem exists_isFirstWithout
    {property : α → Prop}
    {items : List α}
    (hSome : ¬ ∀ item ∈ items, property item) :
    ∃ first, IsFirstWithout property items first := by
  induction items with
  | nil => simp at hSome
  | cons head rest ih =>
      by_cases hHead : property head
      · have hRest : ¬ ∀ item ∈ rest, property item := by
          intro hAll
          exact hSome (List.forall_mem_cons.mpr ⟨hHead, hAll⟩)
        rcases ih hRest with ⟨first, hFirst⟩
        exact ⟨first,
          isFirstWithout_cons_iff.mpr (.inr ⟨hHead, hFirst⟩)⟩
      · exact ⟨head,
          isFirstWithout_cons_iff.mpr (.inl ⟨rfl, hHead⟩)⟩

/- The first item without a property by its index. -/
theorem isFirstWithout_iff_getElem?
    {property : α → Prop}
    {items : List α}
    {item : α} :
    IsFirstWithout property items item ↔
      ∃ index : Nat,
        items[index]? = some item ∧
          (∀ earlier < index, ∀ other,
            items[earlier]? = some other → property other) ∧
          ¬ property item := by
  induction items with
  | nil => simp [not_isFirstWithout_nil]
  | cons head rest ih =>
      rw [isFirstWithout_cons_iff, ih]
      constructor
      · rintro (⟨rfl, hItem⟩ |
          ⟨hHead, index, hIndex, hEarlier, hItem⟩)
        · exact ⟨0, rfl, by simp, hItem⟩
        · refine ⟨index + 1, hIndex, ?_, hItem⟩
          intro earlier hLt other hOther
          cases earlier with
          | zero =>
              rw [List.getElem?_cons_zero,
                Option.some.injEq] at hOther
              exact hOther ▸ hHead
          | succ earlier =>
              exact hEarlier earlier (Nat.lt_of_succ_lt_succ hLt)
                other hOther
      · rintro ⟨index, hIndex, hEarlier, hItem⟩
        cases index with
        | zero =>
            rw [List.getElem?_cons_zero,
              Option.some.injEq] at hIndex
            exact .inl ⟨hIndex.symm, hIndex ▸ hItem⟩
        | succ index =>
            refine .inr ⟨hEarlier 0 (Nat.succ_pos _) head rfl,
              index, hIndex, ?_, hItem⟩
            intro earlier hLt other hOther
            exact hEarlier (earlier + 1)
              (Nat.succ_lt_succ hLt) other hOther

------------------------------------------------------------
-- Runs
------------------------------------------------------------

/- A run of items that pass a test is cut off where the next
item fails it. -/
theorem takeWhile_dropWhile_append
    {test : α → Bool}
    {run rest : List α}
    (hRun : ∀ item ∈ run, test item = true)
    (hRest : ∀ item ∈ rest.head?, test item = false) :
    (run ++ rest).takeWhile test = run ∧
      (run ++ rest).dropWhile test = rest := by
  rw [List.takeWhile_append_of_pos hRun,
    List.dropWhile_append_of_pos hRun]
  cases rest with
  | nil => simp
  | cons item rest =>
      have hItem := hRest item rfl
      simp [hItem]

/- A run of items with a property that ends before one without
it contains all such items from its start. -/
theorem exists_run_of_append_eq
    {property : α → Prop}
    {front behind run rest : List α}
    {item : α}
    (hSame : front ++ item :: behind = run ++ rest)
    (hFront : ∀ other ∈ front, property other)
    (hItem : property item)
    (hRest : ∀ other ∈ rest.head?, ¬ property other) :
    ∃ more,
      run = front ++ item :: more ∧ behind = more ++ rest := by
  rcases List.append_eq_append_iff.mp hSame with
    ⟨later, hRun, hLater⟩ | ⟨later, hLater, hBehind⟩
  · cases later with
    | nil =>
        rw [List.nil_append] at hLater
        exact absurd hItem (hRest item (by simp [← hLater]))
    | cons first more =>
        rw [List.cons_append, List.cons.injEq] at hLater
        rcases hLater with ⟨rfl, hBehind⟩
        exact ⟨more, hRun, hBehind⟩
  -- The run would end in front of an item with the property.
  · cases later with
    | nil =>
        exact absurd hItem (hRest item (by simp [hBehind]))
    | cons first more =>
        exact absurd (hFront first (by simp [hLater]))
          (hRest first (by simp [hBehind]))

------------------------------------------------------------
-- Pairs
------------------------------------------------------------

/- Partners of some items are split where one of the items
is. -/
theorem exists_split_of_forall₂
    {relation : α → β → Prop}
    {front behind : List α}
    {item : α}
    {partners : List β}
    (hPairs :
      List.Forall₂ relation (front ++ item :: behind)
        partners) :
    ∃ first partner last,
      partners = first ++ partner :: last ∧
        List.Forall₂ relation front first ∧
        relation item partner ∧
        List.Forall₂ relation behind last := by
  induction front generalizing partners with
  | nil =>
      rcases List.forall₂_cons_left_iff.mp hPairs with
        ⟨partner, last, hItem, hBehind, rfl⟩
      exact ⟨[], partner, last, rfl, .nil, hItem, hBehind⟩
  | cons head rest ih =>
      rcases List.forall₂_cons_left_iff.mp hPairs with
        ⟨other, later, hHead, hLater, rfl⟩
      rcases ih hLater with
        ⟨first, partner, last, rfl, hRest, hItem, hBehind⟩
      exact ⟨other :: first, partner, last, rfl,
        .cons hHead hRest, hItem, hBehind⟩

------------------------------------------------------------
-- Reading Items
------------------------------------------------------------

theorem exists_eq_ok_of_isOk
    {read : Except ε β}
    (hOk : read.isOk = true) :
    ∃ value, read = .ok value := by
  cases read with
  | error error => simp [Except.isOk, Except.toBool] at hOk
  | ok value => exact ⟨value, rfl⟩

theorem exists_eq_ok_of_map_eq_ok
    {read : Except ε α}
    {view : α → β}
    {seen : β}
    (hOk : read.map view = .ok seen) :
    ∃ value, read = .ok value ∧ view value = seen := by
  cases read with
  | error error => cases hOk
  | ok value => exact ⟨value, rfl, Except.ok.inj hOk⟩

variable {read : α → Except ε β}

theorem mapM_cons_of_error
    {item : α}
    {error : ε}
    (hItem : read item = .error error)
    (rest : List α) :
    (item :: rest).mapM read = .error error := by
  rw [List.mapM_cons, hItem]
  rfl

theorem mapM_cons_of_ok
    {item : α}
    {value : β}
    (hItem : read item = .ok value)
    (rest : List α) :
    (item :: rest).mapM read =
      match rest.mapM read with
      | .ok values => .ok (value :: values)
      | .error error => .error error := by
  rw [List.mapM_cons, hItem]
  cases hRest : rest.mapM read with
  | ok values => rfl
  | error error => rfl

/- All items are read exactly when each of them is. -/
theorem mapM_eq_ok_iff
    {items : List α}
    {values : List β} :
    items.mapM read = .ok values ↔
      List.Forall₂ (fun item value => read item = .ok value)
        items values := by
  induction items generalizing values with
  | nil => simp [pure, Except.pure, eq_comm]
  | cons item rest ih =>
      rw [List.forall₂_cons_left_iff]
      cases hItem : read item with
      | error error => simp [mapM_cons_of_error hItem]
      | ok value =>
          rw [mapM_cons_of_ok hItem]
          cases hRest : rest.mapM read with
          | error error => simp [← ih, hRest]
          | ok read => simp [← ih, hRest, eq_comm]

theorem exists_mapM_iff {items : List α} :
    (∃ values, items.mapM read = .ok values) ↔
      ∀ item ∈ items, ∃ value, read item = .ok value := by
  induction items with
  | nil => simp [pure, Except.pure]
  | cons item rest ih =>
      rw [List.forall_mem_cons, ← ih]
      cases hItem : read item with
      | error error => simp [mapM_cons_of_error hItem]
      | ok value =>
          rw [mapM_cons_of_ok hItem]
          cases hRest : rest.mapM read <;> simp

/- What is read of items in two parts is what is read of each
part. -/
theorem exists_append_of_mapM
    {items more : List α}
    {values : List β}
    (hRead : (items ++ more).mapM read = .ok values) :
    ∃ own others,
      values = own ++ others ∧ items.mapM read = .ok own := by
  simp only [mapM_eq_ok_iff] at hRead ⊢
  induction items generalizing values with
  | nil => exact ⟨[], values, rfl, .nil⟩
  | cons item rest ih =>
      rcases List.forall₂_cons_left_iff.mp hRead with
        ⟨value, later, hItem, hLater, rfl⟩
      rcases ih hLater with ⟨own, others, rfl, hOwn⟩
      exact ⟨value :: own, others, rfl, .cons hItem hOwn⟩

/- A fault is that of the first item that cannot be read. -/
theorem mapM_eq_error_iff
    {items : List α}
    {error : ε} :
    items.mapM read = .error error ↔
      ∃ item,
        IsFirstWithout
            (fun other => ∃ value, read other = .ok value)
            items item ∧
          read item = .error error := by
  induction items with
  | nil => simp [pure, Except.pure, not_isFirstWithout_nil]
  | cons head rest ih =>
      simp only [isFirstWithout_cons_iff]
      cases hHead : read head with
      | error other =>
          rw [mapM_cons_of_error hHead]
          simp [hHead]
      | ok value =>
          rw [mapM_cons_of_ok hHead]
          cases hRest : rest.mapM read <;>
            simp_all

/- The same where it is known which items cannot be read, and
what is reported about each. -/
theorem mapM_eq_error_iff_of_fault
    {readable : α → Prop}
    {faultOf : α → ε}
    (hRead :
      ∀ item error,
        read item = .error error ↔
          ¬ readable item ∧ error = faultOf item)
    {items : List α}
    {error : ε} :
    items.mapM read = .error error ↔
      ∃ item,
        IsFirstWithout readable items item ∧
          error = faultOf item := by
  have hReadable :
      ∀ item,
        (∃ value, read item = .ok value) ↔ readable item := by
    intro item
    cases hItem : read item with
    | ok value =>
        have hNot := (hRead item (faultOf item)).not.mp
          (by simp [hItem])
        simpa using hNot
    | error other =>
        simpa using ((hRead item other).mp hItem).1
  rw [mapM_eq_error_iff]
  simp only [hReadable, hRead]
  constructor
  · rintro ⟨item, hFirst, _, hError⟩
    exact ⟨item, hFirst, hError⟩
  · rintro ⟨item, hFirst, hError⟩
    exact ⟨item, hFirst, hFirst.not_property, hError⟩

end Carnatic
