import Carnatic.Files.Tree

/-
  What operations leave of a tree of files.

  Making directories adds directories where nothing stood, and
  leaves everything else. Writing a file puts it at its place,
  where no directory stood. So a file that has been saved is
  read back, and whatever stood elsewhere still does.

  Main declarations:
    * `FileTree.follow_put`
    * `FileTree.Extends` and `FileTree.extending_makeDirectories`
    * `FileTree.Saves`
    * `FileTree.saves_of_save`
-/

------------------------------------------------------------
-- Entries
------------------------------------------------------------

namespace Carnatic

/- An action that goes on behind another one starts from the
world that this one leaves. -/
theorem run_bind
    {World α β : Type}
    (action : StateM World α)
    (next : α → StateM World β)
    (world : World) :
    (action >>= next).run world =
      (next (action.run world).1).run (action.run world).2 :=
  rfl

namespace FileTree

variable {tree after : FileTree}
variable {place other : List String}

/- A place without a directory is not on the way to the working
directory. -/
theorem not_prefix_of_ne_directory
    (hPlace : tree.entry? place ≠ some .directory) :
    place.isPrefixOf tree.workingDirectory = false := by
  unfold entry? at hPlace
  split at hPlace
  · exact absurd rfl hPlace
  · rename_i hPrefix
    exact Bool.not_eq_true _ ▸ hPrefix

theorem entry?_put_self
    (hPlace : tree.entry? place ≠ some .directory)
    (entry : FileEntry) :
    entry? (tree.put place entry) place = some entry := by
  simp [put, entry?, not_prefix_of_ne_directory hPlace]

/- Entries that are left out for their place are those of that
place alone. -/
theorem lookup_filter_of_ne
    (hOther : other ≠ place)
    (entries : List (List String × FileEntry)) :
    (entries.filter fun kept => kept.1 ≠ place).lookup other =
      entries.lookup other := by
  induction entries with
  | nil => rfl
  | cons first rest ih =>
      by_cases hFirst : first.1 = place
      · have hSkip : (other == first.1) = false := by
          simpa [hFirst] using hOther
        rw [List.filter_cons_of_neg (by simpa using hFirst),
          ih, List.lookup_cons, hSkip]
      · rw [List.filter_cons_of_pos (by simpa using hFirst),
          List.lookup_cons, List.lookup_cons, ih]

/- What stands elsewhere stays. -/
theorem entry?_put_of_ne
    (hOther : other ≠ place)
    (entry : FileEntry) :
    entry? (tree.put place entry) other =
      tree.entry? other := by
  simp only [put, entry?, List.lookup_cons,
    beq_false_of_ne hOther, lookup_filter_of_ne hOther]

------------------------------------------------------------
-- Places
------------------------------------------------------------

/- A path leads to the same place once a file stands there: on
the way to it there are only directories. -/
theorem follow_put
    {here names : List String}
    (hFollow : tree.follow here names = .ok place)
    (hPlace : tree.entry? place ≠ some .directory)
    (bytes : List UInt8) :
    (tree.put place (.file bytes)).follow here names =
      .ok place := by
  fun_induction tree.follow here names with
  | case1 here => exact hFollow
  | case2 here rest ih =>
      rw [follow, if_pos rfl]
      exact ih hFollow
  | case3 here rest hName ih =>
      rw [follow, if_neg hName, if_pos rfl]
      exact ih hFollow
  | case4 => cases hFollow
  | case5 here name rest hName hUp hShort hLast =>
      rw [follow, if_neg hName, if_neg hUp, if_neg hShort,
        if_pos hLast]
      exact hFollow
  | case6 => cases hFollow
  | case7 => cases hFollow
  | case8 here name rest hName hUp hShort hMore hThere ih =>
      have hOther : here ++ [name] ≠ place := by
        rintro rfl
        exact hPlace hThere
      rw [follow, if_neg hName, if_neg hUp, if_neg hShort,
        if_neg hMore, entry?_put_of_ne hOther, hThere]
      exact ih hFollow

------------------------------------------------------------
-- Making Directories
------------------------------------------------------------

/- A tree with more directories: what stood before still does,
and what is new is a directory. -/
structure Extends (before after : FileTree) : Prop where
  workingDirectory_eq :
    after.workingDirectory = before.workingDirectory
  stays :
    ∀ place entry,
      before.entry? place = some entry →
        after.entry? place = some entry
  creates :
    ∀ place,
      before.entry? place = none →
        after.entry? place = none ∨
          after.entry? place = some .directory

theorem extends_refl (tree : FileTree) :
    tree.Extends tree where
  workingDirectory_eq := rfl
  stays := by
    intro place entry hEntry
    exact hEntry
  creates := by
    intro place hNone
    exact .inl hNone

theorem Extends.trans
    {before middle after : FileTree}
    (hFirst : before.Extends middle)
    (hSecond : middle.Extends after) :
    before.Extends after where
  workingDirectory_eq :=
    hSecond.workingDirectory_eq.trans
      hFirst.workingDirectory_eq
  stays := by
    intro place entry hEntry
    exact hSecond.stays place entry
      (hFirst.stays place entry hEntry)
  creates := by
    intro place hNone
    rcases hFirst.creates place hNone with
      hMiddle | hMiddle
    · exact hSecond.creates place hMiddle
    · exact .inr (hSecond.stays place .directory hMiddle)

theorem extends_makeDirectory
    (path : String)
    (tree : FileTree) :
    tree.Extends (makeDirectory path tree).2 := by
  unfold makeDirectory
  split
  · exact tree.extends_refl
  · rename_i place _
    split
    · exact tree.extends_refl
    · rename_i hFree
      rw [Bool.not_eq_true, Option.isSome_eq_false_iff,
        Option.isNone_iff_eq_none] at hFree
      have hPlace : tree.entry? place ≠ some .directory := by
        simp [hFree]
      have hPut := entry?_put_self hPlace .directory
      refine ⟨rfl, ?_, ?_⟩
      · intro other entry hEntry
        have hOther : other ≠ place := by
          rintro rfl
          simp [hFree] at hEntry
        rw [entry?_put_of_ne hOther, hEntry]
      · intro other hNone
        by_cases hOther : other = place
        · exact .inr (hOther ▸ hPut)
        · exact .inl
            ((entry?_put_of_ne hOther .directory).trans hNone)

/- An action that only makes directories. -/
def Extending
    {α : Type}
    (action : StateM FileTree α) : Prop :=
  ∀ tree : FileTree, tree.Extends (action.run tree).2

theorem extending_pure
    {α : Type}
    (answer : α) :
    Extending (pure answer : StateM FileTree α) :=
  extends_refl

theorem Extending.bind
    {α β : Type}
    {action : StateM FileTree α}
    {next : α → StateM FileTree β}
    (hAction : Extending action)
    (hNext : ∀ answer, Extending (next answer)) :
    Extending (action >>= next) := by
  intro tree
  exact (hAction tree).trans (hNext _ _)

theorem extending_settle
    (path : String)
    (error : FileError) :
    Extending (access.settle path error) := by
  refine Extending.bind (fun tree => tree.extends_refl) ?_
  intro there
  cases there <;> exact extending_pure _

theorem extending_makeDirectories
    (absolute : Bool)
    (components : List String) :
    Extending (access.makeDirectories absolute components) := by
  induction components with
  | nil => exact extending_pure _
  | cons name outer ih =>
      have hMake := extends_makeDirectory
        (pathOf absolute (name :: outer))
      refine Extending.bind hMake ?_
      intro first
      split
      · exact extending_pure _
      · refine ih.bind ?_
        intro outside
        split
        · exact extending_pure _
        · refine Extending.bind hMake ?_
          intro second
          split
          · exact extending_pure _
          · exact extending_settle _ _
      · exact extending_settle _ _

------------------------------------------------------------
-- Saving
------------------------------------------------------------

/-
  A tree in which a file has been saved: the bytes are read
  back from its path, whatever else stood still does, and
  whatever else is new is a directory.
-/
structure Saves
    (before : FileTree)
    (path : String)
    (bytes : List UInt8)
    (after : FileTree) : Prop where
  workingDirectory_eq :
    after.workingDirectory = before.workingDirectory
  readBytes_eq : after.readBytes path = .ok bytes
  stays :
    ∀ place entry,
      after.resolve path ≠ .ok place →
        before.entry? place = some entry →
          after.entry? place = some entry
  creates :
    ∀ place,
      after.resolve path ≠ .ok place →
        before.entry? place = none →
          after.entry? place = none ∨
            after.entry? place = some .directory

/- A file that is written has a path without a slash at its
end, and stands where no directory does. -/
theorem exists_of_write
    {path : String}
    {bytes : List UInt8}
    (hWrite : write path bytes tree = (.ok (), after)) :
    ∃ place,
      tree.resolve path = .ok place ∧
        tree.entry? place ≠ some .directory ∧
        after = tree.put place (.file bytes) := by
  unfold write at hWrite
  split at hWrite
  · cases hWrite
  · rename_i place hTarget
    split at hWrite
    · cases hWrite
    · rename_i hPlace
      refine ⟨place, ?_, hPlace,
        (congrArg Prod.snd hWrite).symm⟩
      unfold target at hTarget
      unfold resolve components
      split at hTarget
      · cases hTarget
      · split at hTarget
        · split at hTarget <;> cases hTarget
        · rename_i hEnd
          simp only [hEnd]
          exact hTarget

theorem resolve_put
    {path : String}
    (hPath : tree.resolve path = .ok place)
    (hPlace : tree.entry? place ≠ some .directory)
    (bytes : List UInt8) :
    (tree.put place (.file bytes)).resolve path =
      .ok place := by
  unfold resolve at hPath ⊢
  split at hPath
  · cases hPath
  · exact follow_put hPath hPlace bytes

/- A file that is written is saved. -/
theorem saves_of_write
    {path : String}
    {bytes : List UInt8}
    (hWrite : write path bytes tree = (.ok (), after)) :
    tree.Saves path bytes after := by
  rcases exists_of_write hWrite with
    ⟨place, hPath, hPlace, rfl⟩
  have hResolve := resolve_put hPath hPlace bytes
  have hOther :
      ∀ other,
        (tree.put place (.file bytes)).resolve path ≠
            .ok other →
          other ≠ place := by
    rintro other hElsewhere rfl
    exact hElsewhere hResolve
  refine ⟨rfl, ?_, ?_, ?_⟩
  · simp only [readBytes, hResolve, entry?_put_self hPlace]
  · intro other entry hElsewhere hEntry
    rw [entry?_put_of_ne (hOther other hElsewhere), hEntry]
  · intro other hElsewhere hNone
    exact .inl
      ((entry?_put_of_ne (hOther other hElsewhere) _).trans
        hNone)

/- Directories that are made before do no harm. -/
theorem Extends.saves
    {before middle after : FileTree}
    {path : String}
    {bytes : List UInt8}
    (hExtends : before.Extends middle)
    (hSaves : middle.Saves path bytes after) :
    before.Saves path bytes after where
  workingDirectory_eq :=
    hSaves.workingDirectory_eq.trans
      hExtends.workingDirectory_eq
  readBytes_eq := hSaves.readBytes_eq
  stays := by
    intro place entry hElsewhere hEntry
    exact hSaves.stays place entry hElsewhere
      (hExtends.stays place entry hEntry)
  creates := by
    intro place hElsewhere hNone
    rcases hExtends.creates place hNone with
      hMiddle | hMiddle
    · exact hSaves.creates place hElsewhere hMiddle
    · exact .inr
        (hSaves.stays place .directory hElsewhere hMiddle)

/- A file that is saved is read back, and changes nothing else
but for new directories on the way to it. -/
theorem saves_of_save
    {path : String}
    {bytes : List UInt8}
    (hSave :
      (access.save path bytes).run tree = (.ok (), after)) :
    tree.Saves path bytes after := by
  have hMade := extending_makeDirectories
    (path.startsWith "/") (pathComponents path).tail tree
  unfold FileAccess.save at hSave
  rw [run_bind] at hSave
  cases hAnswer :
      ((access.makeDirectories (path.startsWith "/")
        (pathComponents path).tail).run tree).1 with
  | error error =>
      rw [hAnswer] at hSave
      cases hSave
  | ok =>
      rw [hAnswer] at hSave
      exact hMade.saves (saves_of_write hSave)

end FileTree

end Carnatic
