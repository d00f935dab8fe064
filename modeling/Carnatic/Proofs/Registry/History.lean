import Carnatic.Proofs.Curve.Weight
import Carnatic.Proofs.NameTable.Order
import Carnatic.Settings
import Mathlib.Data.Finset.Card

/-
  What a registry holds.

  A registry files a curve under the name that the curve has.
  After any attempts to register curves it holds, for each
  name, the curve that was accepted last. The built-in curves
  are two such attempts. The registry of some settings is the
  built-in one with the configured curves registered, or the
  fault of the least name whose points make no curve.

  Main declarations:
    * `Registry.builtin_eq_after`
    * `Registry.get?_after`
    * `Registry.RemembersLast`
    * `Registry.remembersLast_after`
    * `Settings.registerAll_eq_ok_iff`
    * `Settings.registerAll_eq_error_iff`
    * `Settings.OverridesBuiltin`
    * `Settings.remembersRegistrations`
-/

------------------------------------------------------------
-- Filed Curves
------------------------------------------------------------

namespace Carnatic

variable {R : Type} [Scalar R]

namespace Registry

/- Every curve is filed under its own name. -/
def IsFiled (registry : Registry R) : Prop :=
  ∀ name curve,
    registry.get? name = some curve → curve.name = name

theorem get?_empty (name : String) :
    (empty : Registry R).get? name = none :=
  rfl

theorem get?_register
    (registry : Registry R)
    (curve : Curve R)
    (name : String) :
    (registry.register curve).get? name =
      if name = curve.name then
        some curve
      else
        registry.get? name :=
  NameTable.get?_insert registry.curves curve.name name curve

theorem isFiled_empty : (empty : Registry R).IsFiled := by
  intro name curve hFound
  simp [get?_empty] at hFound

theorem IsFiled.register
    {registry : Registry R}
    (hFiled : registry.IsFiled)
    (curve : Curve R) :
    (registry.register curve).IsFiled := by
  intro name found hFound
  rw [get?_register] at hFound
  split at hFound
  · rename_i hName
    rw [← Option.some.inj hFound, hName]
  · exact hFiled name found hFound

/- Registries that answer alike are equal. -/
theorem eq_of_get?_eq
    {registry other : Registry R}
    (hSame : ∀ name, registry.get? name = other.get? name) :
    registry = other := by
  have hCurves : registry.curves = other.curves :=
    NameTable.eq_of_get?_eq hSame
  cases registry
  cases other
  exact congrArg Registry.mk hCurves

/- The built-in curve of a name. -/
def builtinCurve? (name : String) : Option (Curve R) :=
  if name = ":" then
    some flat
  else if name = ":/" then
    some slide
  else
    none

theorem get?_builtin (name : String) :
    (builtin : Registry R).get? name =
      builtinCurve? name := by
  rw [builtin, get?_register, get?_register, get?_empty,
    builtinCurve?]
  change
    (if name = ":/" then some slide
      else if name = ":" then some flat else none) = _
  by_cases hFlat : name = ":"
  · simp [hFlat]
  · simp [hFlat]

theorem isFiled_builtin :
    (builtin : Registry R).IsFiled :=
  (isFiled_empty.register flat).register slide

------------------------------------------------------------
-- Attempts
------------------------------------------------------------

/- Try to register the curve of a name through some points.
Points that make no curve change nothing. -/
def attempt
    (registry : Registry R)
    (entry : String × List (R × R)) : Registry R :=
  match Curve.ofPoints entry.1 entry.2 with
  | .ok curve => registry.register curve
  | .error _ => registry

/- The registry after some attempts. -/
def after
    (registry : Registry R)
    (attempts : List (String × List (R × R))) : Registry R :=
  attempts.foldl attempt registry

/- The names of the built-in curves with their points. -/
def builtinPoints : List (String × List (R × R)) :=
  let zero : R := Scalar.ofInt 0
  let one : R := Scalar.ofInt 1
  [(":", [(zero, zero), (one, zero)]),
    (":/", [(zero, zero), (one, one)])]

/- A point at the start and one at the end are in order. -/
theorem sorted_straight (first last : R) :
    Curve.sorted
        [⟨Scalar.ofInt 0, first⟩, ⟨Scalar.ofInt 1, last⟩] =
      [⟨Scalar.ofInt 0, first⟩, ⟨Scalar.ofInt 1, last⟩] := by
  apply List.mergeSort_of_pairwise
  exact List.pairwise_pair.mpr Scalar.zero_precedes_one

/- The built-in points are accepted, each in turn, and make the
built-in curves. -/
theorem builtin_eq_after :
    (builtin : Registry R) = empty.after builtinPoints := by
  have hFlat :
      Curve.ofPoints ":"
          [((Scalar.ofInt 0 : R), Scalar.ofInt 0),
            (Scalar.ofInt 1, Scalar.ofInt 0)] =
        .ok flat :=
    Curve.ofPoints_eq_ok_iff.mpr
      ⟨rfl, (sorted_straight _ _).symm⟩
  have hSlide :
      Curve.ofPoints ":/"
          [((Scalar.ofInt 0 : R), Scalar.ofInt 0),
            (Scalar.ofInt 1, Scalar.ofInt 1)] =
        .ok slide :=
    Curve.ofPoints_eq_ok_iff.mpr
      ⟨rfl, (sorted_straight _ _).symm⟩
  simp only [after, builtinPoints, List.foldl_cons,
    List.foldl_nil, attempt, hFlat, hSlide]
  rfl

/- The curve of a name that was accepted last. -/
def lastAccepted?
    (attempts : List (String × List (R × R)))
    (name : String) : Option (Curve R) :=
  ((attempts.filter fun entry =>
    entry.1 = name).filterMap fun entry =>
      (Curve.ofPoints entry.1 entry.2).toOption).getLast?

theorem after_concat
    (registry : Registry R)
    (attempts : List (String × List (R × R)))
    (entry : String × List (R × R)) :
    registry.after (attempts ++ [entry]) =
      (registry.after attempts).attempt entry :=
  List.foldl_concat ..

/- An attempt changes the answer for its own name at most, and
only when the points make a curve. -/
theorem get?_attempt
    (registry : Registry R)
    (entry : String × List (R × R))
    (name : String) :
    (registry.attempt entry).get? name =
      if entry.1 = name then
        (Curve.ofPoints entry.1 entry.2).toOption.or
          (registry.get? name)
      else
        registry.get? name := by
  unfold attempt
  cases hMade : Curve.ofPoints entry.1 entry.2 with
  | error fault => simp [Except.toOption]
  | ok curve =>
      rw [get?_register,
        (Curve.ofPoints_eq_ok_iff.mp hMade).1]
      by_cases hName : entry.1 = name
      · simp [hName, Except.toOption]
      · simp [hName, Ne.symm hName]

theorem lastAccepted?_concat
    (attempts : List (String × List (R × R)))
    (entry : String × List (R × R))
    (name : String) :
    lastAccepted? (attempts ++ [entry]) name =
      if entry.1 = name then
        (Curve.ofPoints entry.1 entry.2).toOption.or
          (lastAccepted? attempts name)
      else
        lastAccepted? attempts name := by
  unfold lastAccepted?
  by_cases hName : entry.1 = name
  · simp only [List.filter_append, List.filter_singleton,
      hName, decide_true, if_true, List.filterMap_append,
      List.getLast?_append, cond_true]
    cases hMade : Curve.ofPoints name entry.2 <;>
      simp [hName, hMade, Except.toOption]
  · simp [List.filter_append, hName]

/- For each name, a registry answers with the curve that was
accepted last, or as it did before. -/
theorem get?_after
    (registry : Registry R)
    (attempts : List (String × List (R × R)))
    (name : String) :
    (registry.after attempts).get? name =
      (lastAccepted? attempts name).or
        (registry.get? name) := by
  induction attempts using List.reverseRecOn with
  | nil => rfl
  | append_singleton attempts entry ih =>
      rw [after_concat, get?_attempt, ih,
        lastAccepted?_concat]
      split
      · rw [Option.or_assoc]
      · rfl

theorem IsFiled.attempt
    {registry : Registry R}
    (hFiled : registry.IsFiled)
    (entry : String × List (R × R)) :
    (registry.attempt entry).IsFiled := by
  unfold Registry.attempt
  cases Curve.ofPoints entry.1 entry.2 with
  | error fault => exact hFiled
  | ok curve => exact hFiled.register curve

theorem IsFiled.after
    {registry : Registry R}
    (hFiled : registry.IsFiled)
    (attempts : List (String × List (R × R))) :
    (registry.after attempts).IsFiled := by
  induction attempts using List.reverseRecOn with
  | nil => exact hFiled
  | append_singleton attempts entry ih =>
      rw [after_concat]
      exact ih.attempt entry

/-
  What a registry holds after some attempts, where some names
  had given curves before. It answers with the curve accepted
  last, which carries the name asked for. Its names increase
  strictly; they are those that it answers for, and its size
  is their number.
-/
structure RemembersLast
    (given : String → Option (Curve R))
    (attempts : List (String × List (R × R)))
    (reached : Registry R) : Prop where
  get?_eq :
    ∀ name,
      reached.get? name =
        (lastAccepted? attempts name).or (given name)
  name_eq :
    ∀ name curve,
      reached.get? name = some curve → curve.name = name
  names_increase : reached.names.Pairwise (· < ·)
  names_nodup : reached.names.Nodup
  mem_names_iff :
    ∀ name,
      name ∈ reached.names ↔
        ∃ curve, reached.get? name = some curve
  size_eq : reached.size = reached.names.toFinset.card

theorem remembersLast_after
    {registry : Registry R}
    (hFiled : registry.IsFiled)
    (attempts : List (String × List (R × R))) :
    RemembersLast registry.get? attempts
      (registry.after attempts) := by
  constructor
  case get?_eq => exact registry.get?_after attempts
  case name_eq => exact hFiled.after attempts
  case names_increase =>
    exact (registry.after attempts).curves.ordered
  case names_nodup =>
    exact (registry.after attempts).curves.nodup_names
  case mem_names_iff =>
    intro name
    exact NameTable.mem_names_iff
  case size_eq =>
    have hCard := List.toFinset_card_of_nodup
      (registry.after attempts).curves.nodup_names
    exact (hCard.trans (List.length_map _)).symm

end Registry

------------------------------------------------------------
-- Curves Of Settings
------------------------------------------------------------

namespace Settings

/- Points that make a curve of a name. -/
def MakesCurve (entry : String × List (R × R)) : Prop :=
  ∃ curve, Curve.ofPoints entry.1 entry.2 = .ok curve

/- Curves are all registered when all their points make
curves. Registering them is to attempt each one. -/
theorem registerAll_eq_ok_iff
    {registry reached : Registry R}
    {entries : List (String × List (R × R))} :
    registerAll registry entries = .ok reached ↔
      (∀ entry ∈ entries, MakesCurve entry) ∧
        reached = registry.after entries := by
  induction entries generalizing registry with
  | nil => simp [registerAll, Registry.after, eq_comm]
  | cons entry rest ih =>
      rw [registerAll, List.forall_mem_cons]
      cases hMade : Curve.ofPoints entry.1 entry.2 with
      | error fault => simp [MakesCurve, hMade]
      | ok curve =>
          have hEntry : MakesCurve entry := ⟨curve, hMade⟩
          have hAttempt :
              registry.attempt entry =
                registry.register curve := by
            simp only [Registry.attempt, hMade]
          simp only [ih, hEntry, true_and, Registry.after,
            List.foldl_cons, hAttempt]

/- The first points that make no curve are reported. -/
theorem registerAll_eq_error_iff
    {registry : Registry R}
    {entries : List (String × List (R × R))}
    {error : Error R} :
    registerAll registry entries = .error error ↔
      ∃ entry fault,
        IsFirstWithout MakesCurve entries entry ∧
          Curve.ofPoints entry.1 entry.2 = .error fault ∧
          error = .badCurve entry.1 fault := by
  induction entries generalizing registry with
  | nil => simp [registerAll, not_isFirstWithout_nil]
  | cons entry rest ih =>
      rw [registerAll]
      simp only [isFirstWithout_cons_iff]
      cases hMade : Curve.ofPoints entry.1 entry.2 with
      | error fault =>
          have hEntry : ¬ MakesCurve entry := by
            simp [MakesCurve, hMade]
          simp [hEntry, hMade, eq_comm]
      | ok curve =>
          have hEntry : MakesCurve entry := ⟨curve, hMade⟩
          simp only [ih, hEntry, not_true_eq_false, and_false,
            false_or, true_and]

section Written

variable {settings : Settings R}
variable {written : List (String × List (R × R))}

variable (written) in
/- The points that are written last for a name make a curve,
if there are any. -/
def MakesLast (name : String) : Prop :=
  ∀ points,
    NameTable.lastWritten? written name = some points →
      ∃ curve, Curve.ofPoints name points = .ok curve

variable (written) in
/- The curve of the points that are written last. -/
def configured? (name : String) : Option (Curve R) :=
  (NameTable.lastWritten? written name).bind fun points =>
    (Curve.ofPoints name points).toOption

/-
  The registry of settings whose curves are written in some
  order. It exists when the curves all do, and then it is the
  built-in registry with these curves in place of its own, as
  if they were registered by hand. Otherwise the fault of the
  least name is reported. The order of writing does not
  matter.
-/
structure OverridesBuiltin
    (settings : Settings R)
    (written : List (String × List (R × R))) : Prop where
  exists_iff :
    (∃ registry, settings.registry = .ok registry) ↔
      ∀ name, MakesLast written name
  get?_eq :
    ∀ registry,
      settings.registry = .ok registry →
        ∀ name,
          registry.get? name =
            (configured? written name).or
              (Registry.builtinCurve? name)
  eq_after :
    ∀ registry,
      settings.registry = .ok registry →
        registry = Registry.builtin.after written
  error_iff :
    ∀ error,
      settings.registry = .error error ↔
        ∃ name points fault,
          NameTable.lastWritten? written name =
              some points ∧
            Curve.ofPoints name points = .error fault ∧
            (∀ earlier < name, MakesLast written earlier) ∧
            error = .badCurve name fault
  same_of_order :
    ∀ others,
      (∀ name,
        NameTable.lastWritten? others name =
          NameTable.lastWritten? written name) →
        registry
            { settings with
              gamakas := NameTable.ofList others } =
          settings.registry

/- The last curve that is accepted is the last one that is
written, when that one is accepted. -/
theorem lastAccepted?_of_makesLast
    {name : String}
    (hLast : MakesLast written name) :
    Registry.lastAccepted? written name =
      configured? written name := by
  unfold configured?
  unfold MakesLast at hLast
  unfold Registry.lastAccepted?
  unfold NameTable.lastWritten? at hLast ⊢
  rcases List.eq_nil_or_concat'
    (written.filter fun entry => entry.1 = name) with
    hNone | ⟨before, entry, hSome⟩
  · rw [hNone]
    rfl
  · have hEntry :
        entry ∈ written.filter fun entry =>
          entry.1 = name := by
      rw [hSome]
      simp
    rw [List.mem_filter, decide_eq_true_iff] at hEntry
    rw [hSome] at hLast ⊢
    rw [List.getLast?_concat] at hLast ⊢
    rcases hLast entry.2 rfl with ⟨curve, hMade⟩
    have hNamed :
        Curve.ofPoints entry.1 entry.2 = .ok curve := by
      rw [hEntry.2]
      exact hMade
    simp [hMade, hNamed, Except.toOption]

/- What is written last under a name is the entry of the
name. -/
omit [Scalar R] in
theorem lastWritten?_eq_get?
    (hWritten :
      settings.gamakas = NameTable.ofList written)
    (name : String) :
    NameTable.lastWritten? written name =
      settings.gamakas.get? name := by
  rw [hWritten, NameTable.get?_ofList]

/- All entries have points that make a curve exactly where the
last ones written do. -/
theorem makesCurve_entries_iff
    (hWritten :
      settings.gamakas = NameTable.ofList written) :
    (∀ entry ∈ settings.gamakas.entries, MakesCurve entry) ↔
      ∀ name, MakesLast written name := by
  unfold MakesLast
  simp only [lastWritten?_eq_get? hWritten]
  constructor
  · intro hAll name points hEntry
    exact hAll (name, points)
      (NameTable.mem_entries_iff.mpr hEntry)
  · rintro hAll ⟨name, points⟩ hEntry
    exact hAll name points
      (NameTable.mem_entries_iff.mp hEntry)

theorem exists_registry_iff
    (hWritten :
      settings.gamakas = NameTable.ofList written) :
    (∃ registry, settings.registry = .ok registry) ↔
      ∀ name, MakesLast written name := by
  unfold Settings.registry
  simp only [registerAll_eq_ok_iff, exists_and_left,
    exists_eq, and_true]
  exact makesCurve_entries_iff hWritten

/- The curves of some settings might be registered by hand, in
the order they are written in. -/
theorem registry_eq_after
    (hWritten :
      settings.gamakas = NameTable.ofList written)
    {registry : Registry R}
    (hRegistry : settings.registry = .ok registry) :
    registry = Registry.builtin.after written := by
  have hLast := (exists_registry_iff hWritten).mp
    ⟨registry, hRegistry⟩
  rcases registerAll_eq_ok_iff.mp hRegistry with ⟨_, rfl⟩
  apply Registry.eq_of_get?_eq
  intro name
  have hSame :
      NameTable.lastWritten? settings.gamakas.entries name =
        NameTable.lastWritten? written name := by
    rw [NameTable.lastWritten?_entries,
      lastWritten?_eq_get? hWritten]
  have hEntries :
      MakesLast settings.gamakas.entries name := by
    intro points hPoints
    rw [hSame] at hPoints
    exact hLast name points hPoints
  rw [Registry.get?_after, Registry.get?_after,
    lastAccepted?_of_makesLast (hLast name),
    lastAccepted?_of_makesLast hEntries, configured?,
    configured?, hSame]

theorem registry_eq_error_iff
    (hWritten :
      settings.gamakas = NameTable.ofList written)
    {error : Error R} :
    settings.registry = .error error ↔
      ∃ name points fault,
        NameTable.lastWritten? written name =
            some points ∧
          Curve.ofPoints name points = .error fault ∧
          (∀ earlier < name, MakesLast written earlier) ∧
          error = .badCurve name fault := by
  unfold Settings.registry MakesLast
  simp only [registerAll_eq_error_iff,
    NameTable.isFirstWithout_iff,
    lastWritten?_eq_get? hWritten]
  constructor
  · rintro ⟨⟨name, points⟩, fault,
      ⟨hEntry, _, hEarlier⟩, hFault, rfl⟩
    refine ⟨name, points, fault,
      NameTable.mem_entries_iff.mp hEntry, hFault, ?_, rfl⟩
    intro earlier hLess others hOthers
    exact hEarlier (earlier, others)
      (NameTable.mem_entries_iff.mpr hOthers) hLess
  · rintro ⟨name, points, fault, hEntry, hFault, hEarlier,
      rfl⟩
    refine ⟨(name, points), fault,
      ⟨NameTable.mem_entries_iff.mpr hEntry, ?_, ?_⟩, hFault,
      rfl⟩
    · simp [MakesCurve, hFault]
    · rintro ⟨earlier, others⟩ hOthers hLess
      exact hEarlier earlier hLess others
        (NameTable.mem_entries_iff.mp hOthers)

theorem overridesBuiltin
    (hWritten :
      settings.gamakas = NameTable.ofList written) :
    OverridesBuiltin settings written := by
  constructor
  case exists_iff => exact exists_registry_iff hWritten
  case get?_eq =>
    intro registry hRegistry name
    have hLast := (exists_registry_iff hWritten).mp
      ⟨registry, hRegistry⟩
    rw [registry_eq_after hWritten hRegistry,
      Registry.get?_after, Registry.get?_builtin,
      lastAccepted?_of_makesLast (hLast name)]
  case eq_after =>
    intro registry hRegistry
    exact registry_eq_after hWritten hRegistry
  case error_iff =>
    intro error
    exact registry_eq_error_iff hWritten
  case same_of_order =>
    intro others hSame
    have hTables :
        NameTable.ofList others = settings.gamakas := by
      apply NameTable.eq_of_get?_eq
      intro name
      rw [NameTable.get?_ofList, hSame,
        lastWritten?_eq_get? hWritten]
    rw [hTables]

end Written

/-
  Whatever has been attempted, a registry that began empty or
  with the built-in curves remembers the last curve of each
  name; the built-in curves are such attempts themselves. The
  curves of all settings can be written, and however they are,
  the registry of the settings overrides the built-in one by
  the curves written last.
-/
theorem remembersRegistrations :
    (∀ attempts : List (String × List (R × R)),
        Registry.RemembersLast (fun _ => none) attempts
          (Registry.empty.after attempts)) ∧
      (∀ attempts : List (String × List (R × R)),
        Registry.RemembersLast Registry.builtinCurve? attempts
          (Registry.builtin.after attempts)) ∧
      (Registry.builtin : Registry R) =
        Registry.empty.after Registry.builtinPoints ∧
      ∀ settings : Settings R,
        (∃ written,
          settings.gamakas = NameTable.ofList written) ∧
          ∀ written,
            settings.gamakas = NameTable.ofList written →
              OverridesBuiltin settings written := by
  refine ⟨?_, ?_, Registry.builtin_eq_after, ?_⟩
  · intro attempts
    exact Registry.remembersLast_after Registry.isFiled_empty
      attempts
  · intro attempts
    have hGiven :
        (Registry.builtin : Registry R).get? =
          Registry.builtinCurve? :=
      funext Registry.get?_builtin
    rw [← hGiven]
    exact Registry.remembersLast_after
      Registry.isFiled_builtin attempts
  · intro settings
    refine ⟨⟨_, settings.gamakas.ofList_entries.symm⟩, ?_⟩
    intro written hWritten
    exact overridesBuiltin hWritten

end Settings

end Carnatic
