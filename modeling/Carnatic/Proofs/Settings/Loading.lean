import Carnatic.CommandLine.Run
import Carnatic.Proofs.Settings.Validity

/-
  Where settings come from.

  Settings are read from a text or a file, or they are the
  standard ones; the command line may change the shruti of
  what it has loaded. Each of these ways ends with a check, or
  with the standard settings, which pass it. So settings are
  valid wherever they come from, whatever the files hold and
  whatever a reader makes of them.

  Main declarations:
    * `Answers`
    * `Settings.IsObtained`
    * `Settings.answers_load` and `Settings.answers_loadDefault`
    * `CommandLine.answers_settingsFor`
    * `Settings.IsObtained.isValid`
-/

------------------------------------------------------------
-- Answers Of Actions
------------------------------------------------------------

namespace Carnatic

variable {World α β ε : Type}

/- Whatever world an action starts from, its answer has a
property. -/
def Answers
    (property : α → Prop)
    (action : StateM World α) : Prop :=
  ∀ world, property (action.run world).1

theorem answers_pure
    {property : α → Prop}
    {answer : α}
    (hAnswer : property answer) :
    Answers property (pure answer : StateM World α) := by
  intro world
  exact hAnswer

/- An action that goes on behind another one starts from the
world that this one leaves. -/
theorem Answers.bind
    {before : α → Prop}
    {property : β → Prop}
    {action : StateM World α}
    {next : α → StateM World β}
    (hAction : Answers before action)
    (hNext : ∀ answer, before answer →
      Answers property (next answer)) :
    Answers property (action >>= next) := by
  intro world
  exact hNext _ (hAction world) _

theorem answers_trivial (action : StateM World α) :
    Answers (fun _ => True) action := by
  intro world
  trivial

------------------------------------------------------------
-- Valid Settings
------------------------------------------------------------

namespace Settings

/- Settings are valid if there are any. -/
def AreValid
    {R : Type}
    (result : Except ε (Settings R)) : Prop :=
  ∀ settings, result = .ok settings → settings.IsValid

theorem areValid_error
    {R : Type}
    (error : ε) :
    AreValid (.error error : Except ε (Settings R)) := by
  intro settings hError
  cases hError

theorem isValid_standard
    {R : Type} :
    (standard : Settings R).IsValid :=
  violation?_eq_none_iff.mp rfl

theorem areValid_standard
    {R : Type} :
    AreValid (.ok standard : Except ε (Settings R)) := by
  intro settings hStandard
  cases hStandard
  exact isValid_standard

/- Settings that pass the check are valid. -/
theorem areValid_validated
    {R : Type}
    (settings : Settings R) :
    AreValid settings.validated := by
  intro checked hChecked
  rcases validated_eq_ok_iff.mp hChecked with ⟨rfl, hValid⟩
  exact hValid

/- Another report of an error changes no settings. -/
theorem AreValid.mapError
    {R δ : Type}
    {result : Except ε (Settings R)}
    (hResult : AreValid result)
    (report : ε → δ) :
    AreValid (result.mapError report) := by
  cases result with
  | error error => exact areValid_error (report error)
  | ok settings =>
      intro other hOther
      cases hOther
      exact hResult settings rfl

------------------------------------------------------------
-- Texts And Files
------------------------------------------------------------

variable (reader : Reader)

theorem areValid_ofText (text : String) :
    AreValid (ofText reader text) := by
  unfold ofText
  cases reader.read text with
  | error cause => exact areValid_error (Error.malformed cause)
  | ok settings => exact areValid_validated settings

variable (files : FileAccess (StateM World))

theorem answers_load (path : String) :
    Answers AreValid (load files reader path) := by
  refine (answers_trivial (files.readText path)).bind ?_
  intro read _
  cases read with
  | error error =>
      exact answers_pure
        (areValid_error (Error.unreadable error))
  | ok text => exact answers_pure (areValid_ofText reader text)

theorem answers_loadDefault (home? : Option String) :
    Answers AreValid (loadDefault files reader home?) := by
  cases home? with
  | none => exact answers_pure areValid_standard
  | some home =>
      refine (answers_trivial
        (files.pathExists (defaultPath home))).bind ?_
      intro there _
      cases there with
      | false => exact answers_pure areValid_standard
      | true =>
          exact answers_load reader files (defaultPath home)

end Settings

------------------------------------------------------------
-- Command Lines
------------------------------------------------------------

/- The command line loads settings, and checks them again once
the shruti has been changed. -/
theorem CommandLine.answers_settingsFor
    (reader : Settings.Reader)
    (files : FileAccess (StateM World))
    (home? : Option String)
    (options : Options) :
    Answers Settings.AreValid
      (settingsFor files reader home? options) := by
  unfold settingsFor
  -- Both sources of settings go on with the same step.
  extract_lets choose
  have hChosen :
      ∀ loaded,
        Settings.AreValid loaded →
          Answers Settings.AreValid (choose loaded) := by
    intro loaded hLoaded
    unfold choose
    cases loaded with
    | error failure => exact answers_pure hLoaded
    | ok settings =>
        cases options.shruti with
        | none => exact answers_pure hLoaded
        | some note =>
            exact answers_pure
              ((Settings.areValid_validated
                { settings with shruti := note }).mapError
                  Failure.settings)
  cases options.settingsPath with
  | some path =>
      refine (Settings.answers_load reader files path).bind ?_
      intro result hResult
      exact (answers_pure (hResult.mapError
        (Failure.settingsAt path))).bind hChosen
  | none =>
      refine (Settings.answers_loadDefault reader files
        home?).bind ?_
      intro result hResult
      exact (answers_pure (hResult.mapError
        Failure.settings)).bind hChosen

------------------------------------------------------------
-- All Ways
------------------------------------------------------------

namespace Settings

/-
  The ways to settings: they are read from a text, loaded from
  a file or from the home directory, or handed to a command
  with the shruti that its options ask for. They may also be
  made without a text, so long as they are checked.
-/
inductive IsObtained
    (reader : Reader)
    (files : FileAccess (StateM World))
    (world : World)
    (settings : Settings Float) : Prop
| ofText
    (text : String)
    (hText : ofText reader text = .ok settings)
| checked
    (made : Settings Float)
    (hChecked : made.validated = .ok settings)
| load
    (path : String)
    (hLoad :
      ((load files reader path).run world).1 = .ok settings)
| loadDefault
    (home? : Option String)
    (hLoad :
      ((loadDefault files reader home?).run world).1 =
        .ok settings)
| settingsFor
    (home? : Option String)
    (options : CommandLine.Options)
    (hChosen :
      ((CommandLine.settingsFor files reader home?
        options).run world).1 = .ok settings)

/- Wherever settings come from, they are valid. -/
theorem IsObtained.isValid
    {reader : Reader}
    {files : FileAccess (StateM World)}
    {world : World}
    {settings : Settings Float}
    (hObtained : IsObtained reader files world settings) :
    settings.IsValid := by
  cases hObtained with
  | ofText text hText =>
      exact areValid_ofText reader text settings hText
  | checked made hChecked =>
      exact areValid_validated made settings hChecked
  | load path hLoad =>
      exact answers_load reader files path world settings hLoad
  | loadDefault home? hLoad =>
      exact answers_loadDefault reader files home? world
        settings hLoad
  | settingsFor home? options hChosen =>
      exact CommandLine.answers_settingsFor reader files home?
        options world settings hChosen

end Settings

end Carnatic
