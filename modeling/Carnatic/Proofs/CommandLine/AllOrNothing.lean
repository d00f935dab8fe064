import Carnatic.Proofs.Files.Tree
import Carnatic.Proofs.Settings.Loading

/-
  All or nothing.

  A run reads what it needs before it writes. Where settings,
  source, curves or song are at fault, files stay as they
  were. Where a song is compiled, its bytes are read back from
  the output, and no other file is changed. A run that fails
  prints nothing.

  Main declarations:
    * `Finds`
    * `CommandLine.Loads` and `CommandLine.Chooses`
    * `CommandLine.Compiles`
    * `CommandLine.WritesAllOrNothing`
    * `CommandLine.writesAllOrNothing`
-/

------------------------------------------------------------
-- Reading Actions
------------------------------------------------------------

namespace Carnatic

variable {World α β δ ε : Type}

/- An action that leaves the world as it is, and answers just
the values that are to be found in it. -/
def Finds
    (found : World → α → Prop)
    (action : StateM World (Except ε α)) : Prop :=
  ∀ world, ∃ answer,
    action.run world = (answer, world) ∧
      ∀ value, answer = .ok value ↔ found world value

theorem finds_pure
    (answer : Except ε α) :
    Finds (fun _ value => answer = .ok value)
      (pure answer : StateM World (Except ε α)) := by
  intro world
  exact ⟨answer, rfl, fun value => Iff.rfl⟩

theorem Finds.congr
    {found same : World → α → Prop}
    {action : StateM World (Except ε α)}
    (hAction : Finds found action)
    (hSame :
      ∀ world value, found world value ↔ same world value) :
    Finds same action := by
  intro world
  rcases hAction world with ⟨answer, hRun, hFound⟩
  exact ⟨answer, hRun, fun value =>
    (hFound value).trans (hSame world value)⟩

/- No more than one value is found in a world. -/
theorem Finds.unique
    {found : World → α → Prop}
    {action : StateM World (Except ε α)}
    (hAction : Finds found action)
    {world : World}
    {first second : α}
    (hFirst : found world first)
    (hSecond : found world second) :
    first = second := by
  rcases hAction world with ⟨answer, _, hFound⟩
  have hAnswer := (hFound first).mpr hFirst
  rw [(hFound second).mpr hSecond,
    Except.ok.injEq] at hAnswer
  exact hAnswer.symm

/- What is read behind a value is read in the same world. -/
theorem Finds.bind
    {found : World → α → Prop}
    {later : World → α → β → Prop}
    {action : StateM World (Except ε α)}
    {next : Except ε α → StateM World (Except δ β)}
    (hAction : Finds found action)
    (hNext :
      ∀ answer,
        Finds
          (fun world value =>
            ∃ read, answer = .ok read ∧
              later world read value)
          (next answer)) :
    Finds
      (fun world value =>
        ∃ read, found world read ∧ later world read value)
      (action >>= next) := by
  intro world
  rcases hAction world with ⟨answer, hRun, hFound⟩
  rcases hNext answer world with ⟨last, hLast, hLater⟩
  refine ⟨last, ?_, ?_⟩
  · rw [run_bind, hRun]
    exact hLast
  · intro value
    rw [hLater value]
    simp only [hFound]

/- Another report of an error changes no answer. -/
theorem mapError_eq_ok_iff
    {answer : Except ε α}
    {report : ε → δ}
    {value : α} :
    answer.mapError report = .ok value ↔
      answer = .ok value := by
  cases answer with
  | error error => exact ⟨nofun, nofun⟩
  | ok read =>
      constructor
      · rintro ⟨⟩
        rfl
      · rintro ⟨⟩
        rfl

theorem bind_eq_ok_iff
    {answer : Except ε α}
    {next : α → Except ε β}
    {value : β} :
    (answer >>= next) = .ok value ↔
      ∃ read, answer = .ok read ∧ next read = .ok value := by
  cases answer <;> simp [bind, Except.bind]

theorem Finds.mapError
    {found : World → α → Prop}
    {action : StateM World (Except ε α)}
    (hAction : Finds found action)
    (report : ε → δ) :
    Finds found
      (action >>= fun answer =>
        pure (answer.mapError report)) := by
  have hNext :
      ∀ answer : Except ε α,
        Finds
          (fun _ value =>
            ∃ read, answer = .ok read ∧ read = value)
          (pure (answer.mapError report) :
            StateM World (Except δ α)) := by
    intro answer
    refine (finds_pure _).congr ?_
    simp [mapError_eq_ok_iff]
  refine (hAction.bind hNext).congr ?_
  simp

------------------------------------------------------------
-- Settings Of A Run
------------------------------------------------------------

namespace CommandLine

/-
  The settings that a run loads: those of the file asked for,
  or those kept in the home directory, or the standard ones
  where there are none.
-/
inductive Loads
    (reader : Settings.Reader)
    (tree : FileTree)
    (home? : Option String) :
    Option String → Settings Float → Prop
| asked
    {path text : String}
    {settings : Settings Float}
    (hText : tree.readText path = .ok text)
    (hSettings : Settings.ofText reader text = .ok settings) :
    Loads reader tree home? (some path) settings
| kept
    {home text : String}
    {settings : Settings Float}
    (hHome : home? = some home)
    (hThere :
      tree.pathExists (Settings.defaultPath home) = true)
    (hText :
      tree.readText (Settings.defaultPath home) = .ok text)
    (hSettings : Settings.ofText reader text = .ok settings) :
    Loads reader tree home? none settings
| standard
    (hNone :
      ∀ home, home? = some home →
        tree.pathExists (Settings.defaultPath home) = false) :
    Loads reader tree home? none Settings.standard

/- Settings with the shruti that the options ask for. -/
def Options.override
    (options : Options)
    (settings : Settings Float) : Settings Float :=
  { settings with
    shruti := options.shruti.getD settings.shruti }

/- The settings of a run: what it loads, with the shruti that
the options ask for. They have to be valid. -/
def Chooses
    (reader : Settings.Reader)
    (tree : FileTree)
    (home? : Option String)
    (options : Options)
    (settings : Settings Float) : Prop :=
  ∃ loaded,
    Loads reader tree home? options.settingsPath loaded ∧
      settings = options.override loaded ∧
      settings.IsValid

theorem Loads.isValid
    {reader : Settings.Reader}
    {tree : FileTree}
    {home? path? : Option String}
    {settings : Settings Float}
    (hLoads : Loads reader tree home? path? settings) :
    settings.IsValid := by
  cases hLoads with
  | asked _ hSettings =>
      exact Settings.areValid_ofText _ _ settings hSettings
  | kept _ _ _ hSettings =>
      exact Settings.areValid_ofText _ _ settings hSettings
  | standard => exact Settings.isValid_standard

/- Settings without a change have been checked already. -/
theorem chooses_iff
    {reader : Settings.Reader}
    {tree : FileTree}
    {home? : Option String}
    {options : Options}
    {settings : Settings Float} :
    Chooses reader tree home? options settings ↔
      ∃ loaded,
        Loads reader tree home? options.settingsPath loaded ∧
          settings = options.override loaded ∧
          (options.shruti = none ∨ settings.IsValid) := by
  constructor
  · rintro ⟨loaded, hLoads, rfl, hValid⟩
    exact ⟨loaded, hLoads, rfl, .inr hValid⟩
  · rintro ⟨loaded, hLoads, rfl, hNone | hValid⟩
    · refine ⟨loaded, hLoads, rfl, ?_⟩
      rw [Options.override, hNone]
      exact hLoads.isValid
    · exact ⟨loaded, hLoads, rfl, hValid⟩

theorem finds_readText (path : String) :
    Finds
      (fun (tree : FileTree) text =>
        tree.readText path = .ok text)
      (FileTree.access.readText path) := by
  intro tree
  exact ⟨tree.readText path, rfl, fun text => Iff.rfl⟩

section Finding

variable (reader : Settings.Reader)

theorem finds_load (path : String) :
    Finds
      (fun (tree : FileTree) settings =>
        ∃ text, tree.readText path = .ok text ∧
          Settings.ofText reader text = .ok settings)
      (Settings.load FileTree.access reader path) := by
  refine (finds_readText path).bind ?_
  intro answer
  cases answer with
  | error error => exact (finds_pure _).congr (by simp)
  | ok text => exact (finds_pure _).congr (by simp)

theorem finds_asked
    (home? : Option String)
    (path : String) :
    Finds
      (fun tree settings =>
        Loads reader tree home? (some path) settings)
      (Settings.load FileTree.access reader path) := by
  refine (finds_load reader path).congr ?_
  intro tree settings
  constructor
  · rintro ⟨text, hText, hSettings⟩
    exact .asked hText hSettings
  · rintro ⟨hText, hSettings⟩
    exact ⟨_, hText, hSettings⟩

/- Whether something stands at a path is asked without touching
a file. -/
theorem run_pathExists_bind
    (path : String)
    (next : Bool → StateM FileTree β)
    (tree : FileTree) :
    (FileTree.access.pathExists path >>= next).run tree =
      (next (tree.pathExists path)).run tree :=
  rfl

theorem finds_loadDefault (home? : Option String) :
    Finds
      (fun tree settings =>
        Loads reader tree home? none settings)
      (Settings.loadDefault FileTree.access reader home?) := by
  intro tree
  cases home? with
  | none =>
      refine ⟨.ok Settings.standard, rfl, ?_⟩
      intro settings
      constructor
      · rintro ⟨⟩
        exact .standard (by simp)
      · rintro (_ | hHome | _)
        · cases hHome
        · rfl
  | some home =>
      unfold Settings.loadDefault
      simp only [run_pathExists_bind]
      cases hThere :
          tree.pathExists (Settings.defaultPath home) with
      | false =>
          refine ⟨.ok Settings.standard, rfl, ?_⟩
          intro settings
          constructor
          · rintro ⟨⟩
            refine .standard ?_
            rintro other ⟨⟩
            exact hThere
          · rintro (_ | ⟨⟨⟩, hOther⟩ | _)
            · rw [hThere] at hOther
              cases hOther
            · rfl
      | true =>
          rcases finds_load reader (Settings.defaultPath home)
            tree with ⟨answer, hRun, hFound⟩
          refine ⟨answer, hRun, ?_⟩
          intro settings
          rw [hFound]
          constructor
          · rintro ⟨text, hText, hSettings⟩
            exact .kept rfl hThere hText hSettings
          · rintro (_ | ⟨⟨⟩, _, hText, hSettings⟩ | hNone)
            · exact ⟨_, hText, hSettings⟩
            · have hOther := hNone home rfl
              rw [hThere] at hOther
              cases hOther

/- The settings of a run are found without touching a file. -/
theorem finds_settingsFor
    (home? : Option String)
    (options : Options) :
    Finds
      (fun tree settings =>
        Chooses reader tree home? options settings)
      (settingsFor FileTree.access reader home? options) := by
  unfold settingsFor
  -- Both sources of settings go on with the same step.
  extract_lets choose
  have hChosen :
      ∀ loaded : Except Failure (Settings Float),
        Finds
          (fun (_ : FileTree) settings =>
            ∃ read, loaded = .ok read ∧
              settings = options.override read ∧
                (options.shruti = none ∨ settings.IsValid))
          (choose loaded) := by
    intro loaded
    unfold choose
    cases loaded with
    | error failure => exact (finds_pure _).congr (by simp)
    | ok read =>
        unfold Options.override
        cases options.shruti with
        | none =>
            refine (finds_pure _).congr ?_
            intro tree settings
            constructor
            · rintro ⟨⟩
              exact ⟨_, rfl, rfl, .inl rfl⟩
            · rintro ⟨_, ⟨⟩, rfl, _⟩
              rfl
        | some note =>
            refine (finds_pure _).congr ?_
            intro tree settings
            rw [mapError_eq_ok_iff,
              Settings.validated_eq_ok_iff]
            constructor
            · rintro ⟨rfl, hValid⟩
              exact ⟨read, rfl, rfl, .inr hValid⟩
            · rintro ⟨_, ⟨⟩, rfl, _ | hValid⟩
              · contradiction
              · exact ⟨rfl, hValid⟩
  simp only [chooses_iff]
  cases options.settingsPath with
  | some path =>
      exact ((finds_asked reader home? path).mapError
        (Failure.settingsAt path)).bind hChosen
  | none =>
      exact ((finds_loadDefault reader home?).mapError
        Failure.settings).bind hChosen

end Finding

------------------------------------------------------------
-- Compiling
------------------------------------------------------------

/-
  The bytes that a source is compiled to. All stages in front
  of the writing have to succeed: the settings are chosen, the
  source is read, the curves are registered, and the song is
  rendered.
-/
inductive Compiles
    (reader : Settings.Reader)
    (tree : FileTree)
    (home? : Option String)
    (options : Options)
    (source : String) : List UInt8 → Prop
| stages
    {settings : Settings Float}
    {text : String}
    {registry : Registry Float}
    {rendition : Rendition}
    (hSettings : Chooses reader tree home? options settings)
    (hText : tree.readText source = .ok text)
    (hRegistry : settings.registry = .ok registry)
    (hRendition :
      Rendition.ofText settings registry text =
        .ok rendition) :
    Compiles reader tree home? options source
      (rendition.file settings.ticksPerBeat).bytes

theorem finds_sourceText (path : String) :
    Finds
      (fun (tree : FileTree) text =>
        tree.readText path = .ok text)
      (sourceText FileTree.access path) :=
  (finds_readText path).mapError (Failure.unreadable path)

/- A song is compiled where its curves are registered and it is
rendered. -/
theorem compiled_eq_ok_iff
    {settings : Settings Float}
    {path text : String}
    {bytes : List UInt8} :
    compiled settings path text = .ok bytes ↔
      ∃ registry,
        settings.registry = .ok registry ∧
          ∃ rendition,
            Rendition.ofText settings registry text =
                .ok rendition ∧
              (rendition.file settings.ticksPerBeat).bytes =
                bytes := by
  simp only [compiled, bind_eq_ok_iff, mapError_eq_ok_iff,
    pure, Except.pure, Except.ok.injEq]

/- A source is compiled to some bytes where its settings and
its text are found and compile to them. -/
theorem compiles_iff
    {reader : Settings.Reader}
    {tree : FileTree}
    {home? : Option String}
    {options : Options}
    {source : String}
    {bytes : List UInt8} :
    Compiles reader tree home? options source bytes ↔
      ∃ settings,
        Chooses reader tree home? options settings ∧
          ∃ text,
            tree.readText source = .ok text ∧
              compiled settings source text = .ok bytes := by
  simp only [compiled_eq_ok_iff]
  constructor
  · rintro ⟨hSettings, hText, hRegistry, hRendition⟩
    exact ⟨_, hSettings, _, hText, _, hRegistry, _, hRendition,
      rfl⟩
  · rintro ⟨_, hSettings, _, hText, _, hRegistry, _,
      hRendition, rfl⟩
    exact .stages hSettings hText hRegistry hRendition

/- A source is compiled to no more than one list of bytes. -/
theorem Compiles.unique
    {reader : Settings.Reader}
    {tree : FileTree}
    {home? : Option String}
    {options : Options}
    {source : String}
    {first second : List UInt8}
    (hFirst : Compiles reader tree home? options source first)
    (hSecond :
      Compiles reader tree home? options source second) :
    first = second := by
  rcases compiles_iff.mp hFirst with
    ⟨settings, hSettings, text, hText, hBytes⟩
  rcases compiles_iff.mp hSecond with
    ⟨others, hOthers, other, hOther, hOtherBytes⟩
  have hSame :=
    (finds_settingsFor reader home? options).unique hSettings
      hOthers
  rw [hText, Except.ok.injEq] at hOther
  rw [← hSame, ← hOther, hBytes,
    Except.ok.injEq] at hOtherBytes
  exact hOtherBytes

/- A compile either has all its bytes before it saves them, or
it fails and leaves all files. -/
theorem perform_compile_cases
    (reader : Settings.Reader)
    (tree : FileTree)
    (home? : Option String)
    (options : Options)
    (source output : String) :
    (∃ bytes,
        Compiles reader tree home? options source bytes ∧
          (perform FileTree.access reader home? options
              (.compile source output)).run tree =
            match (FileTree.access.save output bytes).run
              tree with
            | (.ok (), after) => (.ok "", after)
            | (.error error, after) =>
                (.error (.unwritable output error), after)) ∨
      (¬ ∃ bytes,
          Compiles reader tree home? options source bytes) ∧
        ∃ failure,
          (perform FileTree.access reader home? options
              (.compile source output)).run tree =
            (.error failure, tree) := by
  rcases finds_settingsFor reader home? options tree with
    ⟨chosen, hChosen, hSettings⟩
  rcases finds_sourceText source tree with
    ⟨read, hRead, hText⟩
  simp only [compiles_iff, ← hSettings, ← hText]
  unfold perform
  rw [run_bind, hChosen]
  cases chosen with
  | error failure => exact .inr ⟨by simp, failure, rfl⟩
  | ok settings =>
      dsimp only
      rw [run_bind, hRead]
      cases read with
      | error failure => exact .inr ⟨by simp, failure, rfl⟩
      | ok text =>
          dsimp only
          cases hCompiled : compiled settings source text with
          | error failure =>
              exact .inr ⟨by simp [hCompiled], failure, rfl⟩
          | ok bytes =>
              refine .inl ⟨bytes, by simp [hCompiled], ?_⟩
              dsimp only
              rw [run_bind]
              cases hSave :
                  (FileTree.access.save output bytes).run tree
                with
              | mk answer after => cases answer <;> rfl

/- What is listed of a source leaves all files. -/
theorem exists_perform_listing
    (reader : Settings.Reader)
    (tree : FileTree)
    (home? : Option String)
    (options : Options)
    {command : Command}
    (hCommand :
      ∀ source output, command ≠ .compile source output) :
    ∃ answer,
      (perform FileTree.access reader home? options
          command).run tree =
        (answer, tree) := by
  rcases finds_settingsFor reader home? options tree with
    ⟨chosen, hChosen, _⟩
  unfold perform
  rw [run_bind, hChosen]
  cases chosen with
  | error failure => exact ⟨_, rfl⟩
  | ok settings =>
      dsimp only
      cases command with
      | compile source output =>
          exact absurd rfl (hCommand source output)
      | tokens source =>
          rcases finds_sourceText source tree with
            ⟨read, hRead, _⟩
          dsimp only
          rw [run_bind, hRead]
          cases read <;> exact ⟨_, rfl⟩
      | segments source =>
          rcases finds_sourceText source tree with
            ⟨read, hRead, _⟩
          dsimp only
          rw [run_bind, hRead]
          cases read <;> exact ⟨_, rfl⟩

------------------------------------------------------------
-- Every Run
------------------------------------------------------------

/- The outcome of a run that performs a command. -/
def outcomeOf : Except Failure String → Outcome
| .ok output => ⟨0, output, ""⟩
| .error failure => ⟨1, "", failure.report⟩

theorem run_perform
    {reader : Settings.Reader}
    {tree after : FileTree}
    {home? : Option String}
    {options : Options}
    {command : Command}
    {answer : Except Failure String}
    (hPerform :
      (perform FileTree.access reader home? options
          command).run tree =
        (answer, after)) :
    (run FileTree.access reader home?
        (.perform options command)).run tree =
      (outcomeOf answer, after) := by
  unfold run
  dsimp only
  rw [run_bind, hPerform]
  cases answer <;> rfl

/-
  What a run does to a tree of files. Only a compile can
  change it, and only where all stages in front of the writing
  succeed. A compile that succeeds has saved the bytes of its
  song. Where a stage fails, the exit code is 1. A run whose
  exit code is not 0 prints nothing.
-/
structure WritesAllOrNothing
    (reader : Settings.Reader)
    (tree : FileTree)
    (home? : Option String)
    (request : Request)
    (outcome : Outcome)
    (after : FileTree) : Prop where
  listings :
    (∀ options source output,
        request ≠ .perform options (.compile source output)) →
      after = tree
  nothing :
    ∀ options source output,
      request = .perform options (.compile source output) →
        (¬ ∃ bytes,
            Compiles reader tree home? options source bytes) →
          after = tree ∧ outcome.exitCode = 1
  all :
    ∀ options source output,
      request = .perform options (.compile source output) →
        outcome.exitCode = 0 →
          (∃ bytes,
              Compiles reader tree home? options source
                bytes) ∧
            ∀ bytes,
              Compiles reader tree home? options source
                  bytes →
                tree.Saves output bytes after
  silent : outcome.exitCode ≠ 0 → outcome.output = ""

theorem silent_outcomeOf
    (answer : Except Failure String)
    (hCode : (outcomeOf answer).exitCode ≠ 0) :
    (outcomeOf answer).output = "" := by
  cases answer with
  | ok output => exact absurd rfl hCode
  | error failure => rfl

variable {reader : Settings.Reader}
variable {tree : FileTree}
variable {home? : Option String}
variable {options : Options}

/- A compile that has its bytes saves them or fails. -/
theorem writesAllOrNothing_of_compiles
    {source output : String}
    {bytes : List UInt8}
    {answer : Except FileError Unit}
    {after : FileTree}
    (hCompiles :
      Compiles reader tree home? options source bytes)
    (hSave :
      (FileTree.access.save output bytes).run tree =
        (answer, after)) :
    WritesAllOrNothing reader tree home?
      (.perform options (.compile source output))
      (outcomeOf
        (match answer with
        | .ok () => .ok ""
        | .error error => .error (.unwritable output error)))
      after where
  listings := by
    intro hOther
    exact absurd rfl (hOther options source output)
  nothing := by
    rintro _ _ _ ⟨⟩ hNone
    exact absurd ⟨bytes, hCompiles⟩ hNone
  all := by
    rintro _ _ _ ⟨⟩ hCode
    cases answer with
    | error error => cases hCode
    | ok =>
        refine ⟨⟨bytes, hCompiles⟩, ?_⟩
        intro others hOthers
        rw [← hCompiles.unique hOthers]
        exact FileTree.saves_of_save hSave
  silent := silent_outcomeOf _

variable {request : Request}

/- A compile that lacks a stage changes nothing. -/
theorem writesAllOrNothing_of_failure
    (failure : Failure) :
    WritesAllOrNothing reader tree home? request
      (outcomeOf (.error failure)) tree where
  listings := by
    intro _
    rfl
  nothing := by
    intro _ _ _ _ _
    exact ⟨rfl, rfl⟩
  all := by
    intro _ _ _ _ hCode
    cases hCode
  silent := silent_outcomeOf _

/- A run that does not compile changes nothing. -/
theorem writesAllOrNothing_of_listing
    {outcome : Outcome}
    (hOther :
      ∀ options source output,
        request ≠ .perform options (.compile source output))
    (hSilent : outcome.exitCode ≠ 0 → outcome.output = "") :
    WritesAllOrNothing reader tree home? request outcome
      tree where
  listings := by
    intro _
    rfl
  nothing := by
    intro options source output hRequest _
    exact absurd hRequest (hOther options source output)
  all := by
    intro options source output hRequest _
    exact absurd hRequest (hOther options source output)
  silent := hSilent

/- A run that performs a command writes all or nothing. -/
theorem writesAllOrNothing_of_perform
    (command : Command) :
    ∃ outcome after,
      (run FileTree.access reader home?
            (.perform options command)).run tree =
          (outcome, after) ∧
        WritesAllOrNothing reader tree home?
          (.perform options command) outcome after := by
  by_cases hCompile :
      ∃ source output, command = .compile source output
  · rcases hCompile with ⟨source, output, rfl⟩
    rcases perform_compile_cases reader tree home? options
        source output with
      ⟨bytes, hCompiles, hPerform⟩ | ⟨_, failure, hPerform⟩
    · cases hSave :
          (FileTree.access.save output bytes).run tree with
      | mk answer after =>
          have hWrites :=
            writesAllOrNothing_of_compiles hCompiles hSave
          rw [hSave] at hPerform
          refine ⟨_, after, ?_, hWrites⟩
          refine run_perform (hPerform.trans ?_)
          cases answer <;> rfl
    · exact ⟨_, tree, run_perform hPerform,
        writesAllOrNothing_of_failure failure⟩
  · have hOther :
        ∀ source output,
          command ≠ .compile source output := by
      intro source output hSame
      exact hCompile ⟨source, output, hSame⟩
    rcases exists_perform_listing reader tree home? options
      hOther with ⟨answer, hPerform⟩
    refine ⟨_, tree, run_perform hPerform,
      writesAllOrNothing_of_listing ?_
        (silent_outcomeOf answer)⟩
    rintro _ source output ⟨⟩
    exact hOther source output rfl

/-
  Every run writes all or nothing: whatever request has been
  made of its arguments, and whatever a reader makes of the
  texts of settings.
-/
theorem writesAllOrNothing
    (reader : Settings.Reader)
    (tree : FileTree)
    (home? : Option String)
    (request : Request) :
    ∃ outcome after,
      (run FileTree.access reader home? request).run tree =
          (outcome, after) ∧
        WritesAllOrNothing reader tree home? request outcome
          after := by
  cases request with
  | perform options command =>
      exact writesAllOrNothing_of_perform command
  | answered text =>
      exact ⟨_, _, rfl,
        writesAllOrNothing_of_listing (by simp) (by simp)⟩
  | misused text =>
      exact ⟨_, _, rfl,
        writesAllOrNothing_of_listing (by simp) (by simp)⟩

end CommandLine

end Carnatic
