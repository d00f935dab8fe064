import Carnatic.Proofs.CommandLine.AllOrNothing
import Carnatic.Proofs.Token.Listing

/-
  Listings of tokens.

  The command that lists tokens prints a line for each token
  of its source. A listing is read line by line as the tokens
  it lists, in order. A source that has no tokens or cannot
  be read is not listed.

  Main declarations:
    * `Text.linesOf` and `CommandLine.linesOf_unlines`
    * `Token.ofListing?` and `Token.AreListedIn`
    * `CommandLine.finds_tokens`
    * `CommandLine.ListsTokens`
    * `CommandLine.listsTokens`
-/

------------------------------------------------------------
-- Lines
------------------------------------------------------------

namespace Carnatic

/- The lines of a text: what stands in front of each line
break, and what is left behind the last one, unless that is
nothing. -/
def Text.linesOf (text : String) : List (List Char) :=
  let parts := text.toList.splitOnP isLineBreak
  if parts.getLast? = some [] then parts.dropLast else parts

/- Texts without line breaks are the lines that they are
written as. -/
theorem CommandLine.linesOf_unlines
    {texts : List String}
    (hTexts :
      ∀ text ∈ texts, ∀ c ∈ text.toList,
        Text.isLineBreak c = false) :
    Text.linesOf (unlines texts) =
      texts.map String.toList := by
  have hParts :
      (unlines texts).toList.splitOnP Text.isLineBreak =
        texts.map String.toList ++ [[]] := by
    rw [unlines, String.toList_join]
    induction texts with
    | nil => rfl
    | cons text rest ih =>
        rcases List.forall_mem_cons.mp hTexts with
          ⟨hText, hRest⟩
        have hBreak : Text.isLineBreak '\n' = true := rfl
        have hLine : (text ++ "\n").toList =
            text.toList ++ ['\n'] := String.toList_append
        rw [List.map_cons, List.flatMap_cons, hLine,
          List.append_assoc, List.singleton_append,
          List.splitOnP_append_cons _ _ hBreak,
          List.splitOnP_eq_singleton hText, ih hRest]
        rfl
  simp [Text.linesOf, hParts]

------------------------------------------------------------
-- Listed Tokens
------------------------------------------------------------

namespace Token

/- The token of a line. -/
def ofLine? (line : List Char) : Option Token :=
  match read? line with
  | some (token, []) => some token
  | _ => none

/- The tokens of a listing, one a line. -/
def ofListing? (output : String) : Option (List Token) :=
  (Text.linesOf output).mapM ofLine?

/- A listing of some tokens: it has a line for each token and
is read as the tokens in order. -/
structure AreListedIn
    (tokens : List Token)
    (output : String) : Prop where
  lines_eq :
    Text.linesOf output =
      tokens.map fun token => token.render.toList
  length_eq : (Text.linesOf output).length = tokens.length
  ofListing?_eq : ofListing? output = some tokens

theorem ofLine?_render (token : Token) :
    ofLine? token.render.toList = some token := by
  have hRead := read?_render token []
  rw [List.append_nil] at hRead
  simp only [ofLine?, hRead]

theorem areListedIn_unlines (tokens : List Token) :
    AreListedIn tokens
      (CommandLine.unlines (tokens.map render)) := by
  have hLines :
      Text.linesOf
          (CommandLine.unlines (tokens.map render)) =
        tokens.map fun token => token.render.toList := by
    rw [CommandLine.linesOf_unlines, List.map_map]
    · rfl
    · intro line hLine
      rcases List.mem_map.mp hLine with ⟨token, _, rfl⟩
      exact token.not_isLineBreak_of_mem_render
  refine ⟨hLines, ?_, ?_⟩
  · rw [hLines, List.length_map]
  · have hEach :
        (ofLine? ∘ fun token : Token => token.render.toList) =
          fun token => pure (id token) :=
      funext ofLine?_render
    rw [ofListing?, hLines, List.mapM_map, hEach,
      List.mapM_pure, List.map_id]
    rfl

end Token

------------------------------------------------------------
-- Runs That List Tokens
------------------------------------------------------------

/- What is answered to a value, where its errors are handed
on. -/
theorem Finds.bind_pure
    {World α β ε : Type}
    {found : World → α → Prop}
    {action : StateM World (Except ε α)}
    {next : Except ε α → StateM World (Except ε β)}
    {render : α → Except ε β}
    (hAction : Finds found action)
    (hError :
      ∀ failure,
        next (.error failure) = pure (.error failure))
    (hOk : ∀ value, next (.ok value) = pure (render value)) :
    Finds
      (fun world output =>
        ∃ value,
          found world value ∧ render value = .ok output)
      (action >>= next) := by
  refine hAction.bind ?_
  intro answer
  cases answer with
  | error failure =>
      rw [hError]
      exact (finds_pure _).congr (by simp)
  | ok value =>
      rw [hOk]
      exact (finds_pure _).congr (by simp)

namespace CommandLine

theorem tokenListing_eq_ok_iff
    {path text output : String} :
    tokenListing path text = .ok output ↔
      ∃ tokens,
        Token.ofText text = .ok tokens ∧
          unlines (tokens.map Token.render) = output := by
  simp only [tokenListing, bind_eq_ok_iff, mapError_eq_ok_iff,
    pure, Except.pure, Except.ok.injEq]

/- What the command that lists tokens prints: the listing of
its source, once the settings of the run are found. -/
theorem finds_tokens
    (reader : Settings.Reader)
    (home? : Option String)
    (options : Options)
    (source : String) :
    Finds
      (fun (tree : FileTree) output =>
        ∃ settings,
          Chooses reader tree home? options settings ∧
            ∃ text,
              tree.readText source = .ok text ∧
                tokenListing source text = .ok output)
      (perform FileTree.access reader home? options
        (.tokens source)) := by
  refine (finds_settingsFor reader home? options).bind ?_
  intro chosen
  cases chosen with
  | error failure => exact (finds_pure _).congr (by simp)
  | ok settings =>
      apply Finds.congr
      · exact (finds_sourceText source).bind_pure
          (fun _ => rfl) (fun _ => rfl)
      · simp

/-
  What a run prints that lists the tokens of a source. It ends
  well if there are settings, and the source can be read and
  has tokens; then it prints a listing of these.
-/
structure ListsTokens
    (reader : Settings.Reader)
    (tree : FileTree)
    (home? : Option String)
    (options : Options)
    (source : String)
    (outcome : Outcome) : Prop where
  succeeds_iff :
    outcome.exitCode = 0 ↔
      (∃ settings,
          Chooses reader tree home? options settings) ∧
        ∃ text tokens,
          tree.readText source = .ok text ∧
            Token.ofText text = .ok tokens
  lists :
    ∀ text tokens,
      tree.readText source = .ok text →
        Token.ofText text = .ok tokens →
          outcome.exitCode = 0 →
            Token.AreListedIn tokens outcome.output

theorem exitCode_outcomeOf_eq_zero_iff
    {answer : Except Failure String} :
    (outcomeOf answer).exitCode = 0 ↔
      ∃ output, answer = .ok output := by
  cases answer <;> simp [outcomeOf]

theorem listsTokens_outcomeOf
    {reader : Settings.Reader}
    {tree : FileTree}
    {home? : Option String}
    {options : Options}
    {source : String}
    {answer : Except Failure String}
    (hFound :
      ∀ output,
        answer = .ok output ↔
          ∃ settings,
            Chooses reader tree home? options settings ∧
              ∃ text,
                tree.readText source = .ok text ∧
                  tokenListing source text = .ok output) :
    ListsTokens reader tree home? options source
      (outcomeOf answer) where
  succeeds_iff := by
    simp only [exitCode_outcomeOf_eq_zero_iff, hFound,
      tokenListing_eq_ok_iff]
    constructor
    · rintro ⟨output, settings, hSettings, text, hText, tokens,
        hTokens, _⟩
      exact ⟨⟨settings, hSettings⟩, text, tokens, hText,
        hTokens⟩
    · rintro ⟨⟨settings, hSettings⟩, text, tokens, hText,
        hTokens⟩
      exact ⟨_, settings, hSettings, text, hText, tokens,
        hTokens, rfl⟩
  lists := by
    intro text tokens hText hTokens hCode
    rcases exitCode_outcomeOf_eq_zero_iff.mp hCode with
      ⟨output, rfl⟩
    rcases (hFound output).mp rfl with
      ⟨_, _, other, hOther, hListing⟩
    rw [hText, Except.ok.injEq] at hOther
    rcases tokenListing_eq_ok_iff.mp hListing with
      ⟨listed, hListed, rfl⟩
    rw [← hOther, hTokens, Except.ok.injEq] at hListed
    rw [← hListed]
    exact Token.areListedIn_unlines tokens

/-
  Every token has a line of its own, and every run of the
  command that lists tokens leaves all files and lists the
  tokens of its source, whatever a reader makes of the texts
  of settings.
-/
theorem listsTokens :
    (∀ token : Token, token.HasOwnLine) ∧
      ∀ reader tree home? options source,
        ∃ outcome,
          (run FileTree.access reader home?
                (.perform options (.tokens source))).run tree =
              (outcome, tree) ∧
            ListsTokens reader tree home? options source
              outcome := by
  refine ⟨Token.hasOwnLine, ?_⟩
  intro reader tree home? options source
  rcases finds_tokens reader home? options source tree with
    ⟨answer, hPerform, hFound⟩
  exact ⟨outcomeOf answer, run_perform hPerform,
    listsTokens_outcomeOf hFound⟩

end CommandLine

end Carnatic
