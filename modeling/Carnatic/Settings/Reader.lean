import Carnatic.Settings

/-
  Reading settings.

  What settings a text writes is for a reader to say.  They
  are checked before they are used, whichever reader they come
  from.  Settings are kept in a file of the home directory,
  where no other file is asked for.

  Key definitions include:
    * `Settings.Reader`
    * `Settings.ofText`
    * `Settings.load`
    * `Settings.loadDefault`
-/

------------------------------------------------------------
-- Texts
------------------------------------------------------------

namespace Carnatic

namespace Settings

/- A reader of texts: the settings that a text writes, with any
values at all, or what is wrong with the text. -/
structure Reader where
  read : String → Except String (Settings Float)

/- The valid settings that a text writes. -/
def ofText
    (reader : Reader)
    (text : String) :
    Except (Error Float) (Settings Float) :=
  match reader.read text with
  | .error cause => .error (.malformed cause)
  | .ok settings => settings.validated

------------------------------------------------------------
-- Files
------------------------------------------------------------

variable {m : Type → Type} [Monad m]

/- The settings in a file. -/
def load
    (files : FileAccess m)
    (reader : Reader)
    (path : String) :
    m (Except (Error Float) (Settings Float)) := do
  match ← files.readText path with
  | .error error => return .error (.unreadable error)
  | .ok text => return ofText reader text

/- Where settings are kept in a home directory. -/
def defaultPath (home : String) : String :=
  home ++ "/.vaadya/config.yaml"

/- The settings kept in the home directory, or the standard
ones where there are none. -/
def loadDefault
    (files : FileAccess m)
    (reader : Reader)
    (home? : Option String) :
    m (Except (Error Float) (Settings Float)) := do
  match home? with
  | none => return .ok standard
  | some home =>
      if ← files.pathExists (defaultPath home) then
        load files reader (defaultPath home)
      else
        return .ok standard

end Settings

end Carnatic
