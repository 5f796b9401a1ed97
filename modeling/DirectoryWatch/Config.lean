import DirectoryWatch.Clock
import DirectoryWatch.WatchError

/-!
# Configuration

How long changes are gathered, whether directories below the root are watched, and what is ignored.
-/

namespace DirectoryWatch

structure Config where
  latency : Duration
  recursive : Bool
  ignore : List String
  deriving DecidableEq, Repr

namespace Config

def defaultLatency : Duration := .ofMillis 100

def default : Config := ⟨defaultLatency, false, []⟩

/-- Refuses patterns of white space only; the first one is named. -/
def validate (c : Config) : Except WatchError Unit :=
  match c.ignore.find? Text.isBlank with
  | some pattern => .error (.invalidConfiguration (.blankPattern pattern))
  | none => .ok ()

/-- As shown in the text of a service. -/
def text (c : Config) : String :=
  "WatcherConfig \x7b latency: " ++ c.latency.text
    ++ ", recursive: " ++ (if c.recursive then "true" else "false")
    ++ ", ignore: " ++ Text.bracketed (c.ignore.map Text.quoted) ++ " \x7d"

theorem validate_eq_ok_iff (c : Config) :
    c.validate = .ok () ↔ ∀ pattern ∈ c.ignore, Text.isBlank pattern = false := by
  unfold validate
  cases h : c.ignore.find? Text.isBlank with
  | none => simpa using List.find?_eq_none.1 h
  | some pattern =>
    simp only [reduceCtorEq, false_iff]
    intro all
    have blank := List.find?_some h
    rw [all pattern (List.mem_of_find?_eq_some h)] at blank
    cases blank

end Config

end DirectoryWatch
