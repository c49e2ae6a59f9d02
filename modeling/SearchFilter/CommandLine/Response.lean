import SearchFilter.CommandLine.Arguments
import SearchFilter.Config
import SearchFilter.Filter.Error
import SearchFilter.Json.Basic

/-! # Responses

What a run of the program leaves: an exit code and two texts, for the standard output and for the
standard error stream. -/

namespace SearchFilter

structure Response where
  exitCode : Nat
  stdout : Text
  stderr : Text
  deriving DecidableEq, Repr

/-- A text on a line of its own. -/
def line (t : Text) : Text := t ++ ['\n']

/-- A JSON value on lines of its own. -/
def jsonLines (value : Json) : Text := line value.pretty

/-- Why a command fails. -/
inductive Failure where
  | filter (error : FilterError)
  | config (error : ConfigError)

namespace Failure

def message : Failure → Text
  | filter error => "filter error: " ++ error.message
  | config error => "configuration error: " ++ error.message

def code : Failure → Text
  | filter _ => "FILTER_ERROR"
  | config _ => "CONFIG_ERROR"

def exitCode : Failure → Nat
  | filter _ => 1
  | config _ => 5

def json (failure : Failure) : Json :=
  .object [("error", .object
    [("code", .string failure.code), ("message", .string failure.message)])]

end Failure

namespace Response

/-- Nothing goes wrong, and the given text is the output. -/
def success (stdout : Text) : Response := ⟨0, stdout, []⟩

/-- A command fails; the flag for JSON decides how that is told. -/
def failed (settings : Settings) (failure : Failure) : Response :=
  ⟨failure.exitCode, [],
    if settings.json then jsonLines failure.json else line ("Error: " ++ failure.message)⟩

/-- The response with something told before, if the run is verbose. -/
def telling (settings : Settings) (told : Text) (response : Response) : Response :=
  if settings.verbose then { response with stderr := told ++ response.stderr } else response

def version : Text := "0.1.0"

/-- What stands for the usage message, whose wording is left to the terminal. -/
def usage : Text := "<usage>"

/-- What stands for the help text, whose wording is left to the terminal. -/
def help : Text := "<help>"

/-- What stands for a completion script, which is left to the shells. -/
def completions : Text := "<completions>"

/-- There is no command to carry out. -/
def stopped : CommandLine.Stop → Response
  | .invalid => ⟨2, [], usage⟩
  | .version name => success (line (name ++ ' ' :: version))
  | .help => success help

end Response
end SearchFilter
