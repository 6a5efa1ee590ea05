import Wwan.Cli.Invocation
import Wwan.Cli.Output

/-!
# Help, the version, and refusals

What is printed when a command line is not carried out.
-/

namespace Wwan.Cli

/-- The name of the program. -/
def programName : String := "xmmlink"

/-- The version of the program. -/
def programVersion : String := "0.1.0"

/-- The name of the program with its version. -/
def versionLine : String := programName ++ " " ++ programVersion

/-- A setting as the help shows it. -/
def Setting.usage (s : Setting) : String :=
  match s.rule with
  | none => s!"[--{s.name}]"
  | some (.choice words) => s!"[--{s.name} " ++ "|".intercalate words ++ "]"
  | some _ => s!"[--{s.name} <{s.name}>]"

/-- How a command is used, but for the settings that it shares with the program. -/
def Form.usage (name : String) (f : Form) : String :=
  let own := f.settings.drop sharedSettings.length
  "  " ++ " ".intercalate (name :: own.map Setting.usage
    ++ (f.operand.map fun operand => s!"<{operand}>").toList)

/-- How the program is used. -/
def usage : String :=
  let settings := " ".intercalate (sharedSettings.map Setting.usage)
  lines (s!"Usage: {programName} {settings} <command>" :: "" :: "Commands:"
    :: grammar.commands.map fun (name, f) => f.usage name)

namespace Refusal

/-- The status of a program that does not carry out its command line. -/
def code : Refusal → Nat
  | help | version => 0
  | _ => 2

/-- What is wrong with a command line. -/
def message : Refusal → Option String
  | help | version | nothing => none
  | missingCommand => some "a command is required"
  | unknownCommand => some "no such command"
  | unknownArgument => some "unexpected argument"
  | missingArgument => some "a required argument is missing"
  | conflict => some "an argument is given twice or excludes another"
  | tooManyValues => some "a switch takes no value"
  | invalidValue => some "a value is missing or invalid"
  | invalidNumber => some "a value is no number in its range"

/-- What is printed for those who asked. -/
def output : Refusal → String
  | help => usage
  | version => lines [versionLine]
  | _ => ""

/-- What stands on the error output. -/
def errorOutput (r : Refusal) : String :=
  match r, r.message with
  | _, some message => lines ["error: " ++ message, ""] ++ usage
  | nothing, none => usage
  | _, none => ""

end Refusal

end Wwan.Cli
