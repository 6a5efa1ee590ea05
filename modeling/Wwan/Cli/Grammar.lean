import Wwan.Bytes
import Wwan.Text.Number

/-!
# The grammar of command lines

A command line is the program's own settings, a command, and the command's settings with at most one
operand.  A setting is a switch or takes a value, which stands behind an equals sign or is the next
word; such a value is looked at when the next setting or the operand comes, or the line ends.  Behind
two dashes every word is an operand.
-/

namespace Wwan.Cli

/-- Why a command line is not carried out. -/
inductive Refusal where
  /-- Help is asked for. -/
  | help
  /-- The version is asked for. -/
  | version
  /-- There is nothing on the line. -/
  | nothing
  | missingCommand
  | unknownCommand
  | unknownArgument
  | missingArgument
  /-- A setting is given twice, or together with one that excludes it. -/
  | conflict
  /-- A switch is given a value. -/
  | tooManyValues
  /-- A value is missing, is none of the choices, or is an empty path. -/
  | invalidValue
  /-- A value is no number in its range. -/
  | invalidNumber
  deriving DecidableEq

/-- Reads a number of 32 bits, which may have a sign. -/
def readCount32? (s : String) : Option Nat :=
  match Text.readSigned? (Bytes.bound 8 / 2) s.toList with
  | some (.ofNat n) => if n < Bytes.bound 4 then some n else none
  | _ => none

/-- Reads a number of 64 bits. -/
def readCount64? (s : String) : Option Nat :=
  Text.readUnsigned? 10 (Bytes.bound 8) s.toList

/-- What a value has to be. -/
inductive ValueRule where
  | any
  /-- A path, which is not empty. -/
  | path
  | choice (words : List String)
  /-- A number of 32 bits. -/
  | count32
  /-- A number of 64 bits. -/
  | count64

/-- Whether a value is as it has to be. -/
def ValueRule.check (value : String) : ValueRule → Except Refusal Unit
  | any => .ok ()
  | path => if value = "" then .error .invalidValue else .ok ()
  | choice words => if words.contains value then .ok () else .error .invalidValue
  | count32 => if (readCount32? value).isSome then .ok () else .error .invalidNumber
  | count64 => if (readCount64? value).isSome then .ok () else .error .invalidNumber

/-- A setting. -/
structure Setting where
  /-- The word behind two dashes. -/
  name : String
  /-- What its value has to be; a switch takes none. -/
  rule : Option ValueRule := none
  /-- The variable of the environment that gives the value if the line does not. -/
  envName : Option String := none

/-- The settings of the program or of a command. -/
structure Form where
  settings : List Setting
  /-- The name of the operand, if there is one. -/
  operand : Option String := none
  /-- The settings and operands that cannot be left out. -/
  required : List String := []
  /-- The switches that exclude each other. -/
  exclusive : List (String × String) := []
  /-- Whether the version can be asked for. -/
  hasVersion : Bool := false

/-- The program's form and the forms of its commands. -/
structure Grammar where
  program : Form
  commands : List (String × Form)

/-- What words say, setting by setting. -/
abbrev Matches := List (String × String)

/-- A setting whose value was not looked at yet. -/
inductive Pending where
  | nothing
  /-- The next word is the value. -/
  | awaiting (s : Setting)
  | holding (s : Setting) (value : String)

/-- How far the words have been read. -/
structure Reading where
  found : Matches := []
  pending : Pending := .nothing
  /-- Whether two dashes came. -/
  trailing : Bool := false

/-- The kinds of word. -/
inductive Word where
  /-- Two dashes. -/
  | dashes
  /-- Two dashes and a name, with a value behind an equals sign or without. -/
  | long (name : String) (value : Option String)
  /-- A dash and letters. -/
  | short (letters : List Char)
  | plain

/-- The kind of a word. -/
def Word.ofString (s : String) : Word :=
  match s.toList with
  | '-' :: '-' :: [] => .dashes
  | '-' :: '-' :: rest =>
    let name := rest.takeWhile (· ≠ '=')
    match rest.dropWhile (· ≠ '=') with
    | [] => .long (String.ofList name) none
    | _ :: value => .long (String.ofList name) (some (String.ofList value))
  | '-' :: c :: rest => .short (c :: rest)
  | _ => .plain

namespace Reading

/-- Whether the next word is the value of a setting. -/
def isAwaiting (r : Reading) : Bool :=
  match r.pending with
  | .awaiting _ => true
  | _ => false

/-- Whether a setting or operand was given. -/
def has (name : String) (r : Reading) : Bool :=
  r.found.any fun m => m.1 = name

/-- Notes a value, which has to be the only one of its setting, and as it has to be. -/
def note (s : Setting) (value : String) (r : Reading) : Except Refusal Reading := do
  if r.has s.name then throw .conflict
  match s.rule with
  | some rule => rule.check value
  | none => pure ()
  return { r with found := r.found ++ [(s.name, value)] }

/-- Looks at the value that was not looked at yet. -/
def resolve (r : Reading) : Except Refusal Reading :=
  match r.pending with
  | .nothing => .ok r
  | .awaiting _ => .error .invalidValue
  | .holding s value => { r with pending := .nothing }.note s value

/-- Reads a word with two dashes. -/
def long (f : Form) (name : String) (value : Option String) (r : Reading) :
    Except Refusal Reading := do
  let isVersion := f.hasVersion && name = "version"
  if name = "help" ∨ isVersion then
    if value.isSome then throw .tooManyValues
    let _ ← r.resolve
    throw (if isVersion then .version else .help)
  match f.settings.find? fun s => s.name = name with
  | none => throw .unknownArgument
  | some s =>
    match s.rule, value with
    | none, some _ => throw .tooManyValues
    | none, none => (← r.resolve).note s "true"
    | some _, some v => (← r.resolve).note s v
    | some _, none => return { ← r.resolve with pending := .awaiting s }

/-- Reads letters behind a dash: only help and the version have one. -/
def short (f : Form) (letters : List Char) (r : Reading) : Except Refusal Reading := do
  match letters with
  | 'h' :: _ =>
    let _ ← r.resolve
    throw .help
  | 'V' :: _ =>
    if f.hasVersion then
      let _ ← r.resolve
      throw .version
    throw .unknownArgument
  | _ => throw .unknownArgument

/-- Reads an operand. -/
def operand (f : Form) (word : String) (r : Reading) : Except Refusal Reading := do
  match f.operand with
  | some name =>
    if r.has name then throw .unknownArgument
    let r ← r.resolve
    return { r with found := r.found ++ [(name, word)] }
  | none => throw .unknownArgument

/-- Reads a word, with `plain` for those that are neither settings nor their values. -/
def word (f : Form) (plain : Reading → Except Refusal Reading) (w : String) (r : Reading) :
    Except Refusal Reading :=
  if r.trailing then plain r
  else match Word.ofString w with
    | .dashes => .ok { r with trailing := true }
    | .long name value => r.long f name value
    | .short letters => r.short f letters
    | .plain =>
      match r.pending with
      | .awaiting s => .ok { r with pending := .holding s w }
      | _ => plain r

end Reading

namespace Form

/-- Adds the values that the environment gives. -/
def addVariables (env : String → Option String) (f : Form) (r : Reading) : Except Refusal Reading :=
  f.settings.foldlM (fun r s => do
    match s.envName.bind env with
    | some value => if r.has s.name then return r else r.note s value
    | none => return r) r

/-- Whether all that is required is there, and nothing excludes anything else. -/
def validate (f : Form) (r : Reading) : Except Refusal Unit := do
  if f.exclusive.any fun (a, b) => r.has a && r.has b then throw .conflict
  if f.required.any fun name => !r.has name then throw .missingArgument

/-- Reads the words behind a command. -/
def read (env : String → Option String) (f : Form) (words : List String) :
    Except Refusal Matches := do
  let r ← words.foldlM (fun r w => r.word f (Reading.operand f w) w) ({} : Reading)
  let r ← f.addVariables env (← r.resolve)
  f.validate r
  return r.found

end Form

namespace Grammar

/-- What was read: the program's settings, the command, and the command's settings. -/
structure Parsed where
  program : Matches
  command : String
  settings : Matches

/-- The names of the commands, with that of the one that explains them. -/
def names (g : Grammar) : List String :=
  "help" :: g.commands.map Prod.fst

/-- What comes of asking for the help of a command. -/
def helpWith (g : Grammar) : List String → Refusal
  | [] => .help
  | [name] => if g.names.contains name then .help else .unknownCommand
  | _ => .unknownCommand

/-- Reads words up to the command and those behind it. -/
def readFrom (env : String → Option String) (g : Grammar) (r : Reading) :
    List String → Except Refusal Parsed
  | [] => do
    let r ← r.resolve
    throw (if r.found.isEmpty then .nothing else .missingCommand)
  | w :: ws =>
    if !r.trailing && !r.isAwaiting && w = "help" then .error (g.helpWith ws)
    else if !r.trailing && !r.isAwaiting && g.names.contains w then do
      match g.commands.lookup w with
      | some f =>
        let settings ← f.read env ws
        let r ← r.resolve
        return { program := r.found, command := w, settings }
      | none => throw .unknownCommand
    else do
      let refuse (r : Reading) : Except Refusal Reading :=
        .error (if r.trailing && g.names.contains w then .unknownArgument else .unknownCommand)
      g.readFrom env (← r.word g.program refuse w) ws

/-- Reads a command line. -/
def read (env : String → Option String) (g : Grammar) (words : List String) :
    Except Refusal Parsed :=
  g.readFrom env {} words

end Grammar

end Wwan.Cli
