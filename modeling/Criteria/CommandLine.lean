import Criteria.Context.Document
import Criteria.Script

/-!
The command line: a script and the context it is matched against. Everything here
is a function of the arguments; what is printed is part of the result.
-/

namespace Criteria.CommandLine

/-- What the arguments ask for. -/
structure Arguments where
  script : Option Text := none
  values : Option Text := none
  document : Option Text := none
  assignments : List Text := []
  ignoreCase : Bool := false
  parseOnly : Bool := false
  verbosity : Nat := 0

namespace Arguments

/-- There is only one script. -/
def addScript? (arguments : Arguments) (script : Text) : Option Arguments :=
  if arguments.script.isSome then none else some { arguments with script := some script }

/-- Values and a document exclude each other, and neither is given twice. -/
def addValues? (arguments : Arguments) (values : Text) : Option Arguments :=
  if arguments.values.isSome || arguments.document.isSome then none
  else some { arguments with values := some values }

def addDocument? (arguments : Arguments) (document : Text) : Option Arguments :=
  if arguments.values.isSome || arguments.document.isSome then none
  else some { arguments with document := some document }

def addAssignment? (arguments : Arguments) (assignment : Text) : Option Arguments :=
  some { arguments with assignments := arguments.assignments ++ [assignment] }

def setIgnoreCase? (arguments : Arguments) : Option Arguments :=
  if arguments.ignoreCase then none else some { arguments with ignoreCase := true }

def setParseOnly? (arguments : Arguments) : Option Arguments :=
  if arguments.parseOnly then none else some { arguments with parseOnly := true }

def addVerbosity (arguments : Arguments) (amount : Nat) : Arguments :=
  { arguments with verbosity := arguments.verbosity + amount }

/-- An option stands alone or takes a value. -/
inductive Setting where
  | flag (set : Arguments → Option Arguments)
  | valued (set : Arguments → Text → Option Arguments)

def setting? (name : Text) : Option Setting :=
  match String.ofList name with
  | "context" => some (.valued addValues?)
  | "context-doc" => some (.valued addDocument?)
  | "var" => some (.valued addAssignment?)
  | "ignore-case" => some (.flag setIgnoreCase?)
  | "parse-only" => some (.flag setParseOnly?)
  | "verbose" => some (.flag fun arguments => some (arguments.addVerbosity 1))
  | _ => none

/-- A value may not look like an option. A single hyphen does not. -/
def isValue (argument : Text) : Bool :=
  match argument with
  | '-' :: _ :: _ => false
  | _ => true

/-- Splits an option from the value which is written after an equals sign. -/
def splitValue (option : Text) : Text × Option Text :=
  match option.dropWhile (· != '=') with
  | [] => (option, none)
  | _ :: value => (option.takeWhile (· != '='), some value)

/-- Reads arguments, unless one of them cannot be used. After `--` there are no
options. -/
def read? : List Text → Arguments → Option Arguments
  | [], arguments => some arguments
  | ['-', '-'] :: rest, arguments => rest.foldlM addScript? arguments
  | ('-' :: '-' :: option) :: rest, arguments =>
      let (name, value) := splitValue option
      match setting? name, value, rest with
      | some (.flag set), none, rest => do read? rest (← set arguments)
      | some (.valued set), some value, rest => do read? rest (← set arguments value)
      | some (.valued set), none, value :: rest =>
          if isValue value then do read? rest (← set arguments value) else none
      | _, _, _ => none
  | ('-' :: letter :: letters) :: rest, arguments =>
      if (letter :: letters).all (· == 'v') then
        read? rest (arguments.addVerbosity (letters.length + 1))
      else none
  | script :: rest, arguments => do read? rest (← arguments.addScript? script)

end Arguments

/-- Adds a value written `key=value`. The value is read as JSON, or else is the
text itself. -/
def assign (context : Context) (assignment : Text) : Except Error Context :=
  match Arguments.splitValue assignment with
  | (key, some value) =>
      .ok (context.insert (Text.trim key)
        (((Json.read? value).map Scalar.ofJson).getD (.text value)))
  | (_, none) => .error (.format .assignmentForm assignment 0)

/-- The context that the arguments describe. Without any there is none. -/
def Arguments.context (arguments : Arguments) : Except Error (Option Context) :=
  if arguments.values.isNone && arguments.document.isNone && arguments.assignments.isEmpty &&
      !arguments.ignoreCase then
    .ok none
  else do
    let given ←
      match arguments.values, arguments.document with
      | some values, _ => Context.ofJson values
      | none, some document => Context.ofDocument document
      | none, none => pure .empty
    let filled ← arguments.assignments.foldlM assign given
    return some (if arguments.ignoreCase then filled.withCollation .ordinalIgnoreCase else filled)

/-- The canonical text of a script. -/
def canonical (script : Text) (context : Option Context) : Except Error Text := do
  return (← Script.parse .builtin script context).criterion.text

/-- What a script with these arguments prints. -/
def Arguments.outcome (arguments : Arguments) (script : Text) : Except Error Text := do
  let context ← arguments.context
  if arguments.parseOnly then canonical script context
  else return (Scalar.bool (← Script.run .builtin script context)).display

/-- How a run of the program ends. -/
structure Result where
  exitCode : Nat
  stdout : String
  stderr : String
deriving DecidableEq, Repr

def usage : String :=
  "usage: fscript [--context JSON | --context-doc JSON] [--var KEY=VALUE]... " ++
    "[--ignore-case] [--parse-only] [-v]... [--] SCRIPT\n"

/-- Runs the program with these arguments. -/
def run (arguments : List Text) : Result :=
  match Arguments.read? arguments {} with
  | some given =>
      match given.script with
      | none => { exitCode := 2, stdout := "", stderr := usage }
      | some script =>
          match given.outcome script with
          | .ok text => { exitCode := 0, stdout := String.ofList text ++ "\n", stderr := "" }
          | .error error =>
              { exitCode := 1, stdout := "", stderr := "error: " ++ error.message ++ "\n" }
  | none => { exitCode := 2, stdout := "", stderr := usage }

end Criteria.CommandLine
