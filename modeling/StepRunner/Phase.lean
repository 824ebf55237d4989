namespace StepRunner

inductive Phase where
  | setup
  | start
  deriving DecidableEq, Repr

namespace Phase

def initFlag : String := "--init"

/-- Anything but the flag, and nothing at all, starts the runner. -/
def select (indicator : Option String) : Phase := if indicator = some initFlag then setup else start

def name : Phase → String
  | setup => "Setup"
  | start => "Start"

end Phase

namespace CommandLine

inductive UsageError where
  | displayHelp
  | tooManyValues
  | unknownArgument
  | missingArgument
  deriving DecidableEq, Repr

def UsageError.name : UsageError → String
  | displayHelp => "DisplayHelp"
  | tooManyValues => "TooManyValues"
  | unknownArgument => "UnknownArgument"
  | missingArgument => "MissingRequiredArgument"

/-- Flags other than `h` make an indicator of an argument where one is still wanted; later the first
flag counts. -/
def asksForHelp (indicator : Option String) (argument : String) : Bool :=
  argument = "--help" || match argument.toList with
    | '-' :: 'h' :: flags => indicator.isSome || flags.all (· = 'h')
    | _ => false

def isHelpValue (argument : String) : Bool := "--help=".toList.isPrefixOf argument.toList

/-- Reads on with the indicator found so far; after a `--` nothing is an option any more. -/
def scan : (indicator : Option String) → (escaped : Bool) → List String → Except UsageError String
  | some indicator, _, [] => .ok indicator
  | none, _, [] => .error .missingArgument
  | indicator, escaped, argument :: arguments =>
    if ¬escaped ∧ asksForHelp indicator argument then .error .displayHelp
    else if ¬escaped ∧ isHelpValue argument then .error .tooManyValues
    else if ¬escaped ∧ argument = "--" then scan indicator true arguments
    else match indicator with
      | none => scan (some argument) escaped arguments
      | some _ => .error .unknownArgument

/-- One argument is taken, and it may look like an option. -/
def parse (arguments : List String) : Except UsageError String := scan none false arguments

end CommandLine

end StepRunner
