import StepRunner.Project.FileTree

namespace StepRunner

structure Template where
  folder : String
  name : String
  contents : String
  deriving DecidableEq, Repr

namespace Template

def path (template : Template) : String := template.folder ++ "/" ++ template.name

def lines (text : List String) : String := String.join (text.map (· ++ "\n"))

def properties : String :=
  lines [
    "# Settings read by the Rust runner",
    "",
    "# Attach a screenshot to failed hooks and steps when a grabber is configured",
    "screenshot_enabled = true",
    "",
    "# Seconds to keep retrying the connection to Gauge on startup",
    "GAUGE_RUNNER_CONNECT_TIMEOUT_SECS = 30"]

def stepImplementation : String :=
  lines [
    "use gauge_rust_runner::prelude::*;",
    "",
    "pub fn steps() -> StepRegistry \x7b",
    "    StepRegistry::builder()",
    "        .step(StepHandle::new(\"Vowels in English language are \x7b\x7d.\", |args: &[String]| \x7b",
    "            datastore::scenario().put(\"vowels\", json!(args[0]));",
    "            Ok(())",
    "        \x7d))",
    "        .step(StepHandle::new(\"The word \x7b\x7d has \x7b\x7d vowels.\", |args: &[String]| \x7b",
    "            let vowels = datastore::scenario()",
    "                .get(\"vowels\")",
    "                .and_then(|v| v.as_str().map(str::to_string))",
    "                .unwrap_or_else(|| \"aeiou\".to_string());",
    "            let expected: usize = args[1]",
    "                .parse()",
    "                .map_err(|_| HookError::Assertion(format!(\"not a count: \x7b\x7d\", args[1])))?;",
    "            let actual = args[0].chars().filter(|c| vowels.contains(*c)).count();",
    "            if actual == expected \x7b",
    "                Ok(())",
    "            \x7d else \x7b",
    "                Err(HookError::Assertion(format!(",
    "                    \"expected \x7b\x7d vowels in \x7b\x7d, found \x7b\x7d\",",
    "                    expected, args[0], actual",
    "                )))",
    "            \x7d",
    "        \x7d))",
    "        .build()",
    "\x7d",
    "",
    "pub fn hooks() -> HookRegistry \x7b",
    "    HookRegistry::builder()",
    "        .before_scenario(HookHandle::new(\"reset_vowels\", |_info: &ExecutionInfo| \x7b",
    "            datastore::scenario().put(\"vowels\", json!(\"aeiou\"));",
    "            Ok(())",
    "        \x7d))",
    "        .build()",
    "\x7d"]

def all : List Template :=
  [⟨"env/default", "rust.properties", properties⟩,
    ⟨"src", "step_implementation.rs", stepImplementation⟩]

end Template

/-- What is done to a file system; creating and writing tell whether they succeeded. -/
structure Disk (m : Type → Type) where
  contains : String → m Bool
  createDirectory : String → m Bool
  writeFile : String → String → m Bool

/-- Nothing is at a path, or comes there, that cannot be one. -/
def FileTree.disk (naming : Naming) : Disk (StateM FileTree) where
  contains path := do return naming.path path && (← get).contains naming.name (.ofText path)
  createDirectory path := attempt path fun place => createDirectory naming.name place
  writeFile path contents := attempt path fun place => writeFile naming.name contents place
where
  attempt (path : String) (change : Path → FileTree → Bool × FileTree) : StateM FileTree Bool :=
    modifyGet fun tree => if naming.path path then change (.ofText path) tree else (false, tree)

inductive ScaffoldError where
  | createDirectory (path : String)
  | write (path : String)
  deriving DecidableEq, Repr

def ScaffoldError.message : ScaffoldError → String
  | createDirectory path => "Failed to create directory " ++ path
  | write path => "Failed to write " ++ path

namespace Scaffold

def join (root path : String) : String :=
  if root = "" ∨ root.toList.getLast? = some '/' then root ++ path else root ++ "/" ++ path

variable {m : Type → Type} [Monad m]

/-- The paths of the files that were missing, and now are there. -/
def create (disk : Disk m) (root : String) : List Template → m (Except ScaffoldError (List String))
  | [] => return .ok []
  | template :: templates => do
    let path := join root template.path
    if ← disk.contains path then create disk root templates
    else if !(← disk.createDirectory (join root template.folder)) then
      return .error (.createDirectory (join root template.folder))
    else if !(← disk.writeFile path template.contents) then return .error (.write path)
    else return (← create disk root templates).map (template.path :: ·)

def run (disk : Disk m) (root : String) : m (Except ScaffoldError (List String)) :=
  create disk root Template.all

/-- What is shown of the files created. -/
def report (created : List String) : String :=
  String.join (created.map fun path => "create  " ++ path ++ "\n")

end Scaffold

end StepRunner
