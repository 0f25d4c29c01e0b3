import Pascaline.CommandLine
import Pascaline.CompiledUnit
import Pascaline.Diagnostic.Render

/-!
# The tool

The commands of the toolchain with their flags, and the version of the tool.
-/

namespace Pascaline.Tool

def name : String := "blaise"

/-! ## Version -/

structure Version where
  major : Nat
  minor : Nat
  patch : Nat
  label : String

def version : Version := ⟨0, 1, 0, "dev"⟩

/-- The version, each number in a colour of its own. -/
def Version.render (v : Version) (colored : Bool) : String :=
  Paint.yellow.apply colored (decimal v.major) ++ "." ++ Paint.green.apply colored (decimal v.minor) ++
    "." ++ Paint.blue.apply colored (decimal v.patch) ++ "-" ++ v.label

/-- The line that tells the version together with that of stored units. -/
def versionLine (colored : Bool) : String :=
  name ++ " " ++ version.render colored ++ " (unit schema " ++ decimal CompiledUnit.currentSchema ++ ")\n"

/-- The same for other programs. -/
def versionDocument : JsonDoc :=
  .object [("tool", .str name), ("version", .str (version.render false)),
    ("unit_schema", .int CompiledUnit.currentSchema)]

/-! ## Flags -/

/-- Flags of every command. -/
def flags : List Flag :=
  [.word "color" "auto" "colorize output (auto|on|off)",
   .switch "quiet" "suppress non-essential output",
   .switch "timings" "show timing information",
   .number "max-diagnostics" 100 "maximum number of diagnostics to show",
   .word "trace" "" "write a compiler trace to this file (- for stderr)",
   .word "trace-level" "off" "trace level (off|phase|detail)",
   .word "trace-format" "auto" "trace format (auto|text|ndjson)",
   .word "cpu-profile" "" "write a CPU profile to this file",
   .word "mem-profile" "" "write a heap profile to this file on exit",
   .word "runtime-trace" "" "write a Go runtime trace to this file"]

def uiFlag : Flag := .word "ui" "auto" "progress UI (auto|on|off)"

def formatFlag : Flag := .word "format" "pretty" "diagnostic format (pretty|short|json)"

def jobsFlag : Flag := .number "jobs" 0 "parallel units per wave (0 = auto)"

def cacheFlag : Flag := .word "cache-dir" "" "directory of compiled units"

/-! ## Commands -/

def run : CommandSpec where
  name := "run"
  operands := "[flags] [file.pas]"
  short := "Compile and execute a Blaise program"
  long := "Compile a program and the units it uses, then execute it on the VM.\n" ++
    "Without a file, [run].main of the enclosing blaise.toml is run."
  flags := [uiFlag, formatFlag, .switch "vm-trace" "trace every executed instruction to stderr",
    .number "heap-budget" 0 "heap budget in words (0 = manifest or default)",
    .number "max-frames" 0 "call depth limit (0 = manifest or default)", jobsFlag, cacheFlag,
    .switch "no-cache" "neither read nor write compiled units"]
  rule := .atMost 1

def build : CommandSpec where
  name := "build"
  operands := "[flags] [file.pas]"
  short := "Compile a program into persisted units"
  long := "Compile a program and the units it uses into .bcu files in the unit\n" ++
    "cache. Units whose source and dependencies are unchanged are reused."
  flags := [uiFlag, formatFlag, jobsFlag, cacheFlag]
  rule := .atMost 1

def diag : CommandSpec where
  name := "diag"
  operands := "[flags] [file.pas]"
  short := "Report syntax and semantic issues"
  long := "Parse and bind a program or unit and everything it uses, printing every\n" ++
    "diagnostic. Nothing is written to the unit cache."
  flags := [.word "format" "pretty" "output format (pretty|short|json)",
    .switch "no-warnings" "ignore warnings in diagnostics",
    .switch "warnings-as-errors" "treat warnings as errors",
    .switch "with-notes" "include diagnostic notes in short and json output", jobsFlag]
  rule := .atMost 1

def dump : CommandSpec where
  name := "dump"
  operands := "<unit.bcu>"
  short := "Print the contents of a compiled unit"
  flags := [.switch "header" "print only the header, classes and globals"]
  rule := .exactly 1

def init : CommandSpec where
  name := "init"
  operands := "[path|name]"
  short := "Initialize a new Blaise project"
  long := "Create blaise.toml and a hello-world main.pas. Without an argument the\n" ++
    "current directory is initialized; a name that does not exist yet becomes a\nnew directory."
  rule := .atMost 1

def clean : CommandSpec where
  name := "clean"
  operands := "[path]"
  short := "Remove the compiled unit cache"
  rule := .atMost 1

def versionCommand : CommandSpec where
  name := "version"
  short := "Show the blaise version"
  flags := [.word "format" "pretty" "output format (pretty|json)"]

def help : CommandSpec where
  name := "help"
  operands := "[command]"
  short := "Help about any command"
  long := "Help provides help for any command in the application.\n" ++
    "Simply type blaise help [path to command] for full details."

def completion : CommandSpec where
  name := "completion"
  short := "Generate the autocompletion script for the specified shell"
  long := "Generate the autocompletion script for blaise for the specified shell.\n" ++
    "See each sub-command's help for details on how to use the generated script."
  runnable := false
  below := ["bash", "fish", "powershell", "zsh"].map fun shell =>
    (shell, "Generate the autocompletion script for " ++ shell)

def spec : ToolSpec where
  name := name
  long := "Blaise compiles Pascal-family programs and units to bytecode and runs them on a " ++
    "garbage-collected VM"
  flags := flags
  commands := [run, build, diag, dump, init, clean, versionCommand, help, completion]

end Pascaline.Tool
