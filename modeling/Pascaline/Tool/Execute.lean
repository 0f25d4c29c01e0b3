import Pascaline.Tool
import Pascaline.Tool.Compile
import Pascaline.Tool.Housekeeping

/-!
# Carrying out a command line
-/

namespace Pascaline.Tool

variable {m : Type → Type} [Monad m] [FileStore m] [Clock m]

/-- Whether colours are used. Left to itself, a session uses them for people only. -/
def colored (i : Invocation) (terminal : Bool) : Except CommandError Bool :=
  match i.word "color" "auto" with
  | "on" => .ok true
  | "off" => .ok false
  | "auto" => .ok terminal
  | word => .error (.badColor word)

def showVersion (s : Setting) : CommandM m Unit :=
  let format := s.line.word "format" "pretty"
  match lowerText format with
  | "pretty" => CommandM.out (utf8 (versionLine s.colored))
  | "json" => CommandM.out (utf8 (versionDocument.indented 0 ++ "\n"))
  | _ => CommandM.fail (.badVersionFormat format)

/-- A word between back quotes, or between double quotes if it cannot stand between those. -/
def backquoted (s : String) : String :=
  let plain := fun (c : Char) =>
    (0x20 ≤ c.toNat || c = '\t') && c.toNat ≠ 0x60 && c.toNat ≠ 0x7f && c.toNat ≠ 0xfeff
  if s.toList.all plain then "\x60" ++ s ++ "\x60" else quoted s

/-- Help on what the words name. -/
def showHelp (topic : List String) : CommandM m Unit :=
  match CommandLine.select spec topic with
  | .ok none => CommandM.out (utf8 (CommandLine.toolHelp spec))
  | .ok (some (c, _)) => CommandM.out (utf8 (CommandLine.commandHelp spec c))
  | .error _ => CommandM.err (utf8 ("Unknown help topic [" ++
      " ".intercalate (topic.map backquoted) ++ "]\n" ++ CommandLine.toolUsage spec spec.flags))

/-- Carries out a command. -/
def perform (console : Console m) (c : CommandSpec) (s : Setting) : CommandM m Unit :=
  match c.name with
  | "run" => runProgram s console
  | "build" => buildProgram s
  | "diag" => reportProgram s
  | "dump" => dumpUnit s.line
  | "init" => initProject s.line
  | "clean" => cleanCache s.line
  | "version" => showVersion s
  | _ => showHelp s.line.operands

/-- The steps that a command line asks for. -/
def steps (console : Console m) (line : List String) : CommandM m Unit :=
  match CommandLine.parse spec line with
  | .error e => CommandM.fail (.usage e)
  | .ok .toolHelp => CommandM.out (utf8 (CommandLine.toolHelp spec))
  | .ok (.commandHelp c) => CommandM.out (utf8 (CommandLine.commandHelp spec c))
  | .ok .version => CommandM.out (utf8 (name ++ " version " ++ version.render false ++ "\n"))
  | .ok (.command c i) =>
    match colored i console.terminal with
    | .error e => CommandM.fail e
    | .ok colored => perform console c ⟨colored, i⟩

/-- Carries out a command line. -/
def execute (console : Console m) (line : List String) : m Completed :=
  (steps console line).complete

end Pascaline.Tool
