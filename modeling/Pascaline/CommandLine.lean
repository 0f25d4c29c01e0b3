import Pascaline.Text.Quoted
import Pascaline.Text.LetterCase

/-!
# Command lines

A tool has commands, and each command has flags of its own beside those of the tool. Flags and
operands may come in any order; two dashes end the flags.
-/

namespace Pascaline

/-- What a flag takes. A switch takes nothing unless it is given with an equals sign. -/
inductive FlagKind where
  | switch | number | word
deriving Repr, DecidableEq

structure Flag where
  name : String
  short : Option Char := none
  kind : FlagKind
  default : String
  usage : String
deriving Repr

namespace Flag

def switch (name usage : String) : Flag := { name, kind := .switch, default := "false", usage }

def number (name : String) (n : Nat) (usage : String) : Flag :=
  { name, kind := .number, default := decimal n, usage }

def word (name default usage : String) : Flag := { name, kind := .word, default, usage }

/-- The flag that asks for help on a command. -/
def help (command : String) : Flag := { switch "help" ("help for " ++ command) with short := some 'h' }

/-- The flag that asks a tool for its version. -/
def version (tool : String) : Flag := { switch "version" ("version for " ++ tool) with short := some 'v' }

end Flag

/-- How many operands a command takes. -/
inductive OperandRule where
  | any
  | atMost (n : Nat)
  | exactly (n : Nat)
deriving Repr, DecidableEq

/-- A command. One that is not runnable only shows its help, with the commands below it. -/
structure CommandSpec where
  name : String
  /-- What follows the name in a usage line. -/
  operands : String := ""
  short : String
  long : String := ""
  flags : List Flag := []
  rule : OperandRule := .any
  runnable : Bool := true
  below : List (String × String) := []
deriving Repr

/-- A tool with its commands, in the order in which they are suggested. -/
structure ToolSpec where
  name : String
  long : String
  flags : List Flag
  commands : List CommandSpec
deriving Repr

/-- What is wrong with a command line. -/
inductive CommandLineError where
  | unknownCommand (word tool : String) (suggestions : List String)
  | unknownFlag (name : String)
  | unknownShort (first : Char) (group : String)
  | missingValue (name : String)
  | badSyntax (word : String)
  | badValue (value : String) (flag : Flag) (cause : String)
  | tooManyOperands (most given : Nat)
  | wrongOperands (want given : Nat)
deriving Repr

def CommandLineError.message : CommandLineError → String
  | unknownCommand word tool suggestions =>
    "unknown command " ++ quoted word ++ " for " ++ quoted tool ++
      (if suggestions.isEmpty then ""
      else "\n\nDid you mean this?\n" ++ String.join (suggestions.map fun s => "\t" ++ s ++ "\n"))
  | unknownFlag name => "unknown flag: --" ++ name
  | unknownShort first group =>
    "unknown shorthand flag: '" ++ String.singleton first ++ "' in -" ++ group
  | missingValue name => "flag needs an argument: --" ++ name
  | badSyntax word => "bad flag syntax: " ++ word
  | badValue value flag cause =>
    let name := (flag.short.map fun c => "-" ++ String.singleton c ++ ", ").getD "" ++ "--" ++ flag.name
    "invalid argument " ++ quoted value ++ " for " ++ quoted name ++ " flag: " ++ cause
  | tooManyOperands most given =>
    "accepts at most " ++ decimal most ++ " arg(s), received " ++ decimal given
  | wrongOperands want given => "accepts " ++ decimal want ++ " arg(s), received " ++ decimal given

/-! ## Values -/

/-- The digits of a number in some base, with single underscores between them. -/
def readDigits? (base : Nat) (afterDigit : Bool) : List Char → (sofar : Nat) → Option Nat
  | [], n => if afterDigit then some n else none
  | '_' :: rest, n => if afterDigit then readDigits? base false rest n else none
  | c :: rest, n =>
    match Bytes.hexDigit? (Bytes.ch c) with
    | some d => if c.toNat < 128 && d < base then readDigits? base true rest (n * base + d) else none
    | none => none

/-- A number without sign: in decimal, or in another base after a mark. A zero in front marks the
octal base. -/
def readMagnitude? : List Char → Option Nat
  | '0' :: 'x' :: ds | '0' :: 'X' :: ds => if ds.isEmpty then none else readDigits? 16 true ds 0
  | '0' :: 'b' :: ds | '0' :: 'B' :: ds => if ds.isEmpty then none else readDigits? 2 true ds 0
  | '0' :: 'o' :: ds | '0' :: 'O' :: ds => if ds.isEmpty then none else readDigits? 8 true ds 0
  | '0' :: ds => readDigits? 8 true ds 0
  | ds => readDigits? 10 false ds 0

/-- The number that a text denotes, or why it denotes none. -/
def readNumber (s : String) : Except String Int :=
  let (negative, digits) := match s.toList with
    | '-' :: ds => (true, ds)
    | '+' :: ds => (false, ds)
    | ds => (false, ds)
  let fail := fun (why : String) => .error ("strconv.ParseInt: parsing " ++ quoted s ++ ": " ++ why)
  match readMagnitude? digits with
  | none => fail "invalid syntax"
  | some n =>
    if n < 0x8000000000000000 || (negative && n = 0x8000000000000000) then .ok (if negative then -n else n)
    else fail "value out of range"

def readSwitch (s : String) : Except String Bool :=
  if ["1", "t", "T", "TRUE", "true", "True"].contains s then .ok true
  else if ["0", "f", "F", "FALSE", "false", "False"].contains s then .ok false
  else .error ("strconv.ParseBool: parsing " ++ quoted s ++ ": invalid syntax")

/-- A command line that was understood: the flags given, the latest first, and the operands. -/
structure Invocation where
  given : List (String × String) := []
  operands : List String := []
deriving Repr, Inhabited

namespace Invocation

def isGiven (i : Invocation) (name : String) : Bool := i.given.any (·.1 == name)

/-- The text of a flag, or its default. -/
def word (i : Invocation) (name : String) (default : String := "") : String :=
  (i.given.lookup name).getD default

def switch (i : Invocation) (name : String) : Bool := (readSwitch (i.word name "false")).toOption.getD false

def number (i : Invocation) (name : String) (default : Int := 0) : Int :=
  match i.given.lookup name with
  | some s => (readNumber s).toOption.getD default
  | none => default

/-- Gives a flag a value of its kind. -/
def give (i : Invocation) (f : Flag) (value : String) : Except CommandLineError Invocation :=
  let ok := { i with given := (f.name, value) :: i.given }
  match f.kind with
  | .word => .ok ok
  | .number => match readNumber value with
    | .ok _ => .ok ok
    | .error e => .error (.badValue value f e)
  | .switch => match readSwitch value with
    | .ok _ => .ok ok
    | .error e => .error (.badValue value f e)

end Invocation

/-! ## Reading -/

namespace CommandLine

/-- A word that starts with a dash and is longer. -/
def isFlag (s : String) : Bool := s.startsWith "-" && 1 < s.length

/-- Reads a group of one-letter flags, all of which are switches. -/
def readShorts (flags : List Flag) (i : Invocation) : List Char → Except CommandLineError Invocation
  | [] => .ok i
  | c :: rest =>
    match flags.find? (·.short == some c) with
    | some f => match rest with
      | '=' :: v :: value => i.give f (String.ofList (v :: value))
      | _ => do readShorts flags (← i.give f "true") rest
    | none =>
      let first := if c.toNat < 0x80 then c else Char.ofNat 0xc3
      .error (.unknownShort first (String.ofList (c :: rest)))

/-- Reads flags and operands. -/
def read (flags : List Flag) (i : Invocation) : List String → Except CommandLineError Invocation
  | [] => .ok i
  | s :: rest =>
    if !isFlag s then read flags { i with operands := i.operands ++ [s] } rest
    else if s = "--" then .ok { i with operands := i.operands ++ rest }
    else if !s.startsWith "--" then
      match readShorts flags i (s.toList.drop 1) with
      | .ok i => read flags i rest
      | .error e => .error e
    else
      let body := s.toList.drop 2
      let name := String.ofList (body.takeWhile (· ≠ '='))
      if body.head?.any fun c => c = '-' || c = '=' then .error (.badSyntax s)
      else match flags.find? (·.name == name) with
        | none => .error (.unknownFlag name)
        | some f =>
          if body.contains '=' then
            match i.give f (String.ofList (body.drop (name.length + 1))) with
            | .ok i => read flags i rest
            | .error e => .error e
          else if f.kind = .switch then
            match i.give f "true" with
            | .ok i => read flags i rest
            | .error e => .error e
          else match rest with
            | [] => .error (.missingValue name)
            | value :: rest => match i.give f value with
              | .ok i => read flags i rest
              | .error e => .error e

def checkOperands (rule : OperandRule) (i : Invocation) : Except CommandLineError Unit :=
  let given := i.operands.length
  match rule with
  | .any => .ok ()
  | .atMost n => if n < given then .error (.tooManyOperands n given) else .ok ()
  | .exactly n => if given ≠ n then .error (.wrongOperands n given) else .ok ()

/-- Whether a word is a flag of the tool that takes the next word for its value. Flags that the tool
does not know count as such. -/
def takesNext (flags : List Flag) (s : String) : Bool :=
  let isSwitch := fun (f : Flag) => f.kind = .switch
  if s.contains '=' then false
  else if s.startsWith "--" then
    !(flags.find? fun f => "--" ++ f.name == s).any isSwitch
  else s.startsWith "-" && s.length = 2 &&
    !(flags.find? fun f => f.short == s.toList[1]?).any isSwitch

/-- The words of a line that are not flags or their values. A flag at the end may not have one. -/
def plainWords (flags : List Flag) : List String → List String
  | [] => []
  | s :: rest =>
    if s = "--" then []
    else if takesNext flags s then
      match rest with
      | _ :: next :: rest => plainWords flags (next :: rest)
      | _ => []
    else if s ≠ "" && !s.startsWith "-" then s :: plainWords flags rest
    else plainWords flags rest

/-- The line without the word that named the command. -/
def dropWord (flags : List Flag) (word : String) : List String → List String
  | [] => []
  | s :: rest =>
    if s = "--" then s :: rest
    else if takesNext flags s then
      match rest with
      | value :: rest => s :: value :: dropWord flags word rest
      | [] => [s]
    else if s = word then rest
    else s :: dropWord flags word rest

/-! ## Suggestions -/

/-- The next row of the table of distances between the starts of two words. -/
def distanceRow (c : Char) : (left diagonal : Nat) → List Char → List Nat → List Nat
  | left, diagonal, d :: ds, up :: ups =>
    let here := min (min (up + 1) (left + 1)) (if c = d then diagonal else diagonal + 1)
    here :: distanceRow c here up ds ups
  | _, _, _, _ => []

/-- How many characters have to be put in, taken out or replaced to get from one word to another. -/
def distance (a b : List Char) : Nat :=
  let rows := a.foldl (fun (row : List Nat) c =>
    let first := row.headD 0 + 1
    first :: distanceRow c first (row.headD 0) b row.tail) (List.range (b.length + 1))
  rows.getLastD 0

/-- The commands that may have been meant. -/
def suggestions (t : ToolSpec) (word : String) : List String :=
  let plain := (lowerText word).toList
  (t.commands.map (·.name)).filter fun name =>
    name ≠ "help" && (distance plain name.toList ≤ 2 || plain.isPrefixOf name.toList)

/-! ## Help -/

def padded (width : Nat) (s : String) : String :=
  s ++ String.ofList (List.replicate (width - s.length) ' ')

/-- The name of a flag with what it takes. -/
def flagHead (f : Flag) : String :=
  (match f.short with
  | some c => "  -" ++ String.singleton c ++ ", --"
  | none => "      --") ++ f.name ++
  (match f.kind with
  | .switch => ""
  | .number => " int"
  | .word => " string")

/-- What a flag does and is by default. -/
def flagText (f : Flag) : String :=
  f.usage ++
  (match f.kind with
  | .switch => ""
  | .number => if f.default = "0" then "" else " (default " ++ f.default ++ ")"
  | .word => if f.default = "" then "" else " (default " ++ quoted f.default ++ ")")

/-- A table of flags by name. -/
def flagTable (flags : List Flag) : String :=
  let sorted := flags.mergeSort fun a b => decide (a.name ≤ b.name)
  let width := (sorted.map (flagHead · |>.length)).foldl max 0
  "\n".intercalate (sorted.map fun f => padded width (flagHead f) ++ "   " ++ flagText f)

def commandTable (commands : List (String × String)) : String :=
  let sorted := commands.mergeSort fun a b => decide (a.1 ≤ b.1)
  let width := (commands.map (·.1.length)).foldl max 11
  "\n\nAvailable Commands:" ++
    String.join (sorted.map fun (name, short) => "\n  " ++ padded width name ++ " " ++ short)

/-- How the commands below `path` are asked for help. -/
def moreHelp (path : String) : String :=
  "\n\nUse \"" ++ path ++ " [command] --help\" for more information about a command."

/-- The usage of the tool as a whole. -/
def toolUsage (t : ToolSpec) (flags : List Flag) : String :=
  "Usage:\n  " ++ t.name ++ " [command]" ++
    commandTable (t.commands.map fun c => (c.name, c.short)) ++
    "\n\nFlags:\n" ++ flagTable flags ++ moreHelp t.name ++ "\n"

def toolFlags (t : ToolSpec) : List Flag := .help t.name :: .version t.name :: t.flags

def toolHelp (t : ToolSpec) : String := t.long ++ "\n\n" ++ toolUsage t (toolFlags t)

/-- The usage line of a command. -/
def usageLine (t : ToolSpec) (c : CommandSpec) : String :=
  let line := t.name ++ " " ++ c.name ++ (if c.operands = "" then "" else " " ++ c.operands)
  if (line.splitOn "[flags]").length = 1 then line ++ " [flags]" else line

def commandHelp (t : ToolSpec) (c : CommandSpec) : String :=
  let path := t.name ++ " " ++ c.name
  (if c.long = "" then c.short else c.long) ++ "\n\nUsage:" ++
    (if c.runnable then "\n  " ++ usageLine t c else "") ++
    (if c.below.isEmpty then "" else "\n  " ++ path ++ " [command]" ++ commandTable c.below) ++
    "\n\nFlags:\n" ++ flagTable (.help c.name :: c.flags) ++
    "\n\nGlobal Flags:\n" ++ flagTable t.flags ++
    (if c.below.isEmpty then "" else moreHelp path) ++ "\n"

/-! ## Commands -/

/-- What a command line asks for. -/
inductive Ask where
  | toolHelp
  | commandHelp (c : CommandSpec)
  | version
  | command (c : CommandSpec) (i : Invocation)

/-- The command that a line names, and the rest of the line. -/
def select (t : ToolSpec) (line : List String) :
    Except CommandLineError (Option (CommandSpec × List String)) :=
  match (plainWords t.flags line).head? with
  | none => .ok none
  | some word =>
    match t.commands.find? (·.name == word) with
    | some c => .ok (some (c, dropWord t.flags word line))
    | none => .error (.unknownCommand word t.name (suggestions t word))

/-- Reads a whole command line. Help is given before anything else is looked at but the flags. -/
def parse (t : ToolSpec) (line : List String) : Except CommandLineError Ask := do
  match ← select t line with
  | none =>
    let i ← read (toolFlags t) {} line
    return if i.switch "help" then .toolHelp else if i.switch "version" then .version else .toolHelp
  | some (c, line) =>
    let i ← read (.help c.name :: c.flags ++ t.flags) {} line
    if i.switch "help" || !c.runnable then return .commandHelp c
    else
      checkOperands c.rule i
      return .command c i

end CommandLine

end Pascaline
