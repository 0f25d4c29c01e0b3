import Pascaline.Source.Span

/-!
# Tokens

The words of the language: keywords, punctuation, literals and identifiers.
-/

namespace Pascaline

/-- The reserved words. -/
inductive Keyword where
  | kwProgram | kwUnit | kwUses | kwInterface | kwImplementation | kwInitialization
  | kwConst | kwType | kwVar | kwProcedure | kwFunction | kwConstructor
  | kwBegin | kwEnd | kwIf | kwThen | kwElse | kwWhile | kwDo | kwRepeat | kwUntil
  | kwFor | kwTo | kwDownto | kwCase | kwOf | kwArray | kwPointer | kwClass | kwNew
  | kwNil | kwThis | kwBase | kwVirtual | kwOverride | kwExit | kwBreak | kwContinue
  | kwTrue | kwFalse | kwAnd | kwOr | kwXor | kwNot | kwDiv | kwMod | kwShl | kwShr
deriving Repr, DecidableEq

namespace Keyword

/-- The words in their fixed order. -/
def all : List Keyword :=
  [kwProgram, kwUnit, kwUses, kwInterface, kwImplementation, kwInitialization,
   kwConst, kwType, kwVar, kwProcedure, kwFunction, kwConstructor,
   kwBegin, kwEnd, kwIf, kwThen, kwElse, kwWhile, kwDo, kwRepeat, kwUntil,
   kwFor, kwTo, kwDownto, kwCase, kwOf, kwArray, kwPointer, kwClass, kwNew,
   kwNil, kwThis, kwBase, kwVirtual, kwOverride, kwExit, kwBreak, kwContinue,
   kwTrue, kwFalse, kwAnd, kwOr, kwXor, kwNot, kwDiv, kwMod, kwShl, kwShr]

def spelling : Keyword → String
  | kwProgram => "program" | kwUnit => "unit" | kwUses => "uses" | kwInterface => "interface"
  | kwImplementation => "implementation" | kwInitialization => "initialization"
  | kwConst => "const" | kwType => "type" | kwVar => "var" | kwProcedure => "procedure"
  | kwFunction => "function" | kwConstructor => "constructor" | kwBegin => "begin"
  | kwEnd => "end" | kwIf => "if" | kwThen => "then" | kwElse => "else" | kwWhile => "while"
  | kwDo => "do" | kwRepeat => "repeat" | kwUntil => "until" | kwFor => "for" | kwTo => "to"
  | kwDownto => "downto" | kwCase => "case" | kwOf => "of" | kwArray => "array"
  | kwPointer => "pointer" | kwClass => "class" | kwNew => "new" | kwNil => "nil"
  | kwThis => "this" | kwBase => "base" | kwVirtual => "virtual" | kwOverride => "override"
  | kwExit => "exit" | kwBreak => "break" | kwContinue => "continue" | kwTrue => "true"
  | kwFalse => "false" | kwAnd => "and" | kwOr => "or" | kwXor => "xor" | kwNot => "not"
  | kwDiv => "div" | kwMod => "mod" | kwShl => "shl" | kwShr => "shr"

/-- The keyword of a folded spelling. -/
def ofSpelling? (s : String) : Option Keyword := all.find? (·.spelling == s)

end Keyword

/-- Operators and punctuation. -/
inductive Punct where
  | plus | minus | star | slash | assign | eq | notEq | lt | ltEq | gt | gtEq
  | lParen | rParen | lBracket | rBracket | comma | semicolon | colon | dot | dotDot | caret | at
deriving Repr, DecidableEq

namespace Punct

def all : List Punct :=
  [plus, minus, star, slash, assign, eq, notEq, lt, ltEq, gt, gtEq,
   lParen, rParen, lBracket, rBracket, comma, semicolon, colon, dot, dotDot, caret, .at]

def spelling : Punct → String
  | plus => "+" | minus => "-" | star => "*" | slash => "/" | assign => ":=" | eq => "="
  | notEq => "<>" | lt => "<" | ltEq => "<=" | gt => ">" | gtEq => ">=" | lParen => "("
  | rParen => ")" | lBracket => "[" | rBracket => "]" | comma => "," | semicolon => ";"
  | colon => ":" | dot => "." | dotDot => ".." | caret => "^" | .at => "@"

end Punct

/-- What a token is. -/
inductive TokenKind where
  | invalid
  | endOfFile
  | identifier
  | intLit
  | realLit
  | stringLit
  | charLit
  | keyword (k : Keyword)
  | punct (p : Punct)
deriving Repr, DecidableEq

namespace TokenKind

/-- Every kind in its fixed order. -/
def all : List TokenKind :=
  [invalid, endOfFile, identifier, intLit, realLit, stringLit, charLit] ++
    Keyword.all.map keyword ++ Punct.all.map punct

/-- How messages name the kind. -/
def render : TokenKind → String
  | invalid => "invalid"
  | endOfFile => "end of file"
  | identifier => "identifier"
  | intLit => "integer literal"
  | realLit => "real literal"
  | stringLit => "string literal"
  | charLit => "char literal"
  | keyword k => "'" ++ k.spelling ++ "'"
  | punct p => "'" ++ p.spelling ++ "'"

/-- The name of the kind with a given number; numbers past the last have none of their own. -/
def nameOfNumber (n : Nat) : String :=
  match all[n]? with
  | some k => k.render
  | none => "Kind(" ++ decimal n ++ ")"

end TokenKind

/-- A word of the source. `text` is its spelling; `value` is the folded spelling of an
identifier or keyword and what a literal denotes, and is empty for the rest. -/
structure Token where
  kind : TokenKind
  span : Span
  text : Bytes := []
  value : Bytes := []
deriving Repr, DecidableEq

namespace Token

/-- Whether the token denotes a value on its own. -/
def isLiteral (t : Token) : Bool :=
  match t.kind with
  | .intLit | .realLit | .stringLit | .charLit => true
  | .keyword k => k == .kwTrue || k == .kwFalse || k == .kwNil
  | _ => false

end Token

end Pascaline
