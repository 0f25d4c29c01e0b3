import Pascaline.Text.Quoted

/-!
# Structured output

Documents for other programs: JSON, indented or on one line. Characters that mean something in
web pages are written by number.
-/

namespace Pascaline

inductive JsonDoc where
  | null
  | bool (b : Bool)
  | int (n : Int)
  | text (s : Bytes)
  | list (items : List JsonDoc)
  | object (members : List (String × JsonDoc))
deriving Inhabited

namespace JsonDoc

def str (s : String) : JsonDoc := .text (utf8 s)

/-- How a character stands between quotes. -/
def escapeChar (c : Char) : String :=
  let n := c.toNat
  if c = '"' then "\\\""
  else if c = '\\' then "\\\\"
  else if n = 8 then "\\b"
  else if n = 12 then "\\f"
  else if n = 10 then "\\n"
  else if n = 13 then "\\r"
  else if n = 9 then "\\t"
  else if n < 32 || c = '<' || c = '>' || c = '&' || n = 0x2028 || n = 0x2029 then
    "\\u" ++ Utf8.toString (Quoted.hexDigits 4 n)
  else String.singleton c

/-- How a char that decoding put in place of a malformed byte is written. -/
def replacementEscape : String := "\\ufffd"

def quote (s : Bytes) : String :=
  "\"" ++ String.join ((Utf8.decodeAll s).map fun d =>
    if d.valid then escapeChar d.char else replacementEscape) ++ "\""

mutual

/-- On one line. -/
def compact : JsonDoc → String
  | null => "null"
  | bool b => if b then "true" else "false"
  | int n => signedDecimal n
  | text s => quote s
  | list items => "[" ++ compactItems items ++ "]"
  | object members => "\x7b" ++ compactMembers members ++ "\x7d"

def compactItems : List JsonDoc → String
  | [] => ""
  | [x] => compact x
  | x :: y :: rest => compact x ++ "," ++ compactItems (y :: rest)

def compactMembers : List (String × JsonDoc) → String
  | [] => ""
  | [(k, x)] => quote k ++ ":" ++ compact x
  | (k, x) :: y :: rest => quote k ++ ":" ++ compact x ++ "," ++ compactMembers (y :: rest)

end

/-- The blanks in front of a line at some depth. -/
def margin (depth : Nat) : String := String.ofList (List.replicate (2 * depth) ' ')

mutual

/-- Over several lines, two blanks a level. -/
def indented (depth : Nat) : JsonDoc → String
  | list [] => "[]"
  | list (x :: xs) =>
    "[\n" ++ indentedItems (depth + 1) (x :: xs) ++ "\n" ++ margin depth ++ "]"
  | object [] => "\x7b\x7d"
  | object (m :: ms) =>
    "\x7b\n" ++ indentedMembers (depth + 1) (m :: ms) ++ "\n" ++ margin depth ++ "\x7d"
  | null => "null"
  | bool b => if b then "true" else "false"
  | int n => signedDecimal n
  | text s => quote s

def indentedItems (depth : Nat) : List JsonDoc → String
  | [] => ""
  | [x] => margin depth ++ indented depth x
  | x :: y :: rest => margin depth ++ indented depth x ++ ",\n" ++ indentedItems depth (y :: rest)

def indentedMembers (depth : Nat) : List (String × JsonDoc) → String
  | [] => ""
  | [(k, x)] => margin depth ++ quote k ++ ": " ++ indented depth x
  | (k, x) :: y :: rest =>
    margin depth ++ quote k ++ ": " ++ indented depth x ++ ",\n" ++ indentedMembers depth (y :: rest)

end

end JsonDoc

end Pascaline
