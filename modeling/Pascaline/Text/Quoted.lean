import Pascaline.Text.Graphic
import Pascaline.Text.Utf8

/-!
# Quoted text

A text between double quotes in which only graphic characters stand as themselves: quotes and
backslashes are escaped, control characters have short names or numbers, and bytes that are not
UTF-8 are written by number.
-/

namespace Pascaline.Quoted

/-- `digits` lower-case hexadecimal digits of `n`. -/
def hexDigits : (digits : Nat) → (n : Nat) → Bytes
  | 0, _ => []
  | d + 1, n => hexDigits d (n / 16) ++ [Bytes.hexChar (n % 16)]

private def escape (c : Char) (text : String) : Bytes := Bytes.ch c :: utf8 text

/-- The escaped form of one character. -/
def escapeChar (c : Char) : Bytes :=
  let n := c.toNat
  if c = '"' || c = '\\' then [Bytes.ch '\\', Bytes.ch c]
  else if isGraphic c then String.utf8EncodeChar c
  else if n = 7 then escape '\\' "a"
  else if n = 8 then escape '\\' "b"
  else if n = 12 then escape '\\' "f"
  else if n = 10 then escape '\\' "n"
  else if n = 13 then escape '\\' "r"
  else if n = 9 then escape '\\' "t"
  else if n = 11 then escape '\\' "v"
  else if n < 32 || n = 127 then escape '\\' "x" ++ hexDigits 2 n
  else if n < 65536 then escape '\\' "u" ++ hexDigits 4 n
  else escape '\\' "U" ++ hexDigits 8 n

/-- The escaped form of the text. -/
def escapeAll : Bytes → Bytes
  | [] => []
  | a :: rest =>
    let d := Utf8.decode a rest
    (if d.valid then escapeChar d.char else escape '\\' "x" ++ hexDigits 2 a.toNat) ++
      escapeAll (rest.drop (d.width - 1))
termination_by s => s.length
decreasing_by simp only [List.length_drop, List.length_cons]; omega

/-- The text between quotes. -/
def encode (s : Bytes) : Bytes := Bytes.ch '"' :: escapeAll s ++ [Bytes.ch '"']

end Quoted

/-- A text between quotes. -/
def quoted (s : String) : String := Utf8.toString (Quoted.encode s)

end Pascaline
