import Pascaline.Diagnostic
import Pascaline.Text.Canonical
import Pascaline.Text.Letter
import Pascaline.Text.Quoted
import Pascaline.Text.RealText
import Pascaline.Token

/-!
# From bytes to tokens

Between tokens stand blanks and comments. `lexeme` reads one token off the front of a text and
always takes at least one byte, so `tokenize` ends. A malformed literal, or a character outside the
language, still yields a token, together with the error; nothing stops the lexer.
-/

namespace Pascaline

/-- What may be wrong with the text of a token or a comment. -/
inductive LexError where
  | unknownChar (text : Bytes)
  | unterminatedString
  | unterminatedComment
  | badNumber (text : Bytes)
  | badHexNumber (text : Bytes)
  | badCharCode (text : Bytes)
deriving Repr, DecidableEq

namespace LexError

def code : LexError → Code
  | unknownChar _ => ⟨1001⟩
  | unterminatedString => ⟨1002⟩
  | unterminatedComment => ⟨1003⟩
  | badNumber _ => ⟨1004⟩
  | badHexNumber _ => ⟨1004⟩
  | badCharCode _ => ⟨1005⟩

def message : LexError → Bytes
  | unknownChar t => utf8 "unexpected character " ++ Quoted.encode t
  | unterminatedString => utf8 "unterminated string literal"
  | unterminatedComment => utf8 "unterminated comment"
  | badNumber t => utf8 "malformed number " ++ Quoted.encode t
  | badHexNumber t => utf8 "malformed hex number " ++ Quoted.encode t
  | badCharCode t => utf8 "invalid character code " ++ Quoted.encode t

end LexError

namespace Lexer

/-! ## Blanks and comments -/

def isBlank (b : UInt8) : Bool := b = 32 || b = 9 || b = 10 || b = 13

/-- The bytes up to and including the first closing brace. -/
def braceCommentWidth? : Bytes → Option Nat
  | [] => none
  | b :: rest => if b = 125 then some 1 else (braceCommentWidth? rest).map (· + 1)

/-- The bytes up to and including the first star and closing parenthesis. -/
def starCommentWidth? : Bytes → Option Nat
  | 42 :: 41 :: _ => some 2
  | [] => none
  | _ :: rest => (starCommentWidth? rest).map (· + 1)

/-- The bytes before the end of the line. -/
def lineCommentWidth (s : Bytes) : Nat := (s.takeWhile (· ≠ 10)).length

/-- Blanks and comments at the front of a text: their width, and where among them a comment
starts that nothing closes. -/
structure Trivia where
  width : Nat := 0
  unclosed : Option Nat := none
deriving Repr, DecidableEq

def Trivia.shift (n : Nat) (t : Trivia) : Trivia := ⟨n + t.width, t.unclosed.map (n + ·)⟩

/-- Blanks and comments at the front. An unclosed comment takes all of the text. -/
def trivia : Bytes → Trivia
  | [] => {}
  | b :: rest =>
    if isBlank b then (trivia rest).shift 1
    else if b = 123 then
      match braceCommentWidth? rest with
      | some n => (trivia (rest.drop n)).shift (1 + n)
      | none => ⟨1 + rest.length, some 0⟩
    else
      match rest with
      | [] => {}
      | c :: more =>
        if b = 47 && c = 47 then
          let n := lineCommentWidth more
          (trivia (more.drop n)).shift (2 + n)
        else if b = 40 && c = 42 then
          match starCommentWidth? more with
          | some n => (trivia (more.drop n)).shift (2 + n)
          | none => ⟨2 + more.length, some 0⟩
        else {}
termination_by s => s.length
decreasing_by all_goals (simp only [List.length_drop, List.length_cons]; omega)

/-! ## Lexemes -/

/-- A token at the front of a text: it takes its first byte and `extra` more. -/
structure Lexeme where
  kind : TokenKind
  extra : Nat
  value : Bytes := []
  error : Option LexError := none
deriving Repr, DecidableEq

def isNameStart (b : UInt8) : Bool := b = 95 || (97 ≤ b && b ≤ 122) || (65 ≤ b && b ≤ 90)

/-- The width of the letters, digits and underscores at the front. -/
def nameWidth : Bytes → Nat
  | [] => 0
  | b :: rest =>
    if b < 128 then
      if isNameStart b || Bytes.isDigit b then 1 + nameWidth rest else 0
    else
      let d := Utf8.decode b rest
      if isLetter d.char || isDecimalDigit d.char then
        d.width + nameWidth (rest.drop (d.width - 1))
      else 0
termination_by s => s.length
decreasing_by all_goals (simp only [List.length_drop, List.length_cons]; omega)

/-- An identifier or a keyword, told apart by the folded spelling. -/
def nameLexeme (text : Bytes) : Lexeme :=
  let folded := foldName (Utf8.toString text)
  let kind := match Keyword.ofSpelling? folded with
    | some k => .keyword k
    | none => .identifier
  { kind, extra := text.length - 1, value := utf8 folded }

def digitsWidth (s : Bytes) : Nat := (s.takeWhile Bytes.isDigit).length

/-- The width of a fraction: a point that a digit follows. Two points are a range. -/
def fractionWidth : Bytes → Nat
  | p :: d :: rest => if p = 46 && Bytes.isDigit d then 2 + digitsWidth rest else 0
  | _ => 0

/-- The width of an exponent: the letter, maybe a sign, and at least one digit. -/
def exponentWidth : Bytes → Nat
  | e :: s :: rest =>
    if e = 101 || e = 69 then
      if Bytes.isDigit s then 2 + digitsWidth rest
      else if s = 43 || s = 45 then
        match digitsWidth rest with
        | 0 => 0
        | n => 2 + n
      else 0
    else 0
  | _ => 0

/-- The greatest integer. -/
def maxInt : Nat := 9223372036854775807

def numberLexeme (s : Bytes) : Lexeme :=
  let whole := digitsWidth s
  let fraction := fractionWidth (s.drop whole)
  let exponent := exponentWidth (s.drop (whole + fraction))
  let width := whole + fraction + exponent
  let text := s.take width
  let isInt := fraction + exponent = 0
  let ok := if isInt then decide (Bytes.digitsValue text ≤ maxInt) else (RealText.read? text).any (·.isFinite)
  { kind := if isInt then .intLit else .realLit, extra := width - 1, value := text, error := if ok then none else some (.badNumber text) }

/-- The digits after a dollar sign. A number out of range counts as the greatest one. -/
def hexLexeme (rest : Bytes) : Lexeme :=
  let digits := rest.takeWhile Bytes.isHexDigit
  let n := Bytes.hexValue digits
  { kind := .intLit, extra := digits.length, value := utf8 (decimal (min n maxInt)),
    error := if n ≤ maxInt then none else some (.badHexNumber (36 :: digits)) }

/-- The inside of a string literal up to its closing quote. -/
structure StringBody where
  value : Bytes := []
  width : Nat := 0
  closed : Bool := false
deriving Repr, DecidableEq

/-- Reads up to the closing quote, a newline or the end; two quotes stand for one. -/
def stringBody (quote : UInt8) : Bytes → StringBody
  | [] => {}
  | b :: rest =>
    if b = 10 then {}
    else if b = quote then
      match rest with
      | [] => ⟨[], 1, true⟩
      | c :: more =>
        if c = quote then
          let body := stringBody quote more
          ⟨quote :: body.value, 2 + body.width, body.closed⟩
        else ⟨[], 1, true⟩
    else
      let body := stringBody quote rest
      ⟨b :: body.value, 1 + body.width, body.closed⟩

def stringLexeme (quote : UInt8) (rest : Bytes) : Lexeme :=
  let body := stringBody quote rest
  { kind := .stringLit, extra := body.width, value := body.value,
    error := if body.closed then none else some .unterminatedString }

/-- The greatest code point. -/
def maxCodePoint : Nat := 0x10ffff

/-- The digits after a number sign, as a code point. -/
def charLexeme (rest : Bytes) : Lexeme :=
  let digits := rest.takeWhile Bytes.isDigit
  let n := Bytes.digitsValue digits
  let ok := !digits.isEmpty && n ≤ maxCodePoint
  { kind := .charLit, extra := digits.length, value := Utf8.encodeNat (if ok then n else 0),
    error := if ok then none else some (.badCharCode (35 :: digits)) }

/-- The longest operator or punctuation mark at the front. -/
def punct? (b : UInt8) (rest : Bytes) : Option Punct :=
  let starts := fun (p : Punct) => (utf8 p.spelling).isPrefixOf (b :: rest)
  match Punct.all.find? (fun p => p.spelling.length = 2 && starts p) with
  | some p => some p
  | none => Punct.all.find? (fun p => p.spelling.length = 1 && starts p)

def punctLexeme (b : UInt8) (rest : Bytes) : Lexeme :=
  match punct? b rest with
  | some p => { kind := .punct p, extra := p.spelling.length - 1 }
  | none =>
    let width := (Utf8.decode b rest).width
    { kind := .invalid, extra := width - 1, error := some (.unknownChar ((b :: rest).take width)) }

/-- The token at the front of `b :: rest`, which is no blank and starts no comment. -/
def lexeme (b : UInt8) (rest : Bytes) : Lexeme :=
  if isNameStart b || (128 ≤ b && isLetter (Utf8.decode b rest).char) then
    nameLexeme ((b :: rest).take (nameWidth (b :: rest)))
  else if Bytes.isDigit b then numberLexeme (b :: rest)
  else if b = 36 && rest.head?.any Bytes.isHexDigit then hexLexeme rest
  else if b = 39 || b = 34 then stringLexeme b rest
  else if b = 35 then charLexeme rest
  else punctLexeme b rest

end Lexer

/-- A place in a text from which tokens are read. -/
structure Lexer where
  file : Nat
  offset : Nat
  rest : Bytes
deriving Repr, DecidableEq

namespace Lexer

/-- Reading starts at the front. Offsets have 32 bits, so there is no lexer for a content of `2 ^ 32`
bytes or more; that capacity is not modelled, and nothing is said of such files. -/
def ofFile (f : SourceFile) : Lexer := ⟨f.id, 0, f.content⟩

/-- What reading one token yields. -/
structure Step where
  token : Token
  errors : List Diagnostic
  after : Lexer

def diagnostic (file start stop : Nat) (e : LexError) : Diagnostic :=
  .error e.code ⟨file, start, stop⟩ e.message

/-- Reads the next token; at the end of the text that is the end-of-file token, again and again. -/
def step (l : Lexer) : Step :=
  let t := trivia l.rest
  let start := l.offset + t.width
  let unclosed := t.unclosed.toList.map fun at_ =>
    diagnostic l.file (l.offset + at_) start .unterminatedComment
  match l.rest.drop t.width with
  | [] => ⟨{ kind := .endOfFile, span := ⟨l.file, start, start⟩ }, unclosed, ⟨l.file, start, []⟩⟩
  | b :: rest =>
    let x := lexeme b rest
    let stop := start + (1 + x.extra)
    ⟨{ kind := x.kind, span := ⟨l.file, start, stop⟩, text := b :: rest.take x.extra,
       value := x.value },
      unclosed ++ x.error.toList.map (diagnostic l.file start stop),
      ⟨l.file, stop, rest.drop x.extra⟩⟩

/-- A token that is not the end of the file takes at least one byte. -/
theorem step_rest_lt (l : Lexer) (h : l.step.token.kind ≠ .endOfFile) :
    l.step.after.rest.length < l.rest.length := by
  have hd : (l.rest.drop (trivia l.rest).width).length ≤ l.rest.length := by simp
  match heq : l.rest.drop (trivia l.rest).width with
  | [] => simp [step, heq] at h
  | b :: rest =>
    rw [heq, List.length_cons] at hd
    simp only [step, heq, List.length_drop]
    omega

/-- All tokens of a text, the end-of-file token last, and the errors in their order. -/
def tokens (l : Lexer) : List Token × List Diagnostic :=
  let s := l.step
  if _h : s.token.kind = .endOfFile then ([s.token], s.errors)
  else
    let (ts, es) := tokens s.after
    (s.token :: ts, s.errors ++ es)
termination_by l.rest.length
decreasing_by exact step_rest_lt l _h

end Lexer

/-- All tokens of a file, the end-of-file token last, and the errors in their order. -/
def SourceFile.tokenize (f : SourceFile) : List Token × List Diagnostic := (Lexer.ofFile f).tokens

/-- A lexer that can look one token ahead. The errors of a token are reported when it is first
read, and not again. -/
structure TokenStream where
  lexer : Lexer
  ahead : Option Token := none
  errors : List Diagnostic := []

namespace TokenStream

def ofFile (f : SourceFile) : TokenStream := { lexer := .ofFile f }

/-- Shows the next token and keeps it. -/
def peek (s : TokenStream) : Token × TokenStream :=
  match s.ahead with
  | some t => (t, s)
  | none =>
    let r := s.lexer.step
    (r.token, ⟨r.after, some r.token, s.errors ++ r.errors⟩)

/-- Takes the next token. -/
def next (s : TokenStream) : Token × TokenStream :=
  match s.ahead with
  | some t => (t, { s with ahead := none })
  | none =>
    let r := s.lexer.step
    (r.token, ⟨r.after, none, s.errors ++ r.errors⟩)

end TokenStream

end Pascaline
