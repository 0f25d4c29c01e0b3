import Pascaline.Text.RealText
import Pascaline.Text.Utf8

/-!
# TOML documents

Reading goes in two steps. The first turns the text into lines: tables that are opened and keys that
are given values. The second enters the lines one by one into a document. A table that was only
named on the way to another may be opened later; a key may not be given twice.
-/

namespace Pascaline.Toml

/-- A sequence of keys from the outermost table inwards. -/
abbrev KeyPath := List String

mutual

/-- A value as it is written. -/
inductive Literal where
  | text (s : String)
  | int (n : Int)
  | real (x : Float)
  | flag (b : Bool)
  | moment (text : String)
  | list (items : List Literal)
  | inline (entries : List Assignment)

/-- A key and its value. -/
inductive Assignment where
  | mk (key : KeyPath) (value : Literal)

end

/-- One line of a document, or several when a value spans them. -/
inductive Line where
  /-- Opens a table. -/
  | table (path : KeyPath)
  /-- Opens the next table of a list of tables. -/
  | tableItem (path : KeyPath)
  | entry (a : Assignment)

/-- What a document holds under a key. -/
inductive Item where
  | text (s : String)
  | int (n : Int)
  | real (x : Float)
  | flag (b : Bool)
  | moment (text : String)
  | list (items : List Item)
  | table (entries : List (String × Item))
  | tables (items : List (List (String × Item)))
deriving Inhabited

abbrev Table := List (String × Item)

/-! ## Characters -/

def isBlank (c : Char) : Bool := c = ' ' || c = '\t'

def isLineEnd (c : Char) : Bool := c = '\n' || c = '\r'

def isSpace (c : Char) : Bool := isBlank c || isLineEnd c

def isHex (c : Char) : Bool := c.isDigit || ('a' ≤ c && c ≤ 'f') || ('A' ≤ c && c ≤ 'F')

/-- What a key may consist of without quotes. -/
def isKeyChar (c : Char) : Bool := c.isAlphanum || c = '_' || c = '-'

/-- No control character but tabs and line ends stands in a document, a carriage return only in
front of a newline, and no replacement character. -/
def allowed : List Char → Bool
  | [] => true
  | '\r' :: '\n' :: rest => allowed rest
  | c :: rest =>
    (c = '\t' || c = '\n' || (32 ≤ c.toNat && c.toNat ≠ 0x7f && c ≠ Utf8.replacement)) && allowed rest

/-! ## Strings -/

/-- The character that an escape of one letter stands for. -/
def escaped? : Char → Option Char
  | 'b' => some '\x08'
  | 't' => some '\t'
  | 'n' => some '\n'
  | 'f' => some '\x0c'
  | 'r' => some '\r'
  | '"' => some '"'
  | '\\' => some '\\'
  | _ => none

/-- The character of a number in hexadecimal digits. -/
def codePoint? (digits : List Char) : Option Char :=
  if digits.all isHex then
    let n := Bytes.hexValue (Utf8.encode digits)
    if h : n.isValidChar then some (Char.ofNatAux n h) else none
  else none

/-- Puts a character in front of what was read. -/
def prepend (c : Char) : Option (List Char × List Char) → Option (List Char × List Char) :=
  Option.map fun (s, rest) => (c :: s, rest)

/-- The raw text up to the quote `q`, on one line. With `escapes`, a backslash keeps the character
behind it from being the end. -/
def lineBody (q : Char) (escapes : Bool) : List Char → Option (List Char × List Char)
  | [] => none
  | [c] => if c = q then some ([], []) else none
  | a :: b :: rest =>
    if a = q then some ([], b :: rest)
    else if isLineEnd a then none
    else if escapes && a = '\\' then
      if isLineEnd b then none else prepend a (prepend b (lineBody q escapes rest))
    else prepend a (lineBody q escapes (b :: rest))

/-- The raw text up to three `q`, over any number of lines. One or two `q` may stand anywhere, also
in front of the end; six in a row may not. -/
def linesBody (q : Char) (escapes : Bool) : List Char → Option (List Char × List Char)
  | [] => none
  | a :: rest =>
    let run := ((a :: rest).takeWhile (· = q)).length
    if 6 ≤ run then none
    else if 3 ≤ run then some (List.replicate (run - 3) q, (a :: rest).drop run)
    else match rest with
      | [] => none
      | b :: rest =>
        if escapes && a = '\\' then prepend a (prepend b (linesBody q escapes rest))
        else prepend a (linesBody q escapes (b :: rest))

/-- What raw text with escapes stands for. A backslash at the end of a line joins it with the text
that follows: `joining` says that blanks and line ends are passed over. -/
def unescape : (joining : Bool) → List Char → Option (List Char)
  | _, [] => some []
  | _, '\\' :: 'u' :: a :: b :: c :: d :: rest => do
    return (← codePoint? [a, b, c, d]) :: (← unescape false rest)
  | _, '\\' :: 'U' :: a :: b :: c :: d :: e :: f :: g :: h :: rest => do
    return (← codePoint? [a, b, c, d, e, f, g, h]) :: (← unescape false rest)
  | _, '\\' :: c :: rest =>
    if isSpace c then
      if ((c :: rest).takeWhile isSpace).contains '\n' then unescape true rest else none
    else do return (← escaped? c) :: (← unescape false rest)
  | joining, c :: rest =>
    if joining && isSpace c then unescape true rest
    else do return c :: (← unescape false rest)

/-- A line end right behind the opening quotes does not count. -/
def dropFirstLineEnd : List Char → List Char
  | '\n' :: rest => rest
  | '\r' :: '\n' :: rest => rest
  | s => s

/-- A string that opens with `q`, behind that quote. -/
def readString (q : Char) (rest : List Char) : Option (String × List Char) := do
  let escapes := q = '"'
  let (raw, rest) ←
    if rest.take 2 = [q, q] then
      (linesBody q escapes (rest.drop 2)).map fun (raw, rest) => (dropFirstLineEnd raw, rest)
    else lineBody q escapes rest
  let s ← if escapes then unescape false raw else some raw
  return (String.ofList s, rest)

/-! ## Numbers and moments -/

/-- Every underscore stands between digits. -/
def underscoresFit : (afterDigit : Bool) → List Char → Bool
  | afterDigit, [] => afterDigit
  | afterDigit, c :: rest => (c ≠ '_' || afterDigit) && underscoresFit (isHex c) rest

def dropUnderscores (s : List Char) : List Char := s.filter (· ≠ '_')

/-- A number of more than one digit does not start with zero. -/
def hasLeadingZero : List Char → Bool
  | '+' :: '0' :: rest | '-' :: '0' :: rest => !rest.isEmpty
  | '0' :: rest => !rest.isEmpty
  | _ => false

def inRange (n : Int) : Option Int := if -0x8000000000000000 ≤ n && n < 0x8000000000000000 then some n else none

/-- An integer in a base that its two-letter mark gives. -/
def basedInt? (base : Nat) (digits : List Char) : Option Int :=
  if underscoresFit false digits then
    inRange ((dropUnderscores digits).foldl
      (fun n c => n * base + ((Bytes.hexDigit? (Bytes.ch c)).getD 0 : Nat)) (0 : Nat))
  else none

def decimalInt? (s : List Char) : Option Int :=
  if underscoresFit false s && !hasLeadingZero s then
    match dropUnderscores s with
    | '-' :: ds => inRange (-(Bytes.digitsValue (Utf8.encode ds) : Int))
    | '+' :: ds => inRange (Bytes.digitsValue (Utf8.encode ds))
    | ds => inRange (Bytes.digitsValue (Utf8.encode ds))
  else none

/-- The parts of a number between points and exponent marks. -/
def numberParts (s : List Char) : List (List Char) :=
  (s.splitOnP fun c => c = '.' || c = 'e' || c = 'E').filter (!·.isEmpty)

/-- A digit follows every point. -/
def pointsFit : List Char → Bool
  | '.' :: c :: rest => c.isDigit && pointsFit (c :: rest)
  | ['.'] => false
  | _ :: rest => pointsFit rest
  | [] => true

def real? (s : List Char) : Option Float :=
  let parts := numberParts s
  if parts.all (underscoresFit false) && !hasLeadingZero (parts.headD []) && pointsFit s then
    (RealText.read? (Utf8.encode (dropUnderscores s))).filter (!·.isInf)
  else none

/-- Takes one or two digits with a value below the bound. -/
def twoDigits (least most : Nat) (loose : Bool) : List Char → Option (List Char)
  | a :: b :: rest =>
    let fits := fun (n : Nat) => least ≤ n && n ≤ most
    if a.isDigit && b.isDigit then
      if fits ((a.toNat - 48) * 10 + (b.toNat - 48)) then some rest else none
    else if a.isDigit && loose && fits (a.toNat - 48) then some (b :: rest)
    else none
  | _ => none

def expectChar (c : Char) : List Char → Option (List Char)
  | a :: rest => if a = c then some rest else none
  | [] => none

def daysInMonth (year month : Nat) : Nat :=
  if month = 2 then if (year % 4 = 0 && year % 100 ≠ 0) || year % 400 = 0 then 29 else 28
  else if month = 4 || month = 6 || month = 9 || month = 11 then 30 else 31

/-- `year-month-day` at the front. -/
def afterDate (s : List Char) : Option (List Char) := do
  let value := fun (ds : List Char) => Bytes.digitsValue (Utf8.encode ds)
  let year := s.take 4
  if year.length < 4 || !year.all Char.isDigit then none
  else
    let rest ← expectChar '-' (s.drop 4)
    let afterMonth ← twoDigits 1 12 false rest
    let day ← expectChar '-' afterMonth
    twoDigits 1 (daysInMonth (value year) (value (rest.take 2))) false day

/-- `hour:minute:second` at the front, maybe with a fraction. -/
def afterTime (s : List Char) : Option (List Char) := do
  let s ← expectChar ':' (← twoDigits 0 23 true s)
  let s ← twoDigits 0 59 false (← expectChar ':' (← twoDigits 0 59 false s))
  match s with
  | '.' :: c :: rest => if c.isDigit then some (rest.dropWhile Char.isDigit) else some s
  | _ => some s

/-- `Z` or an offset, and nothing else. -/
def isZone : List Char → Bool
  | ['Z'] => true
  | s :: rest => (s = '+' || s = '-') &&
    (do twoDigits 0 60 false (← expectChar ':' (← twoDigits 0 24 false rest))) == some []
  | [] => false

/-- A date, a time of day, or both with or without a zone. -/
def isMoment (s : List Char) : Bool :=
  match afterDate s with
  | some [] => true
  | some rest => match (expectChar 'T' rest).bind afterTime with
    | some [] => true
    | some zone => isZone zone
    | none => false
  | none => afterTime s == some []

/-- Drops blanks at the end. -/
def trimEnd (s : List Char) : List Char := (s.reverse.dropWhile (· = ' ')).reverse

/-- A number or moment at the front of a text that starts with a digit or a sign. -/
def readNumber (s : List Char) : Option (Literal × List Char) :=
  let cut := fun (p : Char → Bool) => (s.takeWhile p, s.dropWhile p)
  let based := fun (base : Nat) (p : Char → Bool) =>
    let body := (s.drop 2).takeWhile fun c => p c || c = '_'
    (basedInt? base body).map fun n => (Literal.int n, (s.drop 2).drop body.length)
  let number := fun (signs : Nat) =>
    let whole := ((s.drop signs).takeWhile fun c => c.isDigit || c = '_').length + signs
    if !(((s.drop signs).head?.getD ' ').isDigit) then none
    else if (s.drop whole).head?.any fun c => c = '.' || c = 'e' || c = 'E' then
      let tail := (s.drop whole).takeWhile fun c => c.isDigit || "_.-+eE".toList.contains c
      (real? (s.take whole ++ tail)).map fun x => (Literal.real x, (s.drop whole).drop tail.length)
    else (decimalInt? (s.take whole)).map fun n => (Literal.int n, s.drop whole)
  match s with
  | '0' :: 'x' :: _ => based 16 isHex
  | '0' :: 'o' :: _ => based 8 fun c => '0' ≤ c && c ≤ '7'
  | '0' :: 'b' :: _ => based 2 fun c => c = '0' || c = '1'
  | '+' :: 'i' :: 'n' :: 'f' :: rest => some (.real RealText.infinity, rest)
  | '-' :: 'i' :: 'n' :: 'f' :: rest => some (.real (-RealText.infinity), rest)
  | '+' :: 'n' :: 'a' :: 'n' :: rest | '-' :: 'n' :: 'a' :: 'n' :: rest =>
    some (.real RealText.notANumber, rest)
  | '+' :: _ | '-' :: _ => number 1
  | _ =>
    match (s.dropWhile Char.isDigit).head? with
    | some '-' | some ':' =>
      let (raw, rest) := cut fun c => c.isDigit || "-:Tt .Zz+".toList.contains c
      let plain := (trimEnd raw).map fun c => if c = 't' || c = ' ' then 'T' else if c = 'z' then 'Z' else c
      if isMoment plain then some (.moment (String.ofList plain), rest) else none
    | _ => number 0

/-! ## Keys and values -/

def skipBlanks (s : List Char) : List Char := s.dropWhile isBlank

/-- Drops a comment, up to the end of its line. -/
def skipComment (s : List Char) : List Char := s.dropWhile (!isLineEnd ·)

/-- Drops blanks, line ends and comments. -/
def skipSpace : (fuel : Nat) → List Char → List Char
  | 0, s => s
  | fuel + 1, s => match s.dropWhile isSpace with
    | '#' :: rest => skipSpace fuel (skipComment rest)
    | s => s

/-- Keys with points between them, up to and without what ends them. -/
def readKeys : (fuel : Nat) → List Char → Option (KeyPath × List Char)
  | 0, _ => none
  | fuel + 1, s => do
    let (key, rest) ← match skipBlanks s with
      | '"' :: rest => (lineBody '"' true rest).bind fun (raw, rest) =>
        (unescape false raw).map fun k => (String.ofList k, rest)
      | '\'' :: rest => (lineBody '\'' false rest).map fun (raw, rest) => (String.ofList raw, rest)
      | s =>
        let bare := s.takeWhile isKeyChar
        if bare.isEmpty then none else some (String.ofList bare, s.drop bare.length)
    match skipBlanks rest with
    | '.' :: rest => do
      let (keys, rest) ← readKeys fuel rest
      return (key :: keys, rest)
    | rest => return ([key], rest)

mutual

/-- A value. -/
def readValue : (fuel : Nat) → List Char → Option (Literal × List Char)
  | 0, _ => none
  | fuel + 1, s =>
    match skipBlanks s with
    | '[' :: rest => (readItems fuel rest).map fun (xs, rest) => (.list xs, rest)
    | '\x7b' :: rest => (readInline fuel rest).map fun (xs, rest) => (.inline xs, rest)
    | '"' :: rest => (readString '"' rest).map fun (s, rest) => (.text s, rest)
    | '\'' :: rest => (readString '\'' rest).map fun (s, rest) => (.text s, rest)
    | 't' :: 'r' :: 'u' :: 'e' :: rest => some (.flag true, rest)
    | 'f' :: 'a' :: 'l' :: 's' :: 'e' :: rest => some (.flag false, rest)
    | 'i' :: 'n' :: 'f' :: rest => some (.real RealText.infinity, rest)
    | 'n' :: 'a' :: 'n' :: rest => some (.real RealText.notANumber, rest)
    | s => if (s.head?.getD ' ').isDigit || s.head? = some '+' || s.head? = some '-' then readNumber s
      else none

/-- The items of a list behind its bracket or a comma. -/
def readItems : (fuel : Nat) → List Char → Option (List Literal × List Char)
  | 0, _ => none
  | fuel + 1, s =>
    match skipSpace s.length s with
    | ']' :: rest => some ([], rest)
    | s => do
      let (x, rest) ← readValue fuel s
      match skipSpace rest.length rest with
      | ',' :: rest => do
        let (xs, rest) ← readItems fuel rest
        return (x :: xs, rest)
      | ']' :: rest => return ([x], rest)
      | _ => none

/-- The entries of a table in braces, on one line. -/
def readInline : (fuel : Nat) → List Char → Option (List Assignment × List Char)
  | 0, _ => none
  | fuel + 1, s =>
    match skipBlanks s with
    | '\x7d' :: rest => some ([], rest)
    | s => do
      let (a, rest) ← readAssignment fuel s
      match skipBlanks rest with
      | ',' :: rest => do
        if (skipBlanks rest).head? = some '\x7d' then none
        else
          let (xs, rest) ← readInline fuel rest
          return (a :: xs, rest)
      | '\x7d' :: rest => return ([a], rest)
      | _ => none

/-- A key, an equals sign and a value. -/
def readAssignment : (fuel : Nat) → List Char → Option (Assignment × List Char)
  | 0, _ => none
  | fuel + 1, s => do
    let (key, rest) ← readKeys s.length s
    let rest ← expectChar '=' rest
    let (value, rest) ← readValue fuel rest
    return (.mk key value, rest)

end

/-! ## Lines -/

/-- A header or an assignment at the start of a line. -/
def readLine (s : List Char) : Option (Line × List Char) :=
  match s with
  | '[' :: '[' :: rest => do
    let (path, rest) ← readKeys rest.length rest
    let rest ← expectChar ']' (← expectChar ']' rest)
    return (.tableItem path, rest)
  | '[' :: rest => do
    let (path, rest) ← readKeys rest.length rest
    return (.table path, ← expectChar ']' rest)
  | s => (readAssignment (s.length + 1) s).map fun (a, rest) => (.entry a, rest)

/-- All lines. Behind each comes nothing but a comment. -/
def readLines : (fuel : Nat) → List Char → Option (List Line)
  | 0, _ => none
  | fuel + 1, s =>
    match skipSpace s.length s with
    | [] => some []
    | s => do
      let (line, rest) ← readLine s
      let rest := match skipBlanks rest with
        | '#' :: rest => skipComment rest
        | rest => rest
      if (rest.head?.map isLineEnd).getD true then return line :: (← readLines fuel rest) else none

/-! ## Documents -/

/-- A document that is being put together. `implicits` are the tables that were only named on the
way, `lists` the keys whose latest value is a list, and `keys` all that were written, in order. -/
structure Document where
  root : Table := []
  implicits : List KeyPath := []
  lists : List KeyPath := []
  keys : List KeyPath := []
deriving Inhabited

/-- Replaces the item of a key, or adds it at the end. -/
def Table.put (key : String) (item : Item) : Table → Table
  | [] => [(key, item)]
  | (k, x) :: rest => if k = key then (key, item) :: rest else (k, x) :: Table.put key item rest

/-- Changes the table at the end of a path. A list of tables stands for its last one. -/
def Table.modifyAt (f : Table → Option Table) : KeyPath → Table → Option Table
  | [], t => f t
  | k :: path, t => do
    match t.lookup k with
    | some (.table inner) => return Table.put k (.table (← Table.modifyAt f path inner)) t
    | some (.tables items) =>
      let last ← Table.modifyAt f path (items.getLastD [])
      return Table.put k (.tables (items.dropLast ++ [last])) t
    | _ => none

/-- The table at the end of a path. -/
def Table.tableAt : KeyPath → Table → Option Table
  | [], t => some t
  | k :: path, t => match t.lookup k with
    | some (.table inner) => Table.tableAt path inner
    | some (.tables items) => Table.tableAt path (items.getLastD [])
    | _ => none

namespace Document

def addImplicit (d : Document) (path : KeyPath) : Document :=
  if d.implicits.contains path then d else { d with implicits := path :: d.implicits }

def removeImplicit (d : Document) (path : KeyPath) : Document :=
  { d with implicits := d.implicits.filter (· ≠ path) }

/-- Notes whether the value of a key is a list. A key without a name speaks for its table. -/
def noteList (d : Document) (table : KeyPath) (key : String) (isList : Bool) : Document :=
  let path := if key ≠ "" then table ++ [key] else if table.isEmpty then [""] else table
  let others := d.lists.filter (· ≠ path)
  { d with lists := if isList then path :: others else others }

/-- Gives a key of a table its value. One that is there already is kept if it was only named on the
way, and replaced if it is a list. -/
def set (d : Document) (table : KeyPath) (key : String) (item : Item) : Option Document := do
  let path := table ++ [key]
  let there := (← d.root.tableAt table).lookup key
  let replace := do
    return { d with root := ← d.root.modifyAt (fun t => some (t.put key item)) table }
  if there.isNone then replace
  else if d.lists.contains path then return (← replace).removeImplicit path
  else if d.implicits.contains path then return d.removeImplicit path
  else none

/-- Makes the tables on the way to a path; `done` is the way so far. -/
def makeWay (d : Document) : (done rest : KeyPath) → Option Document
  | _, [] => some d
  | done, k :: rest => do
    let path := done ++ [k]
    let there := (← d.root.tableAt done).lookup k
    let d ← if there.isSome then some d else do
      let root ← d.root.modifyAt (fun t => some (t.put k (.table []))) done
      some ({ d with root }.addImplicit path)
    d.makeWay path rest

/-- Opens the table at a path. -/
def openTable (d : Document) (path : KeyPath) : Option Document := do
  let d ← d.makeWay [] path.dropLast
  d.set path.dropLast (path.getLastD "") (.table [])

/-- Opens the next table of the list at a path. -/
def openItem (d : Document) (path : KeyPath) : Option Document := do
  let d ← d.makeWay [] path.dropLast
  let key := path.getLastD ""
  let root ← d.root.modifyAt (fun t => match t.lookup key with
    | none => some (t.put key (.tables [[]]))
    | some (.tables items) => some (t.put key (.tables (items ++ [[]])))
    | some _ => none) path.dropLast
  return { d with root }

/-- Opens the tables that the keys of an assignment name on the way. -/
def openWay (d : Document) : (table rest : KeyPath) → Option Document
  | _, [] => some d
  | table, k :: rest => do
    let path := table ++ [k]
    ((← (d.addImplicit path).openTable path)).openWay path rest

mutual

/-- Works out the value of a key of a table. -/
def eval (table : KeyPath) (key : String) (inList : Bool) :
    Literal → Document → Option (Item × Document)
  | .text s, d => some (.text s, d)
  | .int n, d => some (.int n, d)
  | .real x, d => some (.real x, d)
  | .flag b, d => some (.flag b, d)
  | .moment t, d => some (.moment t, d)
  | .list xs, d => do
    let (items, d) ← evalItems table key xs (d.noteList table key true)
    return (.list items, d)
  | .inline entries, d => do
    let path := table ++ [key]
    let d := d.addImplicit path
    let d ← if inList then d.openItem path else d.openTable path
    let d ← assignAll path entries d
    return (.table (← d.root.tableAt path), d)

def evalItems (table : KeyPath) (key : String) :
    List Literal → Document → Option (List Item × Document)
  | [], d => some ([], d)
  | x :: xs, d => do
    let (item, d) ← eval table key true x d
    let (items, d) ← evalItems table key xs d
    return (item :: items, d)

/-- Enters an assignment into a table. -/
def assign (table : KeyPath) : Assignment → Document → Option Document
  | .mk keys value, d => do
    let d ← d.openWay table keys.dropLast
    let table := table ++ keys.dropLast
    let key := keys.getLastD ""
    let d := { d with keys := d.keys ++ [table ++ [key]] }
    let (item, d) ← eval table key false value d
    let d ← d.set table key item
    return d.noteList table key (match value with
      | .list _ => true
      | _ => false)

def assignAll (table : KeyPath) : List Assignment → Document → Option Document
  | [], d => some d
  | a :: rest, d => do assignAll table rest (← assign table a d)

end

/-- Enters one line; `table` is the one that is open. -/
def line (state : KeyPath × Document) : Line → Option (KeyPath × Document)
  | .table path => do
    let d ← state.2.openTable path
    return (path, { d with keys := d.keys ++ [path] }.noteList path "" false)
  | .tableItem path => do
    let d ← state.2.openItem path
    return (path, { d with keys := d.keys ++ [path] }.noteList path "" false)
  | .entry a => do return (state.1, ← assign state.1 a state.2)

/-- Drops a byte order mark. -/
def dropMark : Bytes → Bytes
  | 0xff :: 0xfe :: rest | 0xfe :: 0xff :: rest | 0xef :: 0xbb :: 0xbf :: rest => rest
  | s => s

/-- Reads a document. -/
def parse? (content : Bytes) : Option Document := do
  let s := (← Utf8.toString? (dropMark content)).toList
  if !allowed s then none
  else
    let lines ← readLines (s.length + 1) s
    return (← lines.foldlM line ([], {})).2

end Document

/-! ## Key text -/

/-- How a key is written: without quotes if it can be. -/
def keyText (key : String) : String :=
  let escape := fun (c : Char) => match c with
    | '"' => "\\\""
    | '\\' => "\\\\"
    | '\x08' => "\\b"
    | '\t' => "\\t"
    | '\n' => "\\n"
    | '\x0c' => "\\f"
    | '\r' => "\\r"
    | c => if c.toNat < 32 || c.toNat = 0x7f then
        "\\u00" ++ Bytes.toHex [c.toNat.toUInt8] else String.singleton c
  if key ≠ "" && key.toList.all isKeyChar then key
  else "\"" ++ String.join (key.toList.map escape) ++ "\""

def pathText (path : KeyPath) : String := ".".intercalate (path.map keyText)

end Pascaline.Toml
