import Pascaline.Text.CanonicalTable
import Pascaline.Text.LetterCase

/-!
# The composed canonical form

Texts that look alike may differ in their code points: an accent is part of a letter or a code
point of its own. The composed canonical form (NFC) picks one spelling of each. It takes every
character apart, orders the marks after each letter by their class, and puts together what has a
composed form. `foldName` adds lower case, and is how two spellings of one identifier agree.
-/

namespace Pascaline.Canonical

/-- The combining class: 0 for a character that starts a cluster. -/
def combiningClass (c : Char) : Nat :=
  match classTable.row c.toNat with
  | [_, hi, k] => if c.toNat ≤ hi then k else 0
  | _ => 0

/-! ## Hangul syllables are arithmetic -/

def hangulBase : Nat := 0xac00

/-- The two or three letters of a Hangul syllable. -/
def hangulLetters (c : Nat) : List Char :=
  let i := c - hangulBase
  let trail := i % 28
  [Char.ofNat (0x1100 + i / 588), Char.ofNat (0x1161 + i % 588 / 28)] ++
    (if trail = 0 then [] else [Char.ofNat (0x11a7 + trail)])

/-- Puts a Hangul letter after an initial letter or an open syllable. -/
def hangulCompose (a b : Nat) : Option Char :=
  if 0x1100 ≤ a && a < 0x1113 && 0x1161 ≤ b && b < 0x1176 then
    some (Char.ofNat (hangulBase + ((a - 0x1100) * 21 + (b - 0x1161)) * 28))
  else if hangulBase ≤ a && a < 0xd7a4 && (a - hangulBase) % 28 == 0 && 0x11a8 ≤ b && b < 0x11c3 then
    some (Char.ofNat (a + (b - 0x11a7)))
  else none

/-! ## Taking apart -/

/-- The full decomposition of a character; `depth` bounds the steps, of which there are at most
four. -/
def decomposeChar : (depth : Nat) → Char → List Char
  | 0, c => [c]
  | depth + 1, c =>
    if hangulBase ≤ c.toNat && c.toNat < 0xd7a4 then hangulLetters c.toNat
    else match decompositionTable.row c.toNat with
      | [d, a, b] =>
        if d = c.toNat then
          decomposeChar depth (Char.ofNat a) ++
            (if b = 0 then [] else decomposeChar depth (Char.ofNat b))
        else [c]
      | _ => [c]

/-- Puts a mark in front of the marks of a higher class at the end of the text, which is held in
reverse. -/
def insertMark (c : Char) (k : Nat) : List Char → List Char
  | d :: ds => if k < combiningClass d then d :: insertMark c k ds else c :: d :: ds
  | [] => [c]

/-- Orders the marks after each letter by class, stably; the argument so far is in reverse. -/
def orderMarks (cs : List Char) : List Char :=
  (cs.foldl (fun acc c =>
    let k := combiningClass c
    if k = 0 then c :: acc else insertMark c k acc) []).reverse

def decompose (cs : List Char) : List Char :=
  orderMarks (cs.flatMap (decomposeChar 6))

/-! ## Putting together -/

/-- What a pair of characters, as one number, composes to. -/
def composed? (pair : Nat) : Option Char :=
  match compositionTable.row pair with
  | [p, c] => if p = pair then some (Char.ofNat c) else none
  | _ => none

/-- The composed form of two characters. -/
def composePair (a b : Char) : Option Char :=
  match hangulCompose a.toNat b.toNat with
  | some c => some c
  | none => composed? (a.toNat * 0x1000000 + b.toNat)

/-- Composition under way: the finished text in reverse, the character that marks attach to, and
the marks after it that did not attach, in reverse, with the class of the last. -/
structure Composing where
  done : List Char := []
  starter : Option Char := none
  marks : List Char := []
  lastClass : Nat := 0

def Composing.flush (s : Composing) : List Char :=
  s.marks ++ s.starter.toList ++ s.done

def Composing.push (s : Composing) (c : Char) : Composing :=
  let k := combiningClass c
  let attached := if s.marks.isEmpty || s.lastClass < k then s.starter.bind (composePair · c) else none
  match attached with
  | some x => { s with starter := some x }
  | none =>
    if k = 0 then ⟨s.flush, some c, [], 0⟩
    else { s with marks := c :: s.marks, lastClass := k }

def compose (cs : List Char) : List Char :=
  (cs.foldl Composing.push {}).flush.reverse

/-- The composed canonical form. -/
def normalize (cs : List Char) : List Char := compose (decompose cs)

end Canonical

/-- The spelling by which identifiers are compared: composed canonical form in lower case. -/
def foldName (s : String) : String :=
  let cs := s.toList
  if cs.all (·.toNat < 128) then String.ofList (cs.map lowerChar)
  else String.ofList ((Canonical.normalize cs).map lowerChar)

end Pascaline
