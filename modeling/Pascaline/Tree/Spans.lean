import Pascaline.Source.File
import Pascaline.Text.Quoted
import Pascaline.Tree

/-!
# Spans of a tree

What the spans of a parsed file must satisfy: names and declarations are not empty, lie inside the
file, and the declarations of a part stand in the order of the text.
-/

namespace Pascaline.Tree

/-- What may be wrong with the spans of a file. -/
inductive SpanError where
  | emptyFile (span : Span)
  | wrongFile (found expected : Nat)
  | beyondContent (stop size : Nat)
  | emptyName (text : String)
  | nameOutside (id : Ident) (file : Span)
  | emptyDecl (index : Nat) (span : Span)
  | declOutside (index : Nat) (span file : Span)
  | declOrder (index start previous : Nat)
  | use (text : String) (cause : SpanError)
  | bodyOutside (span file : Span)
deriving Repr

def SpanError.message : SpanError → String
  | emptyFile s => "file span is empty: " ++ s.render
  | wrongFile f w => "file span points to file " ++ decimal f ++ ", want " ++ decimal w
  | beyondContent e n => "file span ends at " ++ decimal e ++ " beyond content " ++ decimal n
  | emptyName t => "name " ++ quoted t ++ " has an empty span"
  | nameOutside i f =>
    "name " ++ quoted i.text ++ " span " ++ i.span.render ++ " outside file " ++ f.render
  | emptyDecl i s => "declaration " ++ decimal i ++ " has an empty span " ++ s.render
  | declOutside i s f =>
    "declaration " ++ decimal i ++ " span " ++ s.render ++ " outside file " ++ f.render
  | declOrder i s p =>
    "declaration " ++ decimal i ++ " starts at " ++ decimal s ++ " before its predecessor at " ++ decimal p
  | use t c => "uses " ++ t ++ ": " ++ c.message
  | bodyOutside s f => "main block " ++ s.render ++ " outside file " ++ f.render

/-- Whether the inner span lies in the outer one. -/
def within (inner outer : Span) : Bool :=
  inner.file == outer.file && outer.start ≤ inner.start && inner.stop ≤ outer.stop

def checkName (file : Span) (id : Ident) : Except SpanError Unit :=
  if id.span.stop ≤ id.span.start then .error (.emptyName id.text)
  else if !within id.span file then .error (.nameOutside id file)
  else .ok ()

/-- Checks declarations from number `i` on, none of which may start before `previous`. -/
def checkDecls (file : Span) : (i previous : Nat) → List Decl → Except SpanError Unit
  | _, _, [] => .ok ()
  | i, previous, d :: ds =>
    if d.span.stop ≤ d.span.start then .error (.emptyDecl i d.span)
    else if !within d.span file then .error (.declOutside i d.span file)
    else if d.span.start < previous then .error (.declOrder i d.span.start previous)
    else checkDecls file (i + 1) d.span.start ds

def checkUses (file : Span) : List Ident → Except SpanError Unit
  | [] => .ok ()
  | u :: us =>
    match checkName file u with
    | .ok () => checkUses file us
    | .error e => .error (.use u.text e)

/-- The first fault of the spans of a file. -/
def File.checkSpans (f : File) (source : SourceFile) : Except SpanError Unit := do
  if f.span.stop ≤ f.span.start then throw (.emptyFile f.span)
  if f.span.file ≠ source.id then throw (.wrongFile f.span.file source.id)
  if source.content.length < f.span.stop then
    throw (.beyondContent f.span.stop source.content.length)
  checkName f.span f.name
  checkDecls f.span 0 0 f.interface
  checkDecls f.span 0 0 f.implementation
  checkUses f.span f.allUses
  match f.body with
  | some b => if within b.span f.span then .ok () else throw (.bodyOutside b.span f.span)
  | none => .ok ()

end Pascaline.Tree
