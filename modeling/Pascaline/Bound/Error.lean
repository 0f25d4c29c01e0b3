import Pascaline.Bound
import Pascaline.Diagnostic
import Pascaline.Types.Layout

/-!
# Binding errors

Each way a file can fail to bind, with its number and its wording. Types in messages are already
rendered.
-/

namespace Pascaline.Bound

inductive BindError where
  -- units
  | listedTwice (unit : String)
  | unknownUnit (unit : String)
  | programUsed (unit : String)
  -- declarations
  | takenInScope (name : String) (isType : Bool)
  | takenInClass (selector : String)
  | taken (selector : String)
  | typeTaken (name : String)
  | constructorOutsideClass (name : String)
  | directiveOutsideClass
  | directiveOnBody
  | resultDiffers (name : String)
  | neverImplemented (name : String)
  | localClass (name : String)
  | notAnOwnClass (name : String)
  | noSuchMethod (owner selector : String)
  | implementedTwice (owner selector : String)
  | implementationDiffers (owner name : String)
  | bodyMissing (owner name : String)
  | layout (e : LayoutError)
  -- types
  | typeNotExported (unit name : String)
  | undeclaredType (name : String)
  | notAType (name : String) (kind : SymbolKind)
  | classInExpression
  | lengthNotInteger (type : String)
  | lengthOutOfRange (n : Int64)
  | lengthNegative (n : Int64)
  -- names
  | thisOutsideMethod
  | undeclared (name : String)
  | typeAsValue (name : String)
  | unitAsValue (name : String)
  | notARoutineValue (name : String)
  | notExported (unit name : String)
  | noMembers (type : String)
  | noSuchMember (owner name : String)
  | noBaseClass (owner : String)
  | bareBase
  -- expressions
  | mismatch (source target : String)
  | procedureAsValue
  | integerRange (text : Bytes)
  | malformedReal (text : Bytes)
  | unaryOperand (op : Tree.UnaryOp) (type : String)
  | binaryOperands (op : BinaryOp) (left right : String)
  | notIndexable (type : String)
  | notAPointer (type : String)
  | noConstructor (type : String)
  | noConstructorWithArgs (owner : String)
  | notAddressable
  -- constants
  | notConstant
  | thisNotConstant
  | elementNotConstant
  | allocationNotConstant
  | methodCallNotConstant
  | callNotConstant
  | callOfNotConstant (name : String)
  -- calls
  | symbolNotCallable (kind : SymbolKind) (name : String)
  | notCallable (what : String)
  | noOverload (name : String) (args : List String)
  | argumentCount (type : String) (expected given : Nat)
  -- statements
  | thisAssigned
  | characterAssigned
  | constantAssigned
  | valueAssigned
  | valueAsStatement
  | loopVariableMember
  | loopVariableKind (name : String) (kind : SymbolKind)
  | loopVariableType (type : String)
  | selectorType (type : String)
  | duplicateLabel (label : Value)
  | jumpOutsideLoop (jump : Tree.JumpKind)

namespace BindError

def layoutCode (e : LayoutError) : Nat :=
  match e.fault with
  | .unknownBase _ => 3002
  | .cyclicInheritance _ => 3003
  | .badOverride _ => 3013
  | .duplicateMember _ => 3010

def number : BindError → Nat
  | listedTwice _ => 4006
  | unknownUnit _ => 4002
  | programUsed _ => 4003
  | takenInScope _ isType => if isType then 3001 else 3010
  | typeTaken _ => 3001
  | layout e => layoutCode e
  | noSuchMethod .. | notExported .. | noMembers _ | noSuchMember .. => 3004
  | noConstructorWithArgs _ | noOverload .. | argumentCount .. => 3005
  | notConstant | thisNotConstant | elementNotConstant | allocationNotConstant
  | methodCallNotConstant | callNotConstant | callOfNotConstant _ => 3006
  | thisOutsideMethod => 3007
  | noBaseClass _ => 3008
  | typeNotExported .. | undeclaredType _ | undeclared _ => 3009
  | takenInClass _ | taken _ | implementedTwice .. | duplicateLabel _ => 3010
  | resultDiffers _ | implementationDiffers .. | typeAsValue _ | unitAsValue _ | mismatch ..
  | procedureAsValue | valueAsStatement | loopVariableType _ | selectorType _ => 3011
  | thisAssigned | characterAssigned | constantAssigned | valueAssigned | loopVariableMember
  | loopVariableKind .. => 3012
  | directiveOutsideClass | directiveOnBody => 3013
  | localClass _ | notAType .. | classInExpression => 3014
  | notARoutineValue _ | symbolNotCallable .. | notCallable _ => 3015
  | neverImplemented _ | bodyMissing .. => 3016
  | jumpOutsideLoop _ => 3017
  | lengthNotInteger _ | lengthOutOfRange _ | lengthNegative _ => 3018
  | constructorOutsideClass _ | notAnOwnClass _ | noConstructor _ => 3019
  | bareBase | integerRange _ | malformedReal _ | unaryOperand .. | binaryOperands ..
  | notIndexable _ | notAPointer _ | notAddressable => 3020

def code (e : BindError) : Code := ⟨e.number.toUInt16⟩

def message : BindError → Bytes
  | listedTwice u => "unit " ++ u ++ " is listed twice"
  | unknownUnit u => "unknown unit " ++ u
  | programUsed u => u ++ " is a program and cannot be used"
  | takenInScope n _ => n ++ " is already declared in this scope"
  | takenInClass s => s ++ " is already declared in this class"
  | taken s => s ++ " is already declared"
  | typeTaken n => "type " ++ n ++ " is already declared"
  | constructorOutsideClass n => "constructor " ++ n ++ " must be declared inside a class"
  | directiveOutsideClass => "virtual and override apply only to methods"
  | directiveOnBody => "directives belong to the declaration inside the class"
  | resultDiffers n => "result type of " ++ n ++ " differs from its declaration"
  | neverImplemented n => n ++ " is declared but never implemented"
  | localClass n => "class " ++ n ++ " must be declared at unit level"
  | notAnOwnClass n => n ++ " is not a class declared in this unit"
  | noSuchMethod c s => "class " ++ c ++ " declares no method " ++ s
  | implementedTwice c s => c ++ "." ++ s ++ " is implemented twice"
  | implementationDiffers c n => c ++ "." ++ n ++ " does not match its declaration"
  | bodyMissing c n => c ++ "." ++ n ++ " needs a body"
  | layout e => e.message
  | typeNotExported u n | notExported u n => "unit " ++ u ++ " exports no " ++ n
  | undeclaredType n => "undeclared type " ++ n
  | notAType n k => n ++ " is a " ++ k.render ++ ", not a type"
  | classInExpression => "class types must be declared in a type section"
  | lengthNotInteger t => "array length must be an integer, got " ++ t
  | lengthOutOfRange n => "array length " ++ signedDecimal n.toInt ++ " is out of range"
  | lengthNegative n => "array length " ++ signedDecimal n.toInt ++ " is negative"
  | thisOutsideMethod => "this is only available inside methods"
  | undeclared n => "undeclared identifier " ++ n
  | typeAsValue n => "type " ++ n ++ " used as a value"
  | unitAsValue n => "unit " ++ n ++ " used as a value"
  | notARoutineValue n => n ++ " cannot be used as a routine value"
  | noMembers t => t ++ " has no members"
  | noSuchMember c n => "class " ++ c ++ " has no member " ++ n
  | noBaseClass c => "class " ++ c ++ " has no base class"
  | bareBase => "base can only be used to reach an inherited member"
  | mismatch s t => "cannot use " ++ s ++ " as " ++ t
  | procedureAsValue => "procedure call used as a value"
  | integerRange t => utf8 "integer literal " ++ t ++ utf8 " out of range"
  | malformedReal t => utf8 "malformed real literal " ++ t
  | unaryOperand .plus t => "unary + needs a number, got " ++ t
  | unaryOperand .minus t => "unary - needs a number, got " ++ t
  | unaryOperand .not t => "not needs a boolean or integer, got " ++ t
  | binaryOperands o l r => "operator " ++ o.symbol ++ " is not defined for " ++ l ++ " and " ++ r
  | notIndexable t => t ++ " cannot be indexed"
  | notAPointer t => t ++ " is not a pointer"
  | noConstructor t => t ++ " has no constructor"
  | noConstructorWithArgs c => "class " ++ c ++ " has no constructor taking arguments"
  | notAddressable => "@ applies only to procedures and functions"
  | notConstant => "expression is not constant"
  | thisNotConstant => "this is not constant"
  | elementNotConstant => "array element is not constant"
  | allocationNotConstant => "allocation is not constant"
  | methodCallNotConstant => "method call is not constant"
  | callNotConstant => "call is not constant"
  | callOfNotConstant n => "call to " ++ n ++ " is not constant"
  | symbolNotCallable k n => k.render ++ " " ++ n ++ " cannot be called"
  | notCallable w => w ++ " is not callable"
  | noOverload n args => "no overload of " ++ n ++ " accepts (" ++ ", ".intercalate args ++ ")"
  | argumentCount t n m => t ++ " expects " ++ decimal n ++ " arguments, got " ++ decimal m
  | thisAssigned => "this cannot be assigned"
  | characterAssigned => "string characters are read-only"
  | constantAssigned => "cannot assign to a constant"
  | valueAssigned => "expression cannot be assigned"
  | valueAsStatement => "expression used as a statement"
  | loopVariableMember => "for loop variable must be a local or global variable"
  | loopVariableKind n k => "for loop variable must be a variable, " ++ n ++ " is a " ++ k.render
  | loopVariableType t => "for loop variable must be ordinal, got " ++ t
  | selectorType t => "case selector must be ordinal, got " ++ t
  | duplicateLabel v => utf8 "duplicate case label " ++ v.listing
  | jumpOutsideLoop j => j.word ++ " outside of a loop"

end BindError

/-- An error and the place that it was found at. -/
structure BindReport where
  error : BindError
  span : Span
  notes : List Note := []

def BindReport.diagnostic (r : BindReport) : Diagnostic :=
  .error r.error.code r.span r.error.message r.notes

end Pascaline.Bound
