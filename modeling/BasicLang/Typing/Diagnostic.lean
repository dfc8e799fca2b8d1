import BasicLang.Typing.Symbols

set_option autoImplicit false

namespace BasicLang

inductive DeclarationMismatch where
  | kind (declared defined : RoutineKind)
  | count (declared defined : Nat)
  | parameter (position : Nat) (declared defined : String)
  | result (declared defined : String)
deriving Repr, DecidableEq

def DeclarationMismatch.message : DeclarationMismatch → String
  | .kind declared defined => "declared as " ++ declared.title ++ ", defined as " ++ defined.title
  | .count declared defined =>
    "declared with " ++ toString declared ++ " parameter(s), defined with " ++ toString defined
  | .parameter position declared defined =>
    "parameter " ++ toString position ++ " declared " ++ declared ++ ", defined " ++ defined
  | .result declared defined => "returns " ++ declared ++ ", defined to return " ++ defined

inductive DiagnosticKind where
  | undefinedLabel (name : String)
  | labelOutOfScope (name : String)
  | undefinedProcedure (name : String)
  | duplicateVariable (name : String) (first : Locus)
  | duplicateLabel (name : String) (first : Locus)
  | duplicateProcedure (name : String) (first : Locus)
  | duplicateType (name : String) (first : Locus)
  | declarationMismatch (name : String) (mismatch : DeclarationMismatch)
  | typeMismatch (expected found : String)
  | unknownType (name : String)
  | unknownMember (type member : String)
  | notARecord (member found : String)
  | invalidBinary (operator : BinaryOperator) (left right : String)
  | invalidUnary (operator : UnaryOperator) (operand : String)
  | conditionNotNumeric (found : String)
  | argumentCount (name expected : String) (found : Nat)
  | argumentType (name : String) (position : Nat) (expected found : String)
  | subUsedAsFunction (name : String)
  | functionUsedAsSub (name : String)
  | exitOutside (target : ExitTarget)
  | nextMismatch (expected found : String)
  | notAnArray (name : String)
  | dimensionMismatch (name : String) (expected found : Nat)
  | indexNotNumeric (found : String)
  | invalidBounds (name : String)
  | assignmentToConst (name : String)
  | notAssignable
  | notConstant
  | sharedOutsideMain
  | sharedRedeclared (name : String)
  | moduleLevelOnly (what : String)
deriving Repr, DecidableEq

structure Diagnostic where
  kind : DiagnosticKind
  locus : Locus
deriving Repr, DecidableEq

def DiagnosticKind.title : DiagnosticKind → String
  | .undefinedLabel _ => "UndefinedLabel"
  | .labelOutOfScope _ => "LabelOutOfScope"
  | .undefinedProcedure _ => "UndefinedProcedure"
  | .duplicateVariable _ _ => "DuplicateVariable"
  | .duplicateLabel _ _ => "DuplicateLabel"
  | .duplicateProcedure _ _ => "DuplicateProcedure"
  | .duplicateType _ _ => "DuplicateType"
  | .declarationMismatch _ _ => "DeclarationMismatch"
  | .typeMismatch _ _ => "TypeMismatch"
  | .unknownType _ => "UnknownType"
  | .unknownMember _ _ => "UnknownMember"
  | .notARecord _ _ => "NotARecord"
  | .invalidBinary _ _ _ => "InvalidBinaryOp"
  | .invalidUnary _ _ => "InvalidUnaryOp"
  | .conditionNotNumeric _ => "ConditionNotNumeric"
  | .argumentCount _ _ _ => "ArgumentCountMismatch"
  | .argumentType _ _ _ _ => "ArgumentTypeMismatch"
  | .subUsedAsFunction _ => "SubUsedAsFunction"
  | .functionUsedAsSub _ => "FunctionUsedAsSub"
  | .exitOutside _ => "ExitOutsideLoop"
  | .nextMismatch _ _ => "ForNextMismatch"
  | .notAnArray _ => "NotAnArray"
  | .dimensionMismatch _ _ _ => "ArrayDimensionMismatch"
  | .indexNotNumeric _ => "NonNumericIndex"
  | .invalidBounds _ => "InvalidBounds"
  | .assignmentToConst _ => "AssignmentToConst"
  | .notAssignable => "NotAssignable"
  | .notConstant => "NonConstantExpression"
  | .sharedOutsideMain => "SharedOutsideMain"
  | .sharedRedeclared _ => "SharedRedeclared"
  | .moduleLevelOnly _ => "ModuleLevelOnly"

def DiagnosticKind.message : DiagnosticKind → String
  | .undefinedLabel name => "undefined label `" ++ name ++ "`"
  | .labelOutOfScope name => "label `" ++ name ++ "` is not in this SUB or FUNCTION"
  | .undefinedProcedure name => "undefined procedure `" ++ name ++ "`"
  | .duplicateVariable name first => "variable `" ++ name ++ "` already defined at " ++ first.text
  | .duplicateLabel name first => "label `" ++ name ++ "` already defined at " ++ first.text
  | .duplicateProcedure name first =>
    "procedure `" ++ name ++ "` already defined at " ++ first.text
  | .duplicateType name first => "type `" ++ name ++ "` already defined at " ++ first.text
  | .declarationMismatch name mismatch =>
    "declaration of `" ++ name ++ "` does not match its definition: " ++ mismatch.message
  | .typeMismatch expected found => "type mismatch: expected " ++ expected ++ ", found " ++ found
  | .unknownType name => "unknown type `" ++ name ++ "`"
  | .unknownMember type member => "type `" ++ type ++ "` has no member `" ++ member ++ "`"
  | .notARecord member found => "`." ++ member ++ "` used on non-record type " ++ found
  | .invalidBinary operator left right =>
    "operator `" ++ operator.symbol ++ "` cannot be applied to types " ++ left ++ " and " ++ right
  | .invalidUnary operator operand =>
    "operator `" ++ operator.symbol ++ "` cannot be applied to type " ++ operand
  | .conditionNotNumeric found => "condition must be numeric, found " ++ found
  | .argumentCount name expected found =>
    "`" ++ name ++ "` called with " ++ toString found ++ " argument(s), expected " ++ expected
  | .argumentType name position expected found =>
    "argument " ++ toString position ++ " of `" ++ name ++ "`: expected " ++ expected ++
      ", found " ++ found
  | .subUsedAsFunction name => "SUB `" ++ name ++ "` does not return a value"
  | .functionUsedAsSub name => "FUNCTION `" ++ name ++ "` cannot be called as a statement"
  | .exitOutside target => "EXIT " ++ target.title ++ " outside of " ++ target.title
  | .nextMismatch expected found =>
    "NEXT variable `" ++ found ++ "` does not match FOR variable `" ++ expected ++ "`"
  | .notAnArray name => "`" ++ name ++ "` is not an array"
  | .dimensionMismatch name expected found =>
    "array `" ++ name ++ "` indexed with " ++ toString found ++ " dimension(s), expected " ++
      toString expected
  | .indexNotNumeric found => "array index must be numeric, found " ++ found
  | .invalidBounds name => "array `" ++ name ++ "` has lower bound greater than upper bound"
  | .assignmentToConst name => "cannot assign to constant `" ++ name ++ "`"
  | .notAssignable => "expression cannot be assigned to"
  | .notConstant => "CONST value must be a compile-time constant"
  | .sharedOutsideMain => "DIM SHARED is only allowed at module level"
  | .sharedRedeclared name => "`" ++ name ++ "` is SHARED and cannot be redeclared here"
  | .moduleLevelOnly what => what ++ " is only allowed at module level"

def Diagnostic.message (diagnostic : Diagnostic) : String := diagnostic.kind.message

def Locus.notAfter (left right : Locus) : Bool :=
  left.line < right.line || (left.line == right.line && left.column ≤ right.column)

namespace Diagnostic

def insertSorted (diagnostic : Diagnostic) : List Diagnostic → List Diagnostic
  | [] => [diagnostic]
  | first :: rest =>
    if diagnostic.locus.notAfter first.locus then diagnostic :: first :: rest
    else first :: insertSorted diagnostic rest

def sort (diagnostics : List Diagnostic) : List Diagnostic :=
  diagnostics.foldr insertSorted []

end Diagnostic

end BasicLang
