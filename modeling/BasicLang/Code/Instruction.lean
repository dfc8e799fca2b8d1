import BasicLang.Token
import BasicLang.Typing.Symbols
import BasicLang.Value

set_option autoImplicit false

namespace BasicLang

inductive Target where
  | label (id : Nat)
  | resolved (place : Nat)
deriving Repr, DecidableEq

inductive Op where
  | pushConst (value : Value)
  | pushValue (name : String)
  | pushRef (name : String)
  | pushArray (name : String) (element : Ty) (rank : Nat)
  | pop
  | assign
  | popParam (name : String) (ty : Ty)
  | dim (name : String) (ty : Ty)
  | dimArray (name : String) (element : Ty) (rank : Nat)
  | redim (name : String) (element : Ty) (rank : Nat) (preserve : Bool)
  | setDefaultType (first last : Char) (ty : Ty)
  | binary (operator : BinaryOperator)
  | negate
  | complement
  | jump (target : Target)
  | jumpIfZero (target : Target)
  | jumpIfNonzero (target : Target)
  | call (target : Target)
  | gosub (target : Target)
  | ret
  | forLoop (target : Target)
  | forStep
  | stop
  | arrayDeref (rank : Nat) (byRef : Bool)
  | memberDeref (member : String) (byRef : Bool)
  | read
  | restore (target : Target)
  | syscall (name : String)
  | onEvent (target : Target)

structure Instruction where
  op : Op
  locus : Locus

instance : Inhabited Instruction := ⟨⟨.stop, default⟩⟩

structure Image where
  instructions : Array Instruction
  data : Array Value
  types : Table Members
  defaultType : Ty
  shared : List String

namespace Image

def empty : Image :=
  { instructions := #[], data := #[], types := [], defaultType := .single, shared := [] }

end Image

namespace Target

def text : Target → String
  | .label id => "L" ++ toString id
  | .resolved place => NumberStyle.padZeros 4 (toString place)

end Target

namespace Op

def address? : Op → Option Target
  | .jump target => some target
  | .jumpIfZero target => some target
  | .jumpIfNonzero target => some target
  | .call target => some target
  | .gosub target => some target
  | .forLoop target => some target
  | .onEvent target => some target
  | _ => none

def dataPlace? : Op → Option Target
  | .restore target => some target
  | _ => none

def text : Op → String
  | .pushConst value =>
    match value with
    | .string text => "PUSH_CONST \"" ++ text ++ "\""
    | _ => "PUSH_CONST " ++ value.text
  | .pushValue name => "PUSH_VALUE " ++ name
  | .pushRef name => "PUSH_REF " ++ name
  | .pushArray name element rank => "PUSH_ARRAY " ++ shape name element rank
  | .pop => "POP"
  | .assign => "ASSIGN"
  | .popParam name ty => "POP_PARAM " ++ name ++ " AS " ++ ty.name
  | .dim name ty => "DIM " ++ name ++ " AS " ++ ty.name
  | .dimArray name element rank => "DIM_ARRAY " ++ shape name element rank
  | .redim name element rank preserve =>
    (if preserve then "REDIM_PRESERVE " else "REDIM ") ++ shape name element rank
  | .setDefaultType first last ty =>
    "SET_DEFAULT_TYPE " ++ first.toString ++ "-" ++ last.toString ++ " " ++ ty.name
  | .binary operator => "BINARY " ++ operator.symbol
  | .negate => "NEG"
  | .complement => "NOT"
  | .jump target => "JMP " ++ target.text
  | .jumpIfZero target => "BZ " ++ target.text
  | .jumpIfNonzero target => "BNZ " ++ target.text
  | .call target => "CALL " ++ target.text
  | .gosub target => "GOSUB " ++ target.text
  | .ret => "RET"
  | .forLoop target => "FORLOOP " ++ target.text
  | .forStep => "FORSTEP"
  | .stop => "END"
  | .arrayDeref rank byRef => "ARRAY_DEREF " ++ toString rank ++ reference byRef
  | .memberDeref member byRef => "MEMBER_DEREF " ++ member ++ reference byRef
  | .read => "READ"
  | .restore target => "RESTORE " ++ target.text
  | .syscall name => "SYSCALL " ++ name
  | .onEvent target => "REG_EVENT_HANDLER " ++ target.text
where
  shape (name : String) (element : Ty) (rank : Nat) : String :=
    name ++ " " ++ element.name ++ "[" ++ toString rank ++ "]"
  reference (byRef : Bool) : String := if byRef then " REF" else ""

end Op

mutual

def Json.listed : Json → String
  | .null => "Null"
  | .boolean value => "Bool(" ++ toString value ++ ")"
  | .integer value => "Number(" ++ toString value ++ ")"
  | .real value => "Number(" ++ NumberStyle.json.double value ++ ")"
  | .text value => "String(" ++ Text.quoted value ++ ")"
  | .array items => "Array [" ++ items.listed true ++ "]"
  | .object fields => "Object \x7b" ++ fields.listed true ++ "\x7d"

def JsonItems.listed (isFirst : Bool) : JsonItems → String
  | .nil => ""
  | .cons head tail => (if isFirst then "" else ", ") ++ head.listed ++ tail.listed false

def JsonFields.listed (isFirst : Bool) : JsonFields → String
  | .nil => ""
  | .cons key value tail =>
    (if isFirst then "" else ", ") ++ Text.quoted key ++ ": " ++ value.listed ++ tail.listed false

end

def Value.listed : Value → String
  | .integer value => "Integer(" ++ toString value.toInt ++ ")"
  | .long value => "Long(" ++ toString value.toInt ++ ")"
  | .single value => "Single(" ++ NumberStyle.listed.single value ++ ")"
  | .double value => "Double(" ++ NumberStyle.listed.double value ++ ")"
  | .string value => "String(" ++ Text.quoted value ++ ")"
  | .json value => "Json(" ++ value.listed ++ ")"
  | .null => "Null"
  | value => value.typeName

namespace Image

def numbered (lines : List String) : List String :=
  lines.zipIdx.map fun (line, index) => NumberStyle.padZeros 4 (toString index) ++ "  " ++ line

def insertName (name : String) : List String → List String
  | [] => [name]
  | first :: rest =>
    if first < name then first :: insertName name rest
    else if first = name then first :: rest
    else name :: first :: rest

def sharedNames (image : Image) : List String := image.shared.foldr insertName []

def listing (image : Image) : List String :=
  let shared := image.sharedNames
  let head := if shared.isEmpty then [] else ["; shared: " ++ ", ".intercalate shared]
  let body := numbered (image.instructions.toList.map fun instruction =>
    instruction.op.text ++ " ; " ++ instruction.locus.text)
  let data := numbered (image.data.toList.map Value.listed)
  head ++ body ++ (if data.isEmpty then [] else "; data:" :: data)

end Image

end BasicLang
