import BasicLang.Ty

set_option autoImplicit false

namespace BasicLang

inductive Builtin where
  | print
  | printZone
  | printNewline
  | printUsing
  | selectOutput
  | write
  | input
  | lineInput
  | abs
  | atn
  | cos
  | sin
  | tan
  | exp
  | log
  | sqr
  | int
  | fix
  | sgn
  | cint
  | clng
  | csng
  | cdbl
  | rnd
  | timer
  | asc
  | chr
  | hex
  | oct
  | instr
  | lcase
  | ucase
  | ltrim
  | rtrim
  | left
  | right
  | mid
  | len
  | space
  | str
  | string
  | val
  | inkey
  | cls
  | beep
  | locate
  | color
  | eof
  | openFile
  | closeFile
  | fileInput
  | fileLineInput
  | jsonParse
  | jsonGet
  | jsonStr
  | fetch
  | wsOpen
  | wsSend
  | wsRecv
  | play
  | sound
  | loadSound
  | playSound
  | ioWrite
  | ioRead
  | eventData
  | stick
  | strig
  | pointerX
  | pointerY
  | pointerDown
  | sleep
  | randomize
  | swap
  | lbound
  | ubound
  | err
  | hash
deriving Repr, DecidableEq

structure Signature where
  name : String
  returns : Option Ty
  arguments : List Ty
  required : Nat
  byReference : Bool
deriving Repr, DecidableEq

namespace Signature

def function (name : String) (result : Ty) (arguments : List Ty) : Signature :=
  { name, returns := some result, arguments, required := arguments.length, byReference := false }

def sub (name : String) (arguments : List Ty) : Signature :=
  { name, returns := none, arguments, required := arguments.length, byReference := false }

def optional (signature : Signature) (required : Nat) : Signature :=
  { signature with required }

def countsArguments (signature : Signature) : Bool :=
  signature.required != signature.arguments.length

end Signature

namespace Builtin

def all : List Builtin := [
  .print, .printZone, .printNewline, .printUsing, .selectOutput, .write, .input, .lineInput, .abs,
  .atn, .cos, .sin, .tan, .exp, .log, .sqr, .int, .fix, .sgn, .cint, .clng, .csng, .cdbl, .rnd,
  .timer, .asc, .chr, .hex, .oct, .instr, .lcase, .ucase, .ltrim, .rtrim, .left, .right, .mid,
  .len, .space, .str, .string, .val, .inkey, .cls, .beep, .locate, .color, .eof, .openFile,
  .closeFile, .fileInput, .fileLineInput, .jsonParse, .jsonGet, .jsonStr, .fetch, .wsOpen,
  .wsSend, .wsRecv, .play, .sound, .loadSound, .playSound, .ioWrite, .ioRead, .eventData, .stick,
  .strig, .pointerX, .pointerY, .pointerDown, .sleep, .randomize, .swap, .lbound, .ubound, .err,
  .hash]

def anyArray : Ty := .array .any 0

def signature : Builtin → Signature
  | .print => .sub "_PRINT" [.any]
  | .printZone => .sub "_PRINT_ZONE" []
  | .printNewline => .sub "_PRINT_NEWLINE" []
  | .printUsing => .sub "_PRINT_USING" [.string]
  | .selectOutput => .sub "_SELECT_OUTPUT" [.integer]
  | .write => .sub "_WRITE" []
  | .input => .sub "_INPUT" [.string]
  | .lineInput => .sub "_LINE_INPUT" [.string, .string]
  | .abs => .function "ABS" .double [.double]
  | .atn => .function "ATN" .double [.double]
  | .cos => .function "COS" .double [.double]
  | .sin => .function "SIN" .double [.double]
  | .tan => .function "TAN" .double [.double]
  | .exp => .function "EXP" .double [.double]
  | .log => .function "LOG" .double [.double]
  | .sqr => .function "SQR" .double [.double]
  | .int => .function "INT" .double [.double]
  | .fix => .function "FIX" .double [.double]
  | .sgn => .function "SGN" .integer [.double]
  | .cint => .function "CINT" .integer [.double]
  | .clng => .function "CLNG" .long [.double]
  | .csng => .function "CSNG" .single [.double]
  | .cdbl => .function "CDBL" .double [.double]
  | .rnd => (Signature.function "RND" .single [.double]).optional 0
  | .timer => .function "TIMER" .single []
  | .asc => .function "ASC" .long [.string]
  | .chr => .function "CHR$" .string [.long]
  | .hex => .function "HEX$" .string [.long]
  | .oct => .function "OCT$" .string [.long]
  | .instr => (Signature.function "INSTR" .long [.any, .any, .string]).optional 2
  | .lcase => .function "LCASE$" .string [.string]
  | .ucase => .function "UCASE$" .string [.string]
  | .ltrim => .function "LTRIM$" .string [.string]
  | .rtrim => .function "RTRIM$" .string [.string]
  | .left => .function "LEFT$" .string [.string, .long]
  | .right => .function "RIGHT$" .string [.string, .long]
  | .mid => (Signature.function "MID$" .string [.string, .long, .long]).optional 2
  | .len => .function "LEN" .long [.any]
  | .space => .function "SPACE$" .string [.long]
  | .str => .function "STR$" .string [.double]
  | .string => .function "STRING$" .string [.long, .any]
  | .val => .function "VAL" .double [.string]
  | .inkey => .function "INKEY$" .string []
  | .cls => .sub "CLS" []
  | .beep => .sub "BEEP" []
  | .locate => (Signature.sub "LOCATE" [.integer, .integer]).optional 0
  | .color => (Signature.sub "COLOR" [.integer, .integer]).optional 0
  | .eof => .function "EOF" .integer [.integer]
  | .openFile => .sub "_OPEN" [.string, .integer, .integer]
  | .closeFile => (Signature.sub "_CLOSE" [.integer]).optional 0
  | .fileInput => .sub "_FILE_INPUT" [.integer]
  | .fileLineInput => .sub "_FILE_LINE_INPUT" [.integer, .string]
  | .jsonParse => .function "JSONPARSE" .json [.string]
  | .jsonGet => .function "JSONGET$" .string [.json, .string]
  | .jsonStr => .function "JSONSTR$" .string [.json]
  | .fetch => .function "FETCH$" .string [.string]
  | .wsOpen => .function "WSOPEN" .long [.string]
  | .wsSend => .sub "WSSEND" [.long, .string]
  | .wsRecv => .function "WSRECV$" .string [.long]
  | .play => .sub "PLAY" [.string]
  | .sound => .sub "SOUND" [.double, .double]
  | .loadSound => .sub "LOADSOUND" [.string, .string]
  | .playSound => .sub "PLAYSOUND" [.string]
  | .ioWrite => .sub "IOWRITE" [.string, .string]
  | .ioRead => .function "IOREAD$" .string [.string]
  | .eventData => .function "EVENTDATA$" .string []
  | .stick => .function "STICK" .integer [.integer]
  | .strig => .function "STRIG" .integer [.integer]
  | .pointerX => .function "POINTERX" .integer []
  | .pointerY => .function "POINTERY" .integer []
  | .pointerDown => .function "POINTERDOWN" .integer []
  | .sleep => (Signature.sub "SLEEP" [.single]).optional 0
  | .randomize => (Signature.sub "RANDOMIZE" [.double]).optional 0
  | .swap => { Signature.sub "SWAP" [.any, .any] with byReference := true }
  | .lbound => (Signature.function "LBOUND" .long [anyArray, .integer]).optional 1
  | .ubound => (Signature.function "UBOUND" .long [anyArray, .integer]).optional 1
  | .err => .function "ERR" .integer []
  | .hash => .function "HASH$" .string [.string, .string]

def name (builtin : Builtin) : String := builtin.signature.name

def isFunction (builtin : Builtin) : Bool := builtin.signature.returns.isSome

end Builtin

structure Registry where
  builtins : List Builtin

namespace Registry

def empty : Registry := ⟨[]⟩

def standard : Registry := ⟨Builtin.all⟩

def function? (registry : Registry) (name : String) : Option Builtin :=
  registry.builtins.find? fun builtin =>
    builtin.isFunction && builtin.name == Text.upperAscii name

def sub? (registry : Registry) (name : String) : Option Builtin :=
  registry.builtins.find? fun builtin =>
    !builtin.isFunction && builtin.name == Text.upperAscii name

def lookup? (registry : Registry) (name : String) : Option Builtin :=
  registry.function? name <|> registry.sub? name

end Registry

end BasicLang
