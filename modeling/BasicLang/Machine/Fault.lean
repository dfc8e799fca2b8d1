import BasicLang.Arithmetic
import BasicLang.Device.Interface
import BasicLang.Token

set_option autoImplicit false

namespace BasicLang

inductive Fault where
  | returnWithoutGosub
  | outOfData
  | badFormat (template : String)
  | logarithm (number : Float)
  | squareRoot (number : Float)
  | negativeLength (length : Int)
  | codeOfEmpty
  | badCode (code : Int)
  | badStart (start : Int)
  | badPosition
  | badSpaces (count : Int)
  | badFill
  | badSound (frequency duration : Float)
  | noMember (record member : String)
  | badJson
  | overflow (name : String)
  | outOfStackSpace
  | counterOverflow
  | noDimension (dimension : Int)
  | expectedString (found : String)
  | expectedNumber (found : String)
  | expectedJson (found : String)
  | noMagnitude (found : String)
  | notAnArray (found : String)
  | notAnArrayVariable (name found : String)
  | notARecord (found : String)
  | counterType (found : String)
  | arithmetic (fault : ArithmeticFault)
  | value (fault : ValueFault)
  | stackUnderflow
  | expectedReference (found : String)
  | badArgumentCount (count : Int)
  | badValueCount (count : Int)
  | badFileMode (mode : Int)
  | unlinkedLabel (id : Nat)
  | suspendedTwice
  | nothingPending
  | badFileNumber (number : Int)
  | fileAlreadyOpen (number : Int)
  | unknownBuiltin (name : String)
  | missingDevice (name : String)
  | device (error : DeviceError)
  /-- The machine itself gives up. This is no error of the program, and has no number of its own. -/
  | panic

namespace Fault

def code : Fault → Nat
  | .returnWithoutGosub => 3
  | .outOfData => 4
  | .badFormat _ => 5
  | .logarithm _ => 5
  | .squareRoot _ => 5
  | .negativeLength _ => 5
  | .codeOfEmpty => 5
  | .badCode _ => 5
  | .badStart _ => 5
  | .badPosition => 5
  | .badSpaces _ => 5
  | .badFill => 5
  | .badSound _ _ => 5
  | .noMember _ _ => 5
  | .badJson => 5
  | .overflow _ => 6
  | .outOfStackSpace => 6
  | .counterOverflow => 6
  | .noDimension _ => 9
  | .expectedString _ => 13
  | .expectedNumber _ => 13
  | .expectedJson _ => 13
  | .noMagnitude _ => 13
  | .notAnArray _ => 13
  | .notAnArrayVariable _ _ => 13
  | .notARecord _ => 13
  | .counterType _ => 13
  | .arithmetic fault => fault.code
  | .value fault => fault.code
  | .stackUnderflow => 51
  | .expectedReference _ => 51
  | .badArgumentCount _ => 51
  | .badValueCount _ => 51
  | .badFileMode _ => 51
  | .unlinkedLabel _ => 51
  | .suspendedTwice => 51
  | .nothingPending => 51
  | .badFileNumber _ => 52
  | .fileAlreadyOpen _ => 55
  | .unknownBuiltin _ => 73
  | .missingDevice _ => 73
  | .device error => error.code
  | .panic => 0

def message : Fault → String
  | .returnWithoutGosub => "RETURN without GOSUB"
  | .outOfData => "out of DATA"
  | .badFormat template => "bad PRINT USING format " ++ Text.quoted template
  | .logarithm number => "LOG of " ++ NumberStyle.plain.double number
  | .squareRoot number => "SQR of " ++ NumberStyle.plain.double number
  | .negativeLength length => "negative length " ++ toString length
  | .codeOfEmpty => "ASC of empty string"
  | .badCode code => "CHR$ of " ++ toString code
  | .badStart start => "INSTR start " ++ toString start
  | .badPosition => "MID$ position out of range"
  | .badSpaces count => "SPACE$ of " ++ toString count
  | .badFill => "bad STRING$ argument"
  | .badSound frequency duration =>
    "SOUND " ++ NumberStyle.plain.double frequency ++ ", " ++ NumberStyle.plain.double duration
  | .noMember record member => record ++ " has no member " ++ member
  | .badJson => "invalid JSON"
  | .overflow name => "overflow in " ++ name
  | .outOfStackSpace => "out of stack space"
  | .counterOverflow => "FOR counter overflow"
  | .noDimension dimension => "no dimension " ++ toString dimension
  | .expectedString found => "expected STRING, found " ++ found
  | .expectedNumber found => "expected a number, found " ++ found
  | .expectedJson found => "expected JSON, found " ++ found
  | .noMagnitude found => "ABS of " ++ found
  | .notAnArray found => found ++ " is not an array"
  | .notAnArrayVariable name found => name ++ " is a " ++ found ++ ", not an array"
  | .notARecord found => found ++ " is not a record"
  | .counterType found => "FOR counter is " ++ found
  | .arithmetic fault => fault.message
  | .value fault => fault.message
  | .stackUnderflow => "stack underflow"
  | .expectedReference found => "expected a reference, found " ++ found
  | .badArgumentCount count => "bad argument count " ++ toString count
  | .badValueCount count => "bad value count " ++ toString count
  | .badFileMode mode => "bad file mode " ++ toString mode
  | .unlinkedLabel id => "unlinked label L" ++ toString id
  | .suspendedTwice => "suspended twice without a resume"
  | .nothingPending => "resume without a pending operation"
  | .badFileNumber number => "bad file number #" ++ toString number
  | .fileAlreadyOpen number => "file #" ++ toString number ++ " already open"
  | .unknownBuiltin name => "syscall " ++ name ++ " is not available"
  | .missingDevice name => name ++ " is not available"
  | .device error => error.message
  | .panic => "panic"

def isRecoverable : Fault → Bool
  | .badJson => true
  | .badFileNumber _ => true
  | .fileAlreadyOpen _ => true
  | .missingDevice _ => true
  | .device _ => true
  | _ => false

end Fault

structure RuntimeError where
  fault : Fault
  locus : Option Locus

namespace RuntimeError

def ofFault (fault : Fault) : RuntimeError := { fault, locus := none }

def code (error : RuntimeError) : Nat := error.fault.code

def isRecoverable (error : RuntimeError) : Bool := error.fault.isRecoverable

def atLocus (error : RuntimeError) (locus : Locus) : RuntimeError :=
  { error with locus := some (error.locus.getD locus) }

def message (error : RuntimeError) : String :=
  let place :=
    match error.locus with
    | some locus => " at " ++ locus.text
    | none => ""
  error.fault.message ++ " (error " ++ toString error.code ++ ")" ++ place

end RuntimeError

end BasicLang
