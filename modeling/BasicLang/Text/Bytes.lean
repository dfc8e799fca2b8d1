
set_option autoImplicit false

namespace BasicLang

def byteSize : List Char → Nat
  | [] => 0
  | char :: rest => char.utf8Size + byteSize rest

namespace Text

/-- The parts of a text before and from a byte on. A text cannot be cut inside a character or beyond its end. -/
def splitAt? : List Char → Nat → Option (List Char × List Char)
  | chars, 0 => some ([], chars)
  | [], _ + 1 => none
  | char :: rest, place =>
    if char.utf8Size ≤ place then
      (splitAt? rest (place - char.utf8Size)).map fun (before, after) => (char :: before, after)
    else none

def findByte? (test : Char → Bool) : List Char → Option Nat
  | [] => none
  | char :: rest => if test char then some 0 else (findByte? test rest).map (char.utf8Size + ·)

end Text

end BasicLang
