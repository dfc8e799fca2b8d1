
set_option autoImplicit false

namespace BasicLang

def inRanges (ranges : List (Nat × Nat)) (char : Char) : Bool :=
  ranges.any fun (first, last) => first ≤ char.toNat && char.toNat ≤ last

/-- Whether a code point lies in a set that is given by its runs: so many code points from zero on are outside of it, so
many behind them inside, and so on in turn. -/
def inRunsFrom (code : Nat) : List Nat → Bool
  | outside :: inside :: rest =>
    if code < outside then false else code < outside + inside || inRunsFrom (code - outside - inside) rest
  | _ => false

def inRuns (lengths : List Nat) (char : Char) : Bool := inRunsFrom char.toNat lengths

def blankRanges : List (Nat × Nat) := [
  (0x9, 0xd), (0x20, 0x20), (0x85, 0x85), (0xa0, 0xa0), (0x1680, 0x1680), (0x2000, 0x200a),
  (0x2028, 0x2029), (0x202f, 0x202f), (0x205f, 0x205f), (0x3000, 0x3000)]

def isBlank (char : Char) : Bool := inRanges blankRanges char

namespace Text

def trimStart (drop : Char → Bool) (text : String) : String :=
  String.ofList (text.toList.dropWhile drop)

def trimEnd (drop : Char → Bool) (text : String) : String :=
  String.ofList (text.toList.reverse.dropWhile drop).reverse

def trim (drop : Char → Bool) (text : String) : String :=
  trimEnd drop (trimStart drop text)

end Text

end BasicLang
