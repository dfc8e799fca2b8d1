import BasicLang.Number.Binary

set_option autoImplicit false

namespace BasicLang

structure Generator where
  state : Nat
deriving Repr, DecidableEq

namespace Generator

def modulus : Nat := 0x1000000
def multiplier : Nat := 16598013
def increment : Nat := 12820163

def initial : Generator := ⟨0x50000⟩

def advance (generator : Generator) : Generator :=
  ⟨(generator.state * multiplier + increment) % modulus⟩

def value (generator : Generator) : Float :=
  Float.ofNat generator.state / Float.ofNat modulus

def next (generator : Generator) : Float × Generator :=
  (generator.advance.value, generator.advance)

def randomize (generator : Generator) (seed : Float) : Generator :=
  let bits := seed.toBits.toNat
  let word := ((bits / 0x1000000000000) ^^^ (bits / 0x100000000)) % 0x10000
  ⟨generator.state % 0x100 + word * 0x100⟩

end Generator

end BasicLang
