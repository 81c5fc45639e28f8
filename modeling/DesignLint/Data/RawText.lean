/-! Texts as data files write them. An escape may give a surrogate, which is half of a character. One that
does not meet its other half stays in the text, which then is no string of characters. -/

namespace DesignLint

/-- A code that is half of a character. -/
structure Surrogate where
  code : Nat
  inRange : 0xD800 ≤ code ∧ code ≤ 0xDFFF
  deriving Repr, DecidableEq

namespace Surrogate

def ofCode? (n : Nat) : Option Surrogate :=
  if h : 0xD800 ≤ n ∧ n ≤ 0xDFFF then some ⟨n, h⟩ else none

def isHigh (s : Surrogate) : Bool := s.code ≤ 0xDBFF

/-- The name of a file may have bytes that are no text. Such a byte stands in a text as one of these. -/
def isByte (s : Surrogate) : Bool := 0xDC80 ≤ s.code && s.code ≤ 0xDCFF

def pairChar (high low : Surrogate) : Char :=
  Char.ofNat (0x10000 + (high.code - 0xD800) * 0x400 + (low.code - 0xDC00))

end Surrogate

/-- What stands at one place of a text. -/
inductive Glyph
  | char (c : Char)
  /-- A surrogate that stands alone. -/
  | lone (s : Surrogate)
  deriving Repr, DecidableEq

namespace Glyph

def isLone : Glyph → Bool
  | .char _ => false
  | .lone _ => true

def isEncodable : Glyph → Bool
  | .char _ => true
  | .lone s => s.isByte

def char? : Glyph → Option Char
  | .char c => some c
  | .lone _ => none

end Glyph

/-- A text in which some surrogate stands alone. -/
structure BrokenText where
  glyphs : List Glyph
  isBroken : glyphs.any Glyph.isLone = true
  deriving Repr, DecidableEq

inductive RawText
  | proper (s : String)
  | broken (t : BrokenText)
  deriving Repr, DecidableEq

instance : Coe String RawText := ⟨.proper⟩

namespace RawText

def ofGlyphs (glyphs : List Glyph) : RawText :=
  if h : glyphs.any Glyph.isLone = true then .broken ⟨glyphs, h⟩
  else .proper (String.ofList (glyphs.filterMap Glyph.char?))

def glyphs : RawText → List Glyph
  | .proper s => s.toList.map .char
  | .broken t => t.glyphs

end RawText

end DesignLint
