import DesignLint.Pattern
import DesignLint.Source.Declaration

/-! Mentions of members of the own object: the qualifier, a dot and a name. -/

namespace DesignLint.Source

/-- The mark of a call: an opening parenthesis, with at most one space before it. -/
def callMark : Pattern Unit := do
  let _ ← Pattern.optional (.char ' ')
  .char '('

def reference (qualifier : String) : Pattern Reference := do
  .text (qualifier ++ ".")
  let name ← .word
  let call ← Pattern.optional callMark
  pure ⟨String.ofList name.chars, call.isSome⟩

def references (qualifier : String) (line : Line) : List Reference :=
  ((reference qualifier).findAll Pattern.atWord line).map (·.value)

end DesignLint.Source
