import LoxCalc.Token

/-!
# Statement boundaries

Where reading may resume after an error: just after a semicolon, at a word that begins a statement,
or at the end of input. Positions below zero count from the end of the list.
-/

namespace LoxCalc
namespace Recovery

/-- The token at a position; position `-1` is the last one. -/
def tokenAt? (tokens : List Token) (position : Int) : Option Token :=
  if 0 ≤ position then tokens[position.toNat]?
  else if -(tokens.length : Int) ≤ position then tokens[(tokens.length + position).toNat]?
  else none

/-- The first boundary at or after a position, the last one being a boundary always; none if the
search looks at a place outside the list. -/
def boundaryFrom? (tokens : List Token) (last position : Int) : Option Int :=
  if position < last then
    (tokenAt? tokens position).bind fun here =>
      if here.kind = .eof then some position
      else (tokenAt? tokens (position - 1)).bind fun before =>
        if before.kind = .semicolon ∨ here.kind.startsStatement then some position
        else boundaryFrom? tokens last (position + 1)
  else some position
termination_by (last - position).toNat

/-- The position to resume from after an error at the given position. -/
def resume? (tokens : List Token) (position : Int) : Option Int :=
  let last : Int := (tokens.length : Int) - 1
  if last ≤ position then some last else boundaryFrom? tokens last (position + 1)

end Recovery
end LoxCalc
