import Stylesheet.Error
import Stylesheet.Selector.Basic

/-!
# Expansion of nested selectors

The selector of a nested rule becomes a flat one by going down the chain of selectors from the
outermost rule to the rule itself.

* A selector with `&` is put around what came before, once for each of its alternatives.
* A selector without `&` and with one alternative is a descendant of what came before.
* The first selector without `&` and with several alternatives multiplies what came before by them.
  Every later selector is then folded into each product: its alternatives stand one after the other
  as descendants, and are not multiplied out again.

Main definition: `Selector.expand`.
-/

namespace Stylesheet

namespace Alternative

/-- Puts `span` in the place of each parent reference. -/
def fill (alt span : Alternative) : Alternative :=
  alt.flatMap fun
    | .parent => trimEnd span
    | piece => [piece]

/-- `alt` as a descendant of `span`. -/
def append (span alt : Alternative) : Alternative :=
  if span.isEmpty || span.getLast?.any Piece.isSpace then span ++ alt else span ++ .space :: alt

/-- All alternatives of a later selector, one after the other. -/
def fold (span : Alternative) (later : Selector) : Alternative :=
  let folded := [Piece.space].intercalate (later.alternatives.map fun alt =>
    if alt.hasParent then fill alt span else alt)
  if later.hasParent then folded else append span folded

end Alternative

namespace Selector

/-- Goes down a chain, with what the selectors before it have become in `spans`. -/
def expandFrom (spans : List Alternative) : List Selector → Except CompileError (List Alternative)
  | [] => .ok spans
  | s :: rest =>
    if s.hasParent then
      if spans.all List.isEmpty then .error (.parentOutsideRule s.text)
      else
        expandFrom (spans.flatMap fun span => s.alternatives.map fun alt => alt.fill span) rest
    else
      match s.alternatives with
      | [alt] => expandFrom (spans.map fun span => span.append alt) rest
      | alts =>
        .ok (spans.flatMap fun span => alts.map fun alt =>
          rest.foldl Alternative.fold (span.append alt))

/-- The flat selector of the last rule of a chain. -/
def expand (chain : List Selector) : Except CompileError Selector :=
  if Limit.nestingDepth.max < chain.length then
    .error (.limitExceeded .nestingDepth (" ".intercalate (chain.map text)))
  else (expandFrom [[]] chain).map ofAlternatives

end Selector

end Stylesheet
