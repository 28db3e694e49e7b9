import Scenario.Pattern.Class

/-!
# The syntax of patterns

What a pattern says, with its flags already applied to the parts they govern.
-/

namespace Scenario

namespace Pattern

/-- A condition on a place in the text. -/
inductive Look where
  | textStart
  | textEnd
  | lineStart
  | lineEnd
  | wordBoundary
  | noWordBoundary
  | wordStart
  | wordEnd
  | wordStartHalf
  | wordEndHalf
deriving DecidableEq, Repr

/-- A pattern. -/
inductive Node where
  | empty
  | one (s : CharSet)
  | look (l : Look)
  | sequence (parts : List Node)
  | alternatives (parts : List Node)
  /-- A part whose match is remembered under a number. -/
  | group (number : Nat) (body : Node)
  /-- Between `least` and `most` times, as often as possible if `greedy`. -/
  | repeated (least : Nat) (most : Option Nat) (greedy : Bool) (body : Node)

mutual

/-- Whether a pattern may match the empty text. -/
def Node.canBeEmpty : Node → Bool
  | .empty => true
  | .one _ => false
  | .look _ => true
  | .sequence parts => allCanBeEmpty parts
  | .alternatives parts => someCanBeEmpty parts
  | .group _ body => body.canBeEmpty
  | .repeated least _ _ body => least = 0 || body.canBeEmpty

def allCanBeEmpty : List Node → Bool
  | [] => true
  | part :: rest => part.canBeEmpty && allCanBeEmpty rest

def someCanBeEmpty : List Node → Bool
  | [] => false
  | part :: rest => part.canBeEmpty || someCanBeEmpty rest

end

end Pattern

end Scenario
