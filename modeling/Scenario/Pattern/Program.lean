import Scenario.Pattern.Syntax

/-!
# Programs for patterns

A pattern becomes a list of instructions for a machine that keeps several places in the program at
once, the preferred one first. `emit` writes the instructions of a part from a given address on; the
part is left at the address after its last instruction.
-/

namespace Scenario

namespace Pattern

/-- An instruction. -/
inductive Instruction where
  /-- Reads one character of a class. -/
  | read (s : CharSet)
  /-- Goes on at `first` or at `second`, preferring `first`. -/
  | fork (first second : Nat)
  | jump (target : Nat)
  /-- Goes on only where a condition holds. -/
  | require (l : Look)
  /-- Remembers where group `number` begins or ends. -/
  | openGroup (number : Nat)
  | closeGroup (number : Nat)
  | accept

/-- A fork that prefers `inside` if greedy, and `outside` otherwise. -/
def Instruction.repeatOr (greedy : Bool) (inside outside : Nat) : Instruction :=
  if greedy then .fork inside outside else .fork outside inside

/-- Writes `body` `count` times. -/
def emitCopies (body : Nat → List Instruction) : Nat → Nat → List Instruction
  | 0, _ => []
  | count + 1, address =>
    let first := body address
    first ++ emitCopies body count (address + first.length)

/-- Writes `body` up to `count` times; each time the rest may be left out. -/
def emitOptional (greedy : Bool) (body : Nat → List Instruction) (size : Nat) :
    Nat → Nat → List Instruction
  | 0, _ => []
  | count + 1, address =>
    let finish := address + (count + 1) * (size + 1)
    .repeatOr greedy (address + 1) finish :: body (address + 1) ++
      emitOptional greedy body size count (address + 1 + size)

/-- Writes `body` any number of times. If it may match the empty text, it runs at least once inside
an option, so that an empty round ends the repetition. -/
def emitAny (greedy nullable : Bool) (body : Nat → List Instruction) (address : Nat) :
    List Instruction :=
  let code := body (address + 1)
  let finish := address + 1 + code.length
  if nullable then
    .repeatOr greedy (address + 1) (finish + 1) :: code ++
      [.repeatOr greedy (address + 1) (finish + 1)]
  else .repeatOr greedy (address + 1) (finish + 1) :: code ++ [.jump address]

mutual

/-- **The instructions of a pattern.** -/
def emit : Node → Nat → List Instruction
  | .empty, _ => []
  | .one s, _ => [.read s]
  | .look l, _ => [.require l]
  | .sequence parts, address => emitAll parts address
  | .alternatives parts, address => emitChoice parts address
  | .group number body, address =>
    .openGroup number :: emit body (address + 1) ++ [.closeGroup number]
  | .repeated least most greedy body, address =>
    match most with
    | some bound =>
      -- as many copies as there have to be, and then those that there may be
      let fixed := emitCopies (emit body) least address
      fixed ++ emitOptional greedy (emit body) (emit body 0).length (bound - least)
        (address + fixed.length)
    | none =>
      match least with
      | 0 => emitAny greedy body.canBeEmpty (emit body) address
      | before + 1 =>
        -- the last copy is the one that is repeated
        let fixed := emitCopies (emit body) before address
        let start := address + fixed.length
        let code := emit body start
        fixed ++ code ++ [.repeatOr greedy start (start + code.length + 1)]

/-- One part after the other. -/
def emitAll : List Node → Nat → List Instruction
  | [], _ => []
  | part :: rest, address =>
    let code := emit part address
    code ++ emitAll rest (address + code.length)

/-- One of several parts, the first preferred. -/
def emitChoice : List Node → Nat → List Instruction
  | [], _ => []
  | [part], address => emit part address
  | part :: rest, address =>
    let code := emit part (address + 1)
    let others := emitChoice rest (address + 2 + code.length)
    .fork (address + 1) (address + 2 + code.length) :: code ++
      .jump (address + 2 + code.length + others.length) :: others

end

/-- The program of a pattern. -/
def program (node : Node) : List Instruction :=
  emit node 0 ++ [.accept]

end Pattern

end Scenario
