import Scenario.Pattern.Program
import Scenario.Pattern.Reader

/-!
# Searching with patterns

`matches` lists the parts of a text that a pattern matches, from left to right and without overlap.
The leftmost match counts, and of the matches at one place the one that the pattern prefers.

The machine walks once over the text. At every place it holds the threads that are still alive, the
preferred one first; a thread is an address in the program and what it remembers. Two threads at one
address never stand side by side, which bounds the work at each place by the size of the program.
-/

namespace Scenario

namespace Pattern

/-- What a thread remembers: where it started and the bounds of the first group. -/
structure Memory where
  start : Nat
  groupStart : Option Nat
  groupStop : Option Nat

/-- A thread: an address and what it remembers. -/
structure Thread where
  address : Nat
  memory : Memory

/-- A match, by places in the text. -/
structure Match where
  start : Nat
  stop : Nat
  /-- The bounds of the first group, if it took part. -/
  group : Option (Nat × Nat)
deriving DecidableEq, Repr

/-- Whether a condition holds at a place. -/
def Look.holdsAt (text : Array Char) (at_ : Nat) (look : Look) : Bool :=
  let before := if at_ = 0 then none else text[at_ - 1]?
  let next := text[at_]?
  let wordBefore := before.any isWordChar
  let wordNext := next.any isWordChar
  match look with
  | .textStart => before.isNone
  | .textEnd => next.isNone
  | .lineStart => before.all (· = '\n')
  | .lineEnd => next.all (· = '\n')
  | .wordBoundary => wordBefore != wordNext
  | .noWordBoundary => wordBefore = wordNext
  | .wordStart => !wordBefore && wordNext
  | .wordEnd => wordBefore && !wordNext
  | .wordStartHalf => !wordBefore
  | .wordEndHalf => !wordNext

/-- The threads at one place: those that wait at a reading instruction or at the end, latest first,
and the addresses that have been visited. -/
structure Front where
  waiting : List Thread
  visited : Array Bool

/-- Follows threads to the next instruction that reads, in order of preference. `fuel` bounds the
number of steps; each address is visited once, and a visit adds at most two threads. -/
def follow (code : Array Instruction) (text : Array Char) (at_ : Nat) :
    Nat → List Thread → Front → Front
  | 0, _, front => front
  | _, [], front => front
  | fuel + 1, thread :: rest, front =>
    -- an address that was met before was met by a thread that is preferred
    if front.visited.getD thread.address true then follow code text at_ fuel rest front
    else
      let front := { front with visited := front.visited.setIfInBounds thread.address true }
      match code[thread.address]? with
      | none => follow code text at_ fuel rest front
      | some (.fork first second) =>
        follow code text at_ fuel
          -- all that the first branch leads to is preferred to the second one
          (⟨first, thread.memory⟩ :: ⟨second, thread.memory⟩ :: rest) front
      | some (.jump target) => follow code text at_ fuel (⟨target, thread.memory⟩ :: rest) front
      | some (.require look) =>
        if look.holdsAt text at_ then
          follow code text at_ fuel (⟨thread.address + 1, thread.memory⟩ :: rest) front
        else follow code text at_ fuel rest front
      | some (.openGroup number) =>
        let memory :=
          -- only the first group is ever asked for
          if number = 1 then { thread.memory with groupStart := some at_ } else thread.memory
        follow code text at_ fuel (⟨thread.address + 1, memory⟩ :: rest) front
      | some (.closeGroup number) =>
        let memory :=
          if number = 1 then { thread.memory with groupStop := some at_ } else thread.memory
        follow code text at_ fuel (⟨thread.address + 1, memory⟩ :: rest) front
      | some _ => follow code text at_ fuel rest { front with waiting := thread :: front.waiting }

/-- Adds a thread with least preference to the threads at a place. -/
def enter (code : Array Instruction) (text : Array Char) (at_ : Nat) (thread : Thread)
    (front : Front) : Front :=
  follow code text at_ (2 * code.size + 2) [thread] front

/-- No threads. -/
def Front.none (code : Array Instruction) : Front :=
  ⟨[], Array.replicate code.size false⟩

/-- The match of a thread that has reached the end of the program. -/
def Memory.toMatch (memory : Memory) (stop : Nat) : Match :=
  ⟨memory.start, stop,
    match memory.groupStart, memory.groupStop with
    | some a, some b => some (a, b)
    | _, _ => .none⟩

/-- Lets the threads at a place read the next character, the preferred first. A thread at the end of
the program is a match, and the threads after it are given up. -/
def advanceThreads (code : Array Instruction) (text : Array Char) (at_ : Nat) :
    List Thread → Front → Option Match → Front × Option Match
  | [], front, found => (front, found)
  | thread :: rest, front, found =>
    match code[thread.address]? with
    | some .accept => (front, some (thread.memory.toMatch at_))
    | some (.read s) =>
      if text[at_]?.any s.holds then
        let front := enter code text (at_ + 1) ⟨thread.address + 1, thread.memory⟩ front
        advanceThreads code text at_ rest front found
      else advanceThreads code text at_ rest front found
    | _ => advanceThreads code text at_ rest front found

/-- Walks over the text from a place on. Until something is found, a new thread starts at every
place. -/
def walk (code : Array Instruction) (text : Array Char) :
    Nat → Nat → Front → Option Match → Option Match
  | 0, _, _, found => found
  | fuel + 1, at_, front, found =>
    let front :=
      if found.isNone then enter code text at_ ⟨0, ⟨at_, none, none⟩⟩ front else front
    if front.waiting.isEmpty && found.isSome then found
    else
      let (next, found) :=
        advanceThreads code text at_ front.waiting.reverse (Front.none code) found
      if text.size ≤ at_ then found else walk code text fuel (at_ + 1) next found

/-- The leftmost match that starts at `from_` or later. -/
def find? (code : Array Instruction) (text : Array Char) (from_ : Nat) : Option Match :=
  if text.size < from_ then none
  else walk code text (text.size + 1 - from_) from_ (Front.none code) none

/-- All matches from a place on. An empty match right at the end of the match before it does not
count; the search then goes on one character later. -/
def findAll (code : Array Instruction) (text : Array Char) :
    Nat → Nat → Option Nat → List Match
  | 0, _, _ => []
  | fuel + 1, from_, last =>
    match find? code text from_ with
    | none => []
    | some m =>
      if m.start = m.stop && some m.stop = last then
        findAll code text fuel (from_ + 1) last
      else m :: findAll code text fuel m.stop (some m.stop)

/-- The text between two places. -/
def slice (text : Array Char) (start stop : Nat) : String :=
  String.ofList (text.extract start stop).toList

/-- **The matches of a pattern,** left to right: what the first group matched, or the whole match
where the group took no part. -/
def search (node : Node) (text : String) : List String :=
  let chars := text.toList.toArray
  let code := (program node).toArray
  (findAll code chars (2 * chars.size + 2) 0 none).map fun m =>
    match m.group with
    | some (start, stop) => slice chars start stop
    | none => slice chars m.start m.stop

end Pattern

end Scenario
