import Scenario.Journal
import Scenario.Text.Integer

/-!
# Choosing from the journal

A filter is a list of directives that are separated by commas: a level for everything (`warn`), a
topic for all its levels (`stepcase::config`), or a level for a topic (`stepcase=debug`). A topic
stands for all topics whose names begin with it, and the directive with the longest topic decides.

A filter without directives shows errors only. A directive in brackets speaks of spans, and chooses
no entry by itself. What is no directive is left out and complained of.
-/

namespace Scenario

namespace Journal

/-- The number of levels that are shown for a topic. -/
structure Directive where
  topic : String
  depth : Nat
deriving DecidableEq, Repr

/-- What is shown of the journal. -/
structure Filter where
  directives : List Directive
deriving DecidableEq, Repr

/-- What the text of a directive may be. -/
inductive DirectiveRead where
  | shows (directive : Directive)
  /-- A directive about spans. -/
  | ofSpans
  | unknownLevel
  | malformed

/-- The number of levels that a text speaks of: a name or a number. -/
def depthOfText? (text : String) : Option Nat :=
  match Text.natural? text.toList with
  | some n => if n ≤ 5 then some n else none
  | none =>
    let names := [("off", 0), ("error", 1), ("warn", 2), ("info", 3), ("debug", 4), ("trace", 5)]
    (names.find? fun (name, _) => Text.sameIgnoringCase name text).map Prod.snd

/-- Whether a topic may begin with a character. -/
def opensTopic (c : Char) : Bool :=
  c ∈ ['-', ':', '_'] || c.isAlphanum || 128 ≤ c.toNat

/-- Reads a directive. -/
def DirectiveRead.ofText (text : String) : DirectiveRead :=
  let text := Text.trim text
  let cs := text.toList
  match cs with
  | [] => .shows ⟨"", 5⟩
  | c :: _ =>
    if c = '[' then (if ']' ∈ cs then .ofSpans else .malformed)
    else if !opensTopic c then .malformed
    else
      let (before, after) := cs.span fun c => c ≠ '=' && c ≠ '['
      match after with
      | '[' :: rest => if ']' ∈ rest then .ofSpans else .malformed
      | '=' :: level =>
        if level.isEmpty then .shows ⟨String.ofList before, 5⟩
        else
          match depthOfText? (String.ofList level) with
          | some depth => .shows ⟨String.ofList before, depth⟩
          | none => .unknownLevel
      | _ =>
        -- a level alone is for all topics, and any other word is a topic
        match depthOfText? text with
        | some depth => .shows ⟨"", depth⟩
        | none => .shows ⟨text, 5⟩

/-- What is said of a text that is no directive. -/
def DirectiveRead.complaint? (text : String) : DirectiveRead → Option String
  | .shows _ => none
  | .ofSpans => none
  | .unknownLevel => some ("ignoring \x60" ++ text ++ "\x60: error parsing level filter: " ++
    "expected one of \"off\", \"error\", \"warn\", \"info\", \"debug\", \"trace\", " ++
    "or a number 0-5")
  | .malformed => some ("ignoring \x60" ++ text ++ "\x60: invalid filter directive")

/-- The directive that was read, if it chooses entries. -/
def DirectiveRead.directive? : DirectiveRead → Option Directive
  | .shows directive => some directive
  | _ => none

namespace Filter

/-- **Reading a filter.** The second part of the result are the complaints. -/
def ofText (text : String) : Filter × List String :=
  let reads := ((Text.split ',' text).filter fun part => !part.isEmpty).map fun part =>
    (part, DirectiveRead.ofText part)
  let found := reads.filterMap fun (_, read) => read.directive?
  let silent := reads.all fun (_, read) =>
    match read with
    | .shows _ => false
    | .ofSpans => false
    | _ => true
  (⟨if silent then [⟨"", 1⟩] else found⟩,
    reads.filterMap fun (part, read) => read.complaint? part)

/-- Whether one directive speaks of a topic more precisely than another. -/
def preferred (best : Option Directive) (directive : Directive) : Option Directive :=
  match best with
  | some other =>
    if directive.topic.utf8ByteSize < other.topic.utf8ByteSize then best else some directive
  | none => some directive

/-- The number of levels that are shown for a topic. -/
def depth (filter : Filter) (topic : Topic) : Nat :=
  let speaking := filter.directives.filter fun d => topic.name.startsWith d.topic
  ((speaking.foldl preferred none).map Directive.depth).getD 0

/-- Whether entries of a level are shown for a topic. -/
def shows (filter : Filter) (topic : Topic) (level : Level) : Bool :=
  level.rank ≤ filter.depth topic

/-- **What is shown of an entry:** nothing, or the entry inside of the spans that are shown. -/
def apply (filter : Filter) (entry : Entry) : Option Entry :=
  if filter.shows entry.topic entry.level then
    some { entry with spans := entry.spans.filter fun s => filter.shows (topicOf s) .info }
  else none

end Filter

end Journal

end Scenario
