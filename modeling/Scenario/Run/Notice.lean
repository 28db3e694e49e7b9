import Scenario.Binary64.Decimal
import Scenario.Step

/-!
# Notices

What a run tells whoever watches it. A `Notice` says what happened; some happen inside a `Span` of
the run, which is announced when it begins and when it ends.
-/

namespace Scenario

/-- A stretch of a run that notices happen in. -/
inductive Span where
  | caseRun (code : String)
  | requestStep (key : String)
  | exchange (method url : String)

/-- Something that happened. -/
inductive Notice where
  | entered (span : Span)
  /-- The innermost span has ended. -/
  | left
  -- the run of a case
  | caseStarted (code : String) (roots : Nat)
  | rootReached (position total : Nat) (key : String)
  | caseAborted (code key : String)
  | caseFinished (code : String) (seconds : Binary64) (passed total : Nat)
  | reportNotClosed (report reason : String)
  | stateNotKept (id : Int) (reason : String)
  -- steps
  | logged (key text : String)
  | detailLost (key reason : String)
  | childAborted (key : String)
  | loopStarted (key : String) (mode : LoopMode) (strategy : LoopStrategy)
  | included (id : Int) (steps : Nat)
  | responded (status : Nat)
  | scriptReturned (key : String) (count : Nat)
  | extracted (name : String)
  -- the client
  | clientOpened (case : String)
  | clientReleased (case : String)
  | requestFailed (text : String)

end Scenario
