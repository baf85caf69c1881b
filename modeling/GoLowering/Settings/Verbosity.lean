/-!
# Verbosity

Which messages of a run are let through. A quiet run says nothing; debugging counts as
verbosity two at least, and turns every trace on.
-/

namespace GoLowering

inductive OutputLevel where
  | quiet | detailed | verbose
  deriving DecidableEq, Repr

def OutputLevel.name : OutputLevel → String
  | quiet => "quiet" | detailed => "detailed" | verbose => "verbose"

inductive MessageLevel where
  | phase | info | debug | trace
  deriving DecidableEq, Repr

/-- The parts of a run that can be traced one by one. -/
inductive TraceTopic where
  | collector | literal | dispatch | desugar | lineMap | oracle | driver
  deriving DecidableEq, Repr

namespace TraceTopic

def name : TraceTopic → String
  | collector => "collector" | literal => "literal" | dispatch => "dispatch"
  | desugar => "desugar" | lineMap => "linemap" | oracle => "oracle" | driver => "driver"

def all : List TraceTopic := [collector, literal, dispatch, desugar, lineMap, oracle, driver]

def ofName? (text : String) : Option TraceTopic :=
  all.find? (·.name == text)

end TraceTopic

structure Verbosity where
  debug : Bool
  quiet : Bool
  verbose : Nat
  topics : List TraceTopic

namespace Verbosity

def outputLevel (v : Verbosity) : OutputLevel :=
  if v.quiet then .quiet else if v.verbose > 0 then .verbose else .detailed

def effective (v : Verbosity) : Nat :=
  if v.quiet then 0 else if v.debug then max v.verbose 2 else v.verbose

def enabled (v : Verbosity) : MessageLevel → Bool
  | .phase => !v.quiet
  | .info => 1 ≤ v.effective
  | .debug => 2 ≤ v.effective
  | .trace => 3 ≤ v.effective

def traces (v : Verbosity) (topic : TraceTopic) : Bool :=
  !v.quiet && (v.debug || v.topics.contains topic)

end Verbosity

end GoLowering
