/-
The journal: what a builder reports beside the source, one message for each
rejected call, each reset and each end that comes too early, and the sink to
which the lines go.
-/
import LuaSource.Fault

namespace LuaSource

inductive Event
  | rejected (fault : Fault)
  | reset (fragments level : Nat)
  | leftOpen (level : Nat)
  deriving DecidableEq, Repr

def Event.message : Event → String
  | .rejected .levelIsZero => "Rejected dedent at indentation level 0"
  | .rejected fault => fault.message
  | .reset fragments level =>
    "Reset after " ++ fragments.repr ++ " fragment(s) at indentation level " ++ level.repr
  | .leftOpen level => "Finished with " ++ level.repr ++ " block(s) still open"

def Event.line (e : Event) : String := "luasmith: " ++ e.message ++ "\n"

/-- Where journal lines go. A sink keeps them or refuses each of them. -/
inductive Sink
  | keeping
  | refusing
  deriving DecidableEq, Repr

/-- What is kept of an event when the given sink, or none, is attached. -/
def Event.kept (e : Event) : Option Sink → String
  | some .keeping => e.line
  | _ => ""

end LuaSource
