/-
What can go wrong while source is built, and the words for it: a level below
zero, an argument that does not fit its role, a block that is left open. Also
the checks that find an argument's fault.
-/
import LuaSource.Name

namespace LuaSource

inductive Role
  | functionName
  | localFunctionName
  | loopVariable
  | loopVariables
  | loopExpressions
  | localNames
  | localValues
  | assignmentTargets
  | assignmentValues
  | methodName
  | fieldName
  | label
  deriving DecidableEq, Repr

def Role.text : Role → String
  | .functionName => "Function name"
  | .localFunctionName => "Local function name"
  | .loopVariable => "Loop variable"
  | .loopVariables => "Loop variables"
  | .loopExpressions => "Loop expressions"
  | .localNames => "Local names"
  | .localValues => "Local values"
  | .assignmentTargets => "Assignment targets"
  | .assignmentValues => "Assignment values"
  | .methodName => "Method name"
  | .fieldName => "Field name"
  | .label => "Label"

/-- Why an argument is refused. `stated` is a reason that a caller gives in its
own words. -/
inductive ArgumentFault
  | notAName (role : Role) (given : String)
  | noElements (role : Role)
  | emptyText (role : Role)
  | stated (reason : String)
  deriving DecidableEq, Repr

def ArgumentFault.text : ArgumentFault → String
  | .notAName role given => role.text ++ " must be a valid Lua name, got '" ++ given ++ "'"
  | .noElements role => role.text ++ " must contain at least one element"
  | .emptyText role => role.text ++ " must not be empty"
  | .stated reason => reason

/-- Why a build step, or the end of a build, is refused. -/
inductive Fault
  | levelIsZero
  | badArgument (fault : ArgumentFault)
  | unclosed (depth : Nat)
  deriving DecidableEq, Repr

def Fault.message : Fault → String
  | .levelIsZero => "Cannot dedent: indentation level is already 0"
  | .badArgument fault => "Invalid argument: " ++ fault.text
  | .unclosed depth => "Unclosed block: " ++ depth.repr ++ " block(s) still open"

/-! ## Checks -/

def faultInName (role : Role) (name : String) : Option ArgumentFault :=
  if isName name then none else some (.notAName role name)

def faultInText (role : Role) (text : String) : Option ArgumentFault :=
  if text.isEmpty then some (.emptyText role) else none

def faultInList (role : Role) (items : List String) : Option ArgumentFault :=
  if items.isEmpty then some (.noElements role) else none

/-- The fault of a list that has to have an element and no empty one. -/
def faultInTexts (role : Role) (texts : List String) : Option ArgumentFault :=
  faultInList role texts <|> texts.findSome? (faultInText role)

end LuaSource
