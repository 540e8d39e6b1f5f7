/-
Blocks: what opens one, what closes one branch of it and opens the next, and
what closes it. Openers check their arguments; branches and closers take any.
-/
import LuaSource.Phrase

namespace LuaSource

inductive Opener
  | function (name : Option String) (params : List String)
  | localFunction (name : String) (params : List String)
  | ifThen (condition : String)
  | whileDo (condition : String)
  | forRange (var start stop : String) (step : Option String)
  | forIn (names exprs : List String)
  | doBlock
  | repeatLoop
  deriving DecidableEq, Repr

namespace Opener

def text : Opener → String
  | .function none params => "function" ++ parenthesized params
  | .function (some name) params => "function " ++ name ++ parenthesized params
  | .localFunction name params => "local function " ++ name ++ parenthesized params
  | .ifThen condition => "if " ++ condition ++ " then"
  | .whileDo condition => "while " ++ condition ++ " do"
  | .forRange var start stop step =>
    "for " ++ var ++ " = " ++ commaList (start :: stop :: step.toList) ++ " do"
  | .forIn names exprs => "for " ++ commaList names ++ " in " ++ commaList exprs ++ " do"
  | .doBlock => "do"
  | .repeatLoop => "repeat"

/-- The first fault in the arguments. A function may be given by any text, a
path or a method for instance; a local one by a name only. -/
def fault? : Opener → Option ArgumentFault
  | .function (some name) _ => faultInText .functionName name
  | .localFunction name _ => faultInName .localFunctionName name
  | .forRange var _ _ _ => faultInName .loopVariable var
  | .forIn names exprs => faultInTexts .loopVariables names <|> faultInList .loopExpressions exprs
  | _ => none

end Opener

inductive Branch
  | elseIf (condition : String)
  | otherwise
  deriving DecidableEq, Repr

def Branch.text : Branch → String
  | .elseIf condition => "elseif " ++ condition ++ " then"
  | .otherwise => "else"

inductive Closer
  | endBlock
  | untilHolds (condition : String)
  deriving DecidableEq, Repr

def Closer.text : Closer → String
  | .endBlock => "end"
  | .untilHolds condition => "until " ++ condition

end LuaSource
