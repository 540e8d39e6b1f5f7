/-
Phrases: the pieces of source that go on a line as they are and leave the
indentation alone. A phrase has a text, and perhaps a fault in its arguments
for which it is refused.
-/
import LuaSource.Fault
import LuaSource.Token
import LuaSource.TableKey
import LuaSource.Comment
import LuaSource.Number.Literal

namespace LuaSource

/-- Items in a row, with a comma and a blank between neighbours. -/
def commaList (items : List String) : String := ", ".intercalate items

def parenthesized (items : List String) : String := "(" ++ commaList items ++ ")"

inductive Phrase
  | verbatim (text : String)
  | token (t : Token)
  | shortString (raw : String)
  | longString (raw : String)
  | integer (value : Int64)
  | float (value : Binary64)
  | declareLocal (names : List String)
  | defineLocal (names values : List String)
  | assign (targets values : List String)
  | returns (values : List String)
  | call (callee : String) (args : List String)
  | callMethod (object method : String) (args : List String)
  | field (name : String)
  | index (expr : String)
  | tableKey (key : String)
  | goto (target : String)
  | label (name : String)
  | comment (text : String)
  deriving DecidableEq, Repr

namespace Phrase

def text : Phrase → String
  | .verbatim text => text
  | .token t => t.text
  | .shortString raw => quote raw
  | .longString raw => LuaSource.longString raw
  | .integer value => LuaSource.integer value
  | .float value => LuaSource.float value
  | .declareLocal names => "local " ++ commaList names
  | .defineLocal names values => "local " ++ commaList names ++ " = " ++ commaList values
  | .assign targets values => commaList targets ++ " = " ++ commaList values
  | .returns values => if values.isEmpty then "return" else "return " ++ commaList values
  | .call callee args => callee ++ parenthesized args
  | .callMethod object method args => object ++ ":" ++ method ++ parenthesized args
  | .field name => "." ++ name
  | .index expr => "[" ++ expr ++ "]"
  | .tableKey key => LuaSource.tableKey key
  | .goto target => "goto " ++ target
  | .label name => "::" ++ name ++ "::"
  | .comment text => LuaSource.comment text

/-- The first fault in the arguments. Names and targets are looked at before
values. -/
def fault? : Phrase → Option ArgumentFault
  | .declareLocal names => faultInTexts .localNames names
  | .defineLocal names values => faultInTexts .localNames names <|> faultInList .localValues values
  | .assign targets values =>
    faultInTexts .assignmentTargets targets <|> faultInList .assignmentValues values
  | .callMethod _ method _ => faultInName .methodName method
  | .field name => faultInName .fieldName name
  | .goto target => faultInName .label target
  | .label name => faultInName .label name
  | _ => none

end Phrase
end LuaSource
