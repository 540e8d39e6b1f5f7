/-
Table constructors of string keys and string values: the commands that lay one
out with an entry on each line, and the reading of one back from its lexemes.
-/
import LuaSource.Command
import LuaSource.Lexeme

namespace LuaSource
namespace TableConstructor

structure Entry where
  key : String
  value : String
  long : Bool
  deriving DecidableEq, Repr

def Entry.commands (e : Entry) : List Command :=
  [.put (.tableKey e.key), .put (if e.long then .longString e.value else .shortString e.value)]

/-- The commands that write a constructor: braces, and between them a line for
each entry with commas in between, one level deeper. -/
def commands (entries : List Entry) : List Command :=
  [.put (.token (.mark .openBrace)), .newDeeperLine] ++
    List.intercalate [.put (.verbatim ","), .newLine] (entries.map Entry.commands) ++
    [.newOuterLine, .put (.token (.mark .closeBrace))]

/-- Reads entries to the closing brace, which has to be the last lexeme. A comma
follows each entry but perhaps the last. -/
def entries? : List Lexeme → Option (List (String × String))
  | [.symbol .closeBrace] => some []
  | .name key :: .symbol .assign :: .string value :: rest => more? key value rest
  | .symbol .openBracket :: .string key :: .symbol .closeBracket :: .symbol .assign ::
      .string value :: rest => more? key value rest
  | _ => none
where
  more? (key value : String) : List Lexeme → Option (List (String × String))
    | [.symbol .closeBrace] => some [(key, value)]
    | .symbol .comma :: rest => (entries? rest).map ((key, value) :: ·)
    | _ => none

def read? (cs : List Char) : Option (List (String × String)) :=
  match Lexeme.all? cs with
  | some (.symbol .openBrace :: rest) => entries? rest
  | _ => none

end TableConstructor
end LuaSource
