/-
Fragments: the pieces that a builder collects. A line break is kept with the
layout and the depth of its time, so that a later change of the layout leaves
it alone.
-/

namespace LuaSource

inductive LineEnding
  | lf
  | crlf
  deriving DecidableEq, Repr

instance : Inhabited LineEnding := ⟨.lf⟩

def LineEnding.text : LineEnding → String
  | .lf => "\n"
  | .crlf => "\r\n"

/-- How lines are ended and indented. Any two texts will do. -/
structure Layout where
  unit : String := "    "
  newline : String := (default : LineEnding).text
  deriving DecidableEq, Repr

def Layout.indentation (l : Layout) (depth : Nat) : String :=
  String.join (List.replicate depth l.unit)

/-- `line` is a break and the indentation of the line it starts, `bareLine` a
break alone. -/
inductive Fragment
  | text (s : String)
  | line (layout : Layout) (depth : Nat)
  | bareLine (layout : Layout)
  deriving DecidableEq, Repr

def Fragment.render : Fragment → String
  | .text s => s
  | .line layout depth => layout.newline ++ layout.indentation depth
  | .bareLine layout => layout.newline

end LuaSource
