/-
The builder: fragments in the order in which they came, and the level at which
the next line starts. A step that is refused gives a fault and no builder, so
nothing of it is ever seen.

A line break goes before what it introduces. So a block's header is put where
the builder stands, its closer on a line of its own at the header's level.
-/
import LuaSource.Block
import LuaSource.Fragment
import LuaSource.Journal

namespace LuaSource

structure Builder where
  buffer : Array Fragment := #[]
  level : Nat := 0
  layout : Layout := {}
  sink : Option Sink := none
  deriving DecidableEq, Repr

namespace Builder

/-! ## Views -/

def fragments (b : Builder) : List Fragment := b.buffer.toList

def count (b : Builder) : Nat := b.buffer.size

def isEmpty (b : Builder) : Bool := b.buffer.isEmpty

/-- The source: all fragments joined, with nothing between them. -/
def render (b : Builder) : String := String.join (b.fragments.map Fragment.render)

def display (b : Builder) : String :=
  b.buffer.foldl (fun out f => out ++ f.render) ""

instance : ToString Builder := ⟨display⟩

def currentIndent (b : Builder) : String := b.layout.indentation b.level

/-! ## Fragments and levels -/

def emit (b : Builder) (f : Fragment) : Builder := { b with buffer := b.buffer.push f }

def append (b : Builder) (text : String) : Builder := b.emit (.text text)

def indent (b : Builder) : Builder := { b with level := b.level + 1 }

def dedent (b : Builder) : Except Fault Builder :=
  match b.level with
  | 0 => .error .levelIsZero
  | n + 1 => .ok { b with level := n }

def atLevel (b : Builder) (level : Nat) : Builder := { b with level }

@[simp] theorem fragments_emit (b : Builder) (f : Fragment) :
    (b.emit f).fragments = b.fragments ++ [f] := by
  simp [fragments, emit]

@[simp] theorem level_emit (b : Builder) (f : Fragment) : (b.emit f).level = b.level := rfl

@[simp] theorem layout_emit (b : Builder) (f : Fragment) : (b.emit f).layout = b.layout := rfl

@[simp] theorem sink_emit (b : Builder) (f : Fragment) : (b.emit f).sink = b.sink := rfl

theorem count_eq_length (b : Builder) : b.count = b.fragments.length := by
  rw [count, fragments, Array.length_toList]

theorem render_emit (b : Builder) (f : Fragment) : (b.emit f).render = b.render ++ f.render := by
  rw [render, fragments_emit, List.map_append, String.join_append, render]
  simp

theorem display_eq_render (b : Builder) : b.display = b.render := by
  rw [display, render, String.join_eq_foldl, ← Array.foldl_toList, List.foldl_map, fragments]

/-! ## Lines -/

def newLine (b : Builder) : Builder := b.emit (.line b.layout b.level)

def newDeeperLine (b : Builder) : Builder := b.indent.newLine

def newOuterLine (b : Builder) : Except Fault Builder := b.dedent.map newLine

def newBareLine (b : Builder) : Builder := b.emit (.bareLine b.layout)

/-! ## Phrases and blocks -/

def unlessFault (fault? : Option ArgumentFault) (b : Builder) : Except Fault Builder :=
  match fault? with
  | some fault => .error (.badArgument fault)
  | none => .ok b

def put (p : Phrase) (b : Builder) : Except Fault Builder :=
  unlessFault p.fault? (b.append p.text)

def openBlock (o : Opener) (b : Builder) : Except Fault Builder :=
  unlessFault o.fault? (b.append o.text).indent

def continueBlock (br : Branch) (b : Builder) : Except Fault Builder :=
  b.newOuterLine.map fun b => (b.append br.text).indent

def closeBlock (c : Closer) (b : Builder) : Except Fault Builder :=
  b.newOuterLine.map (·.append c.text)

/-! ## Settings

They are for the lines that come after; the breaks that are there keep theirs. -/

def setUnit (b : Builder) (unit : String) : Builder := { b with layout.unit := unit }

def setNewline (b : Builder) (newline : String) : Builder := { b with layout.newline := newline }

def setSink (b : Builder) (sink : Sink) : Builder := { b with sink := some sink }

/-! ## Whole builders -/

/-- The sink stays, and nothing else. -/
def reset (b : Builder) : Builder := { sink := b.sink }

def finish (b : Builder) : Except Fault String :=
  if b.level = 0 then .ok b.render else .error (.unclosed b.level)

end Builder
end LuaSource
