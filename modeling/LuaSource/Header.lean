/-
Headers read back: the lists in the first line of a statement or of a block, two with a sign or a
word between them, or one in brackets. A reader does not know the lists, so it goes by the first
place where the sign or the word stands.
-/
import LuaSource.Remainder

namespace LuaSource

/-- What `whole` has before `ending`, if it ends with it. -/
def beginning? (ending whole : List Char) : Option (List Char) :=
  (remainder? ending.reverse whole.reverse).map List.reverse

/-- What a text has before the first `mark` in it, and after that. -/
def cut? (mark : List Char) : List Char → Option (List Char × List Char)
  | [] => none
  | c :: cs =>
    match remainder? mark (c :: cs) with
    | some rest => some ([], rest)
    | none => (cut? mark cs).map fun (before, after) => (c :: before, after)

/-- The pieces of a text between commas with a blank. -/
def pieces : List Char → List (List Char)
  | [] => [[]]
  | ',' :: ' ' :: cs => [] :: pieces cs
  | c :: cs => (pieces cs).modifyHead (c :: ·)

def items (cs : List Char) : List String := (pieces cs).map String.ofList

namespace Header

def lists? (mark cs : List Char) : Option (List String × List String) :=
  (cut? mark cs).map fun (left, right) => (items left, items right)

def readLocal? (text : String) : Option (List String × List String) :=
  (remainder? "local ".toList text.toList).bind (lists? " = ".toList)

def readFor? (text : String) : Option (List String × List String) :=
  (remainder? "for ".toList text.toList).bind fun rest =>
    (beginning? " do".toList rest).bind (lists? " in ".toList)

def readLocalFunction? (text : String) : Option (String × List String) :=
  (remainder? "local function ".toList text.toList).bind fun rest =>
    (cut? ['('] rest).bind fun (name, rest) =>
      (beginning? [')'] rest).map fun inside =>
        -- A list that is written has an item at least, but there may be no parameters.
        (String.ofList name, if inside = [] then [] else items inside)

end Header
end LuaSource
