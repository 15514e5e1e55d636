import Grapnel.FileTree.Basic
import Grapnel.Text.Search

namespace Grapnel

structure Hosting where
  bits : UInt8
deriving DecidableEq, Inhabited

namespace Hosting

def none : Hosting := ⟨0⟩

/-- In a layer for programs of another system. -/
def compatLayer : Hosting := ⟨1⟩

def sandboxed : Hosting := ⟨2⟩

def containerized : Hosting := ⟨4⟩

def union (a b : Hosting) : Hosting := ⟨a.bits ||| b.bits⟩

/-- Adds what a process runs in if a condition holds. -/
def addIf (a : Hosting) (condition : Bool) (b : Hosting) : Hosting :=
  if condition then a.union b else a

end Hosting

structure ProcessInfo where
  pid : Nat
  name : String
  args : List String
  executable : Option String
  parent : Option Nat
  hosting : Hosting
deriving DecidableEq, Inhabited

namespace ProcessInfo

/-- The length at which the kernel cuts names. -/
def nameLimit : Nat := 15

/-- The file name in a path, unless the path ends in `..`. -/
def fileName? (path : String) : Option String :=
  match (Path.names path).getLast? with
  | some name => if name = ".." then none else some name
  | none => none

variable (p : ProcessInfo)

def executableName? : Option String := p.executable.bind fileName?

/-- What follows the last slash or backslash. -/
def lastPart (s : String) : String :=
  String.ofList (s.toList.reverse.takeWhile fun c => c ≠ '/' && c ≠ '\\').reverse

/-- The program's name in the first argument. -/
def argumentName? : Option String := p.args.head?.map lastPart

def joinedArgs : String := " ".intercalate p.args

/-- Whether a cut name may be what is left of another one. -/
def isCutOf (expected : String) : Bool :=
  p.name.utf8ByteSize = nameLimit && nameLimit < expected.utf8ByteSize
    && (Text.lowered p.name).isPrefixOf (Text.lowered expected)

/-- Whether the name, the program or the first argument is the name that is looked for. -/
def isNamed (expected : String) : Bool :=
  Text.equalsIgnoringCase p.name expected || p.isCutOf expected
    || p.executableName?.any (Text.equalsIgnoringCase · expected)
    || p.argumentName?.any (Text.equalsIgnoringCase · expected)

/-- Whether an argument has a fragment in it. -/
def mentions (fragment : String) : Bool :=
  p.args.any fun arg => Text.hasInfix (Text.lowered fragment) (Text.lowered arg)

end ProcessInfo

end Grapnel
