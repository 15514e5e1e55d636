namespace Grapnel

inductive SourceTag where
  | sandbox
  | environment
  | input
  | clone
  | hook
  | load
deriving DecidableEq, Inhabited

namespace SourceTag

def name : SourceTag → String
  | .sandbox => "Sandbox"
  | .environment => "Environment"
  | .input => "Input"
  | .clone => "Clone"
  | .hook => "Hook"
  | .load => "Load"

def all : List SourceTag := [.sandbox, .environment, .input, .clone, .hook, .load]

def label : SourceTag → String
  | .sandbox => "sandbox"
  | .environment => "environment"
  | .input => "input"
  | .clone => "clone"
  | .hook => "hook"
  | .load => "load"

/-- What every tagged chunk name begins with. -/
def opening : String := "=[tether:"

def chunkName (tag : SourceTag) : String := opening ++ tag.label ++ "]"

/-- A chunk name with the name of a script after the tag. -/
def namedChunk (tag : SourceTag) (name : String) : String := tag.chunkName ++ " " ++ name

def afterOpening? (source : List Char) : Option (List Char) :=
  if opening.toList.isPrefixOf source then some (source.drop opening.toList.length) else none

/-- The tag that a chunk name carries: the label up to the first bracket has to be one. -/
def classify? (source : String) : Option SourceTag :=
  match afterOpening? source.toList with
  | some rest =>
    if rest.contains ']' then
      all.find? fun tag => tag.label.toList = rest.takeWhile (· ≠ ']')
    else none
  | none => none

/-- Whether functions with this tag come from the engine and not from a script as it was given. -/
def isManufactured (tag : SourceTag) : Bool := tag ≠ .input

/-- Whether frames with this tag belong to code that the host controls. -/
def isHost : SourceTag → Bool
  | .sandbox | .environment | .input => true
  | .clone | .hook | .load => false

end SourceTag

end Grapnel
