import Grapnel.Instances

namespace Grapnel

inductive Document where
  | null
  | truth (b : Bool)
  | whole (n : Int)
  /-- A number that is not written as a whole one. -/
  | fraction
  | text (s : String)
  | list (items : List Document)
  | record (fields : List (String × Document))
deriving Inhabited

namespace Document

def truth? : Document → Option Bool
  | truth b => some b
  | _ => none

/-- A number of so many bits, without a sign. -/
def word? (bits : Nat) : Document → Option Nat
  | whole n => if 0 ≤ n ∧ n < 2 ^ bits then some n.toNat else none
  | _ => none

def text? : Document → Option String
  | text s => some s
  | _ => none

def list? {α : Type} (read : Document → Option α) : Document → Option (List α)
  | list items => items.mapM read
  | _ => none

/-- Null stands for a value that is absent. -/
def optional? {α : Type} (read : Document → Option α) : Document → Option (Option α)
  | null => some none
  | d => (read d).map some

/-- One of several named values; its name may also be the field of a record that holds null. -/
def variant? {α : Type} (name : α → String) (values : List α) : Document → Option α
  | text s => values.find? (name · == s)
  | record [(s, null)] => values.find? (name · == s)
  | _ => none

def ofNat (n : Nat) : Document := whole n

def ofOption {α : Type} (write : α → Document) : Option α → Document
  | some a => write a
  | none => null

def ofTexts (texts : List String) : Document := list (texts.map text)

end Document

/-- Values that are kept as documents. -/
class Documented (α : Type) where
  read : Document → Option α
  write : α → Document

/-- Reads a document as a value of some type and writes that again. -/
def Document.normalize? (α : Type) [Documented α] (d : Document) : Option Document :=
  (Documented.read d : Option α).map Documented.write

/-- Where the fields of a record are taken from. -/
inductive FieldSource where
  | named (fields : List (String × Document))
  | listed (items : List Document)

abbrev FieldReader := StateT FieldSource Option

namespace FieldReader

variable {α : Type}

/-- Reads a field; a missing one stands for a value, if there is one for its source. -/
def field (name : String) (read : Document → Option α) (ifUnnamed ifUnlisted : Option α) :
    FieldReader α
  | .named fields =>
    match fields.lookup name with
    | some d => (read d).map (·, .named fields)
    | none => ifUnnamed.map (·, .named fields)
  | .listed [] => ifUnlisted.map (·, .listed [])
  | .listed (d :: items) => (read d).map (·, .listed items)

def required (name : String) (read : Document → Option α) : FieldReader α :=
  field name read none none

/-- A value that may be absent: null, or missing among named fields. -/
def optional (name : String) (read : Document → Option α) : FieldReader (Option α) :=
  field name (Document.optional? read) (some none) none

def defaulted (name : String) (read : Document → Option α) (standard : α) : FieldReader α :=
  field name read (some standard) (some standard)

/-- Reads a record. Fields without a meaning are passed over, values beyond the last field are not. -/
def run? (r : FieldReader α) : Document → Option α
  | .record fields => (StateT.run r (.named fields)).map (·.1)
  | .list items =>
    match StateT.run r (.listed items) with
    | some (a, .listed []) => some a
    | _ => none
  | _ => none

end FieldReader

end Grapnel
