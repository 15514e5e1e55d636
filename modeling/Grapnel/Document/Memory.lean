import Grapnel.Document.Basic
import Grapnel.Document.Flags
import Grapnel.Memory.Region

namespace Grapnel

namespace Address

def ofDocument? (d : Document) : Option Address := (d.word? 64).map ofNat

def toDocument (a : Address) : Document := .ofNat a.toNat

instance : Documented Address := ⟨ofDocument?, toDocument⟩

end Address

namespace Access

def names : FlagNames :=
  [("R", read.bits), ("W", write.bits), ("X", execute.bits), ("RW", readWrite.bits),
    ("RX", readExecute.bits), ("RWX", all.bits)]

def ofDocument? (d : Document) : Option Access := (d.text?.bind names.read?).map Access.mk

def toDocument (a : Access) : Document := .text (names.text a.bits)

instance : Documented Access := ⟨ofDocument?, toDocument⟩

end Access

namespace Region

def ofDocument? : Document → Option Region := FieldReader.run? do
  return {
    start := ← .required "start" Address.ofDocument?
    stop := ← .required "end" Address.ofDocument?
    access := ← .required "protection" Access.ofDocument?
    shared := ← .required "shared" Document.truth?
    offset := .ofNat (← .required "offset" (Document.word? 64))
    path := ← .optional "path" Document.text? }

def toDocument (r : Region) : Document :=
  .record [("start", r.start.toDocument), ("end", r.stop.toDocument),
    ("protection", r.access.toDocument), ("shared", .truth r.shared),
    ("offset", .ofNat r.offset.toNat), ("path", .ofOption .text r.path)]

instance : Documented Region := ⟨ofDocument?, toDocument⟩

end Region

end Grapnel
