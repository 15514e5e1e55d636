import Grapnel.Document.Basic
import Grapnel.Document.Flags
import Grapnel.Process.Locator

namespace Grapnel

namespace Hosting

def names : FlagNames :=
  [("COMPAT_LAYER", compatLayer.bits), ("SANDBOXED", sandboxed.bits),
    ("CONTAINERIZED", containerized.bits)]

def ofDocument? (d : Document) : Option Hosting := (d.text?.bind names.read?).map Hosting.mk

def toDocument (h : Hosting) : Document := .text (names.text h.bits)

instance : Documented Hosting := ⟨ofDocument?, toDocument⟩

end Hosting

namespace ProcessInfo

def pidOf? (d : Document) : Option Nat := d.word? 32

def ofDocument? : Document → Option ProcessInfo := FieldReader.run? do
  return {
    pid := ← .required "pid" pidOf?
    name := ← .required "name" Document.text?
    args := ← .required "cmdline" (Document.list? Document.text?)
    executable := ← .optional "exe" Document.text?
    parent := ← .optional "parent" pidOf?
    hosting := ← .required "hosting" Hosting.ofDocument? }

def toDocument (p : ProcessInfo) : Document :=
  .record [("pid", .ofNat p.pid), ("name", .text p.name), ("cmdline", .ofTexts p.args),
    ("exe", .ofOption .text p.executable), ("parent", .ofOption .ofNat p.parent),
    ("hosting", p.hosting.toDocument)]

instance : Documented ProcessInfo := ⟨ofDocument?, toDocument⟩

end ProcessInfo

namespace LocatorConfig

def ofDocument? : Document → Option LocatorConfig := FieldReader.run? do
  let texts := Document.list? Document.text?
  return {
    names := ← .defaulted "names" texts standard.names
    moduleFragment :=
      ← .defaulted "module_fragment" (Document.optional? Document.text?) standard.moduleFragment
    compatHosts := ← .defaulted "compat_hosts" texts standard.compatHosts
    sandboxWrappers := ← .defaulted "sandbox_wrappers" texts standard.sandboxWrappers }

def toDocument (c : LocatorConfig) : Document :=
  .record [("names", .ofTexts c.names), ("module_fragment", .ofOption .text c.moduleFragment),
    ("compat_hosts", .ofTexts c.compatHosts), ("sandbox_wrappers", .ofTexts c.sandboxWrappers)]

instance : Documented LocatorConfig := ⟨ofDocument?, toDocument⟩

end LocatorConfig

namespace DiscoveryMethod

def ofDocument? : Document → Option DiscoveryMethod :=
  Document.variant? name [.directName, .compatCommandLine, .compatModule, .sandbox]

def toDocument (m : DiscoveryMethod) : Document := .text m.name

instance : Documented DiscoveryMethod := ⟨ofDocument?, toDocument⟩

end DiscoveryMethod

end Grapnel
