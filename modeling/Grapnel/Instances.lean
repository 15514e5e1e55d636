namespace Grapnel

-- These come before the instances of any library a module may import beside the core library, so that
-- a definition means the same wherever it is read. A power of which nothing else is known is one of
-- natural numbers.
@[default_instance 20000]
instance (priority := 20000) powNat : Pow Nat Nat := instPowNat

@[default_instance 15000]
instance (priority := 20000) powInt : Pow Int Nat := instPowNat

instance (priority := 20000) decidableEqByteArray : DecidableEq ByteArray :=
  ByteArray.instDecidableEq

end Grapnel
