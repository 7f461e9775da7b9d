/-!
What an archive's directory says about its files.
-/

namespace SpriteScript.Archive

structure Entry where
  name : List UInt8
  comment : String
  encrypted : Bool
  /-- Whether a field says that the data is encrypted by a method of its own. -/
  sealed : Bool
  method : Nat
  checksum : Nat
  packedSize : Nat
  unpackedSize : Nat
  offset : Nat

end SpriteScript.Archive
