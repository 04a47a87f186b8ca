import SceneFlow.Hash.Xxh3
import SceneFlow.Text.Hex

/-!
# Fingerprints

A fingerprint of 128 bits stands for the structure of a document. What is hashed is a string of
bytes in which every text and every list carries its length, so that no two structures run
together.
-/

namespace SceneFlow

/-- A fingerprint, in two halves. -/
structure Fingerprint where
  /-- The upper half. -/
  hi : UInt64
  /-- The lower half. -/
  lo : UInt64
deriving DecidableEq, Repr, Inhabited

namespace Fingerprint

/-- The seed of all fingerprints. -/
def seed : UInt64 := 0x5d1c3a7f09be4e21

/-- The fingerprint of a string of bytes. -/
def ofBytes (bytes : List UInt8) : Fingerprint :=
  let h := Xxh3.hash seed ⟨bytes.toArray⟩
  ⟨h.high, h.low⟩

/-- The fingerprint in 32 hexadecimal digits. -/
def text (f : Fingerprint) : String :=
  String.ofList (Text.hexDigits 16 f.hi.toNat ++ Text.hexDigits 16 f.lo.toNat)

/-- A length in eight bytes, the lowest first. -/
def lengthBytes (n : Nat) : List UInt8 :=
  Xxh3.wordBytes n.toUInt64

/-- A text behind its length in bytes. -/
def textBytes (s : String) : List UInt8 :=
  let bytes := s.toUTF8.data.toList
  lengthBytes bytes.length ++ bytes

/-- The items of a list behind their number. -/
def listBytes {α : Type} (item : α → List UInt8) (items : List α) : List UInt8 :=
  lengthBytes items.length ++ items.flatMap item

end Fingerprint

end SceneFlow
