import FormLetter.Archive.Octets
import FormLetter.Text.CodePage
import FormLetter.Text.Utf8

namespace FormLetter.Archive

structure Entry where
  /-- The bytes of the name. -/
  rawName : List UInt8
  name : String
  comment : String
  encrypted : Bool
  /-- Encrypted by a method that an extra field gives. -/
  locked : Bool
  method : Nat
  checksum : UInt32
  /-- The size of the content. -/
  size : Nat
  /-- The size of the data in the archive. -/
  packedSize : Nat
  /-- The place of the local record. -/
  start : Nat
  deriving DecidableEq, Repr

def entrySignature : List UInt8 := [0x50, 0x4B, 1, 2]

def localSignature : List UInt8 := [0x50, 0x4B, 3, 4]

/-- A text of an entry is on the code page unless it is marked as UTF-8. -/
def entryText (marked : Bool) (bytes : List UInt8) : String :=
  String.ofList (if marked then Text.decodeLossy bytes else Text.ofCodePage bytes)

namespace Entry

/-- An entry, its extra fields, and what follows it. -/
def read? (bytes : List UInt8) : Option (Entry × List UInt8 × List UInt8) := do
  let (header, rest) ← record? entrySignature 46 bytes
  let (name, rest) ← splitBytes? (field header 28 2) rest
  let (extra, rest) ← splitBytes? (field header 30 2) rest
  let (comment, rest) ← splitBytes? (field header 32 2) rest
  let flags := field header 8 2
  let marked := flags.testBit 11
  return ({
    rawName := name
    name := entryText marked name
    comment := entryText marked comment
    encrypted := flags.testBit 0
    locked := false
    method := field header 10 2
    checksum := (field header 16 4).toUInt32
    size := field header 24 4
    packedSize := field header 20 4
    start := field header 42 4 }, extra, rest)

/-- Where the data of an entry starts: after its local record. -/
def dataStart? (archive : List UInt8) (e : Entry) : Option Nat := do
  let (header, _) ← record? localSignature 30 (archive.drop e.start)
  return e.start + 30 + field header 26 2 + field header 28 2

end Entry

end FormLetter.Archive
