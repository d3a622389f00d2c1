import FormLetter.Archive.Entry

namespace FormLetter.Archive

def endSignature : List UInt8 := [0x50, 0x4B, 5, 6]

def locatorSignature : List UInt8 := [0x50, 0x4B, 6, 7]

def largeEndSignature : List UInt8 := [0x50, 0x4B, 6, 6]

/-- The record at the end of an archive. Other data may stand before the archive, so that all is
further on than the record says. -/
structure EndRecord where
  disk : Nat
  directoryDisk : Nat
  /-- The entries on this disk. -/
  here : Nat
  total : Nat
  /-- The place of the directory, counted from the start of the archive. -/
  directory : Nat
  deriving DecidableEq, Repr

/-- The comment after an end record has to fit, and may have anything after it. -/
def EndRecord.read? (bytes : List UInt8) : Option EndRecord := do
  let (header, rest) ← record? endSignature 22 bytes
  let _ ← splitBytes? (field header 20 2) rest
  return {
    disk := field header 4 2
    directoryDisk := field header 6 2
    here := field header 8 2
    total := field header 10 2
    directory := field header 16 4 }

/-- Whether some number did not fit. -/
def EndRecord.hasOverflowed (r : EndRecord) : Bool :=
  r.total = 0xFFFF || r.directory = 0xFFFFFFFF

structure Locator where
  /-- The disk of the large end record. -/
  disk : Nat
  /-- The place of that record, counted from the start of the archive. -/
  target : Nat
  /-- How many disks there are. -/
  disks : Nat
  deriving DecidableEq, Repr

def Locator.size : Nat := 20

def Locator.read? (bytes : List UInt8) : Option Locator := do
  let (record, _) ← record? locatorSignature size bytes
  return { disk := field record 4 4, target := field record 8 8, disks := field record 16 4 }

/-- The second end record of an archive with large numbers. Its locator stands right before the
first one. -/
structure LargeEndRecord where
  /-- The size of the record after its first twelve bytes. -/
  size : Nat
  /-- The version that wrote the archive. -/
  writer : Nat
  /-- The version that it takes to read it. -/
  reader : Nat
  disk : Nat
  directoryDisk : Nat
  here : Nat
  total : Nat
  directory : Nat
  deriving DecidableEq, Repr

def LargeEndRecord.read? (bytes : List UInt8) : Option LargeEndRecord := do
  let (record, _) ← record? largeEndSignature 56 bytes
  return {
    size := field record 4 8
    writer := field record 12 2
    reader := field record 14 2
    disk := field record 16 4
    directoryDisk := field record 20 4
    here := field record 24 8
    total := field record 32 8
    directory := field record 48 8 }

/-- Where a directory is. -/
structure DirectoryPlace where
  /-- Where the archive starts. -/
  origin : Nat
  start : Nat
  count : Nat
  deriving DecidableEq, Repr

namespace DirectoryPlace

/-- The places of a signature between two places. -/
def placesBetween (signature archive : List UInt8) (low high : Nat) : List Nat :=
  places signature low ((archive.drop low).take (high - low))

/-- For an end record at a place: the directory is at the first entry from the place that the
record gives. Without entries it ends at the record. -/
def ofEnd? (archive : List UInt8) (place : Nat) (r : EndRecord) : Option DirectoryPlace := do
  let origin ←
    if r.total = 0 then some (place - r.directory)
    else (placesBetween entrySignature archive r.directory place).head?.map (· - r.directory)
  if r.disk = r.directoryDisk then some ⟨origin, r.directory + origin, r.here⟩ else none

/-- Whether a large end record ends at its locator, agrees with it, and leaves room for its
entries. -/
def isSound (locator : Locator) (locatorPlace place : Nat) (r : LargeEndRecord) : Bool :=
  44 ≤ r.size && place + 12 + r.size = locatorPlace && r.directoryDisk = locator.disk &&
    r.directory + 46 * r.total ≤ place

/-- For a locator at a place: the first sound record from the place that it gives counts. -/
def ofLocator? (archive : List UInt8) (place : Nat) (locator : Locator) :
    Option DirectoryPlace := do
  if 1 < locator.disks then none
  let (found, r) ← (placesBetween largeEndSignature archive locator.target place).findSome?
    fun found => ((LargeEndRecord.read? (archive.drop found)).filter
      (isSound locator place found)).map (found, ·)
  let origin := found - locator.target
  if r.here ≤ r.total ∧ r.reader ≤ r.writer ∧ r.disk = r.directoryDisk then
    some ⟨origin, r.directory + origin, r.total⟩
  else none

/-- For what is at a place: an end record, with a locator before it if it needs one. -/
def at? (archive : List UInt8) (place : Nat) : Option DirectoryPlace := do
  let r ← EndRecord.read? (archive.drop place)
  let locator :=
    if r.hasOverflowed ∧ Locator.size ≤ place then
      Locator.read? (archive.drop (place - Locator.size))
    else none
  match locator with
  | some locator => ofLocator? archive (place - Locator.size) locator
  | none => ofEnd? archive place r

end DirectoryPlace

end FormLetter.Archive
