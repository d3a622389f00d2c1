import FormLetter.Archive.EndRecord
import FormLetter.Archive.Extra

namespace FormLetter.Archive

/-- The method that stands for a lock. -/
def lockMethod : Nat := 99

namespace DirectoryPlace

/-- The next entry of a directory and what follows it. Its data has to start before the
directory. -/
def entry? (archive : List UInt8) (d : DirectoryPlace) (bytes : List UInt8) :
    Option (Entry × List UInt8) := do
  let (e, extra, rest) ← Entry.read? bytes
  let e ← e.withExtra? extra
  if e.method = lockMethod ∧ !e.locked then none
  let e := { e with start := e.start + d.origin }
  let dataStart ← e.dataStart? archive
  if e.start < d.start ∧ dataStart ≤ d.start then some (e, rest) else none

def entriesFrom? (archive : List UInt8) (d : DirectoryPlace) :
    Nat → List UInt8 → Option (List Entry)
  | 0, _ => some []
  | count + 1, bytes => do
    let (e, rest) ← d.entry? archive bytes
    return e :: (← d.entriesFrom? archive count rest)

def entries? (archive : List UInt8) (d : DirectoryPlace) : Option (List Entry) :=
  d.entriesFrom? archive d.count (archive.drop d.start)

end DirectoryPlace

/-- The last end record that leads to entries counts. -/
def directory? (archive : List UInt8) : Option (List Entry) :=
  (places endSignature 0 archive).reverse.findSome? fun place =>
    (DirectoryPlace.at? archive place).bind (·.entries? archive)

end FormLetter.Archive
