import FormLetter.Archive.Checksum
import FormLetter.Archive.Directory
import FormLetter.Archive.Inflate
import FormLetter.Dict

namespace FormLetter.Archive

/-- How the data of a file is packed. -/
inductive Packing where
  | stored
  | deflated
  deriving DecidableEq, Repr

def Packing.ofMethod? : Nat → Option Packing
  | 0 => some .stored
  | 8 => some .deflated
  | _ => none

def Packing.unpack? : Packing → List UInt8 → Option (List UInt8)
  | .stored, data => some data
  | .deflated, data => inflate? data

namespace Entry

def isFolder (e : Entry) : Bool :=
  e.name.endsWith "/" || e.name.endsWith "\\"

/-- The packed data of an entry, if it can be unpacked at all. -/
def data? (archive : List UInt8) (e : Entry) : Option (Packing × List UInt8) := do
  if e.encrypted || e.locked then none
  let packing ← Packing.ofMethod? e.method
  let start ← e.dataStart? archive
  return (packing, (archive.drop start).take e.packedSize)

/-- The content of a file, if it has the checksum of its entry. -/
def content? (archive : List UInt8) (e : Entry) : Option (List UInt8) := do
  let (packing, data) ← e.data? archive
  let content ← packing.unpack? data
  if Archive.checksum content = e.checksum then some content else none

end Entry

/-- The files of the entries. Folders have no content, but their entries have to be sound. -/
def unpack? (archive : List UInt8) : List Entry → Option (Dict (List UInt8))
  | [] => some []
  | e :: entries =>
    if e.isFolder then (e.data? archive).bind fun _ => unpack? archive entries
    else do
      let content ← e.content? archive
      return (← unpack? archive entries).insert e.name content

/-- The files of an archive by their names. Of several entries of one name the last one counts, and
the others are not read. -/
def files? (archive : List UInt8) : Option (Dict (List UInt8)) := do
  let entries ← directory? archive
  unpack? archive ((Dict.ofList (entries.map fun e => (e.name, e))).map Prod.snd)

end FormLetter.Archive
