namespace FormLetter.Archive

def littleEndian : List UInt8 → Nat
  | [] => 0
  | b :: rest => b.toNat + 256 * littleEndian rest

/-- The first bytes, if there are so many, and those after them. -/
def splitBytes? (count : Nat) (bytes : List UInt8) : Option (List UInt8 × List UInt8) :=
  let front := bytes.take count
  if front.length = count then some (front, bytes.drop count) else none

/-- The number in a field of a record. -/
def field (record : List UInt8) (start width : Nat) : Nat :=
  littleEndian ((record.drop start).take width)

/-- A record of a given size that starts with a signature, and what follows it. -/
def record? (signature : List UInt8) (size : Nat) (bytes : List UInt8) :
    Option (List UInt8 × List UInt8) :=
  (splitBytes? size bytes).filter fun (record, _) => signature.isPrefixOf record

/-- The places of a signature from a place on. -/
def places (signature : List UInt8) (place : Nat) : List UInt8 → List Nat
  | [] => []
  | b :: rest =>
    if signature.isPrefixOf (b :: rest) then place :: places signature (place + 1) rest
    else places signature (place + 1) rest

end FormLetter.Archive
