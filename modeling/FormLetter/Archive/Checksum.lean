namespace FormLetter.Archive

/-- Divides by the polynomial, one bit on. -/
def crcStep (r : UInt32) : UInt32 :=
  if r % 2 = 1 then (r >>> 1) ^^^ 0xEDB88320 else r >>> 1

def crcByte (r : UInt32) (b : UInt8) : UInt32 :=
  Nat.repeat crcStep 8 (r ^^^ b.toUInt32)

/-- The cyclic redundancy check of a file: the remainder of a division of polynomials over bits,
with the lowest bit first. -/
def checksum (bytes : List UInt8) : UInt32 :=
  ~~~ bytes.foldl crcByte 0xFFFFFFFF

end FormLetter.Archive
