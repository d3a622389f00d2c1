import FormLetter.Archive.Checksum
import FormLetter.Archive.Entry

namespace FormLetter.Archive

/-- What reading a field comes to. -/
inductive FieldReading where
  | refused
  /-- The data ends inside the field. -/
  | ended (e : Entry)
  | read (e : Entry)

namespace FieldReading

/-- Refuses unless a test holds, then goes on. -/
def require (test : Bool) (next : FieldReading) : FieldReading :=
  if test then next else refused

/-- Goes on if there are so many bytes. -/
def reach (e : Entry) (body : List UInt8) (count : Nat) (next : FieldReading) : FieldReading :=
  if count ≤ body.length then next else ended e

end FieldReading

open FieldReading (require reach)

namespace Entry

/-- Stands for a number that does not fit in four bytes. -/
def overflowed : Nat := 0xFFFFFFFF

/-- A number of an entry and the place after it in a field of large numbers, which holds it if it
has overflowed, or if the field holds all of them. -/
def largeNumber? (all : Bool) (body : List UInt8) (place n : Nat) : Option (Nat × Nat) :=
  if all || n = overflowed then
    if place + 8 ≤ body.length then some (field body place 8, place + 8) else none
  else some (n, place)

/-- The sizes and the start of an entry as large numbers. A field of three such numbers or more
holds all of them. -/
def readLarge (e : Entry) (length : Nat) (body : List UInt8) : FieldReading :=
  let all := decide (24 ≤ length)
  match largeNumber? all body 0 e.size with
  | none => .ended e
  | some (size, place) =>
    match largeNumber? all body place e.packedSize with
    | none => .ended { e with size }
    | some (packedSize, place) =>
      match largeNumber? all body place e.start with
      | none => .ended { e with size, packedSize }
      | some (start, place) =>
        let e := { e with size, packedSize, start }
        require (place ≤ length) (reach e body length (.read e))

/-- Times of a file system, as one attribute of 24 bytes. -/
def readFileTimes (e : Entry) (length : Nat) (body : List UInt8) : FieldReading :=
  require (length = 32) <| reach e body 6 <| require (field body 4 2 = 1) <|
    reach e body 8 <| require (field body 6 2 = 24) <| reach e body length (.read e)

/-- Which of three times are given, and those times. A single one may go by another name. -/
def readTimes (e : Entry) (length : Nat) (body : List UInt8) : FieldReading :=
  let flags := field body 0 1
  let count := ((List.range 3).filter flags.testBit).length
  reach e body 1 <| require (flags < 8 && (length = 5 || length = 1 + 4 * count)) <|
    reach e body length (.read e)

/-- The kind of lock and the method beneath it. -/
def readLock (e : Entry) (length : Nat) (body : List UInt8) : FieldReading :=
  let version := field body 0 2
  let strength := field body 4 1
  require (length = 7) <| reach e body 7 <|
    require (field body 2 2 = 0x4541 && (version = 1 || version = 2) &&
      (1 ≤ strength && strength ≤ 3)) <|
    .read { e with locked := true, method := field body 5 2 }

/-- A text in Unicode, for the one that has a checksum. -/
def readText (e : Entry) (former : List UInt8) (length : Nat) (body : List UInt8)
    (change : List UInt8 → Option Entry) : FieldReading :=
  reach e body 5 <| require (5 ≤ length) <| reach e body length <|
    require (field body 1 4 = (Archive.checksum former).toNat) <|
    match change ((body.take length).drop 5) with
    | none => .refused
    | some e => .read e

def readName (e : Entry) (length : Nat) (body : List UInt8) : FieldReading :=
  e.readText e.rawName length body fun bytes =>
    (Text.decode? bytes).map fun name => { e with rawName := bytes, name := String.ofList name }

def readComment (e : Entry) (length : Nat) (body : List UInt8) : FieldReading :=
  e.readText e.comment.toUTF8.toList length body fun bytes =>
    (Text.decode? bytes).map fun comment => { e with comment := String.ofList comment }

/-- Reads a field of a kind, which has so many bytes of those that follow. -/
def readField (e : Entry) (kind length : Nat) (body : List UInt8) : FieldReading :=
  match kind with
  | 0x0001 => e.readLarge length body
  | 0x000A => e.readFileTimes length body
  | 0x5455 => e.readTimes length body
  | 0x6375 => e.readComment length body
  | 0x7075 => e.readName length body
  | 0x9901 => e.readLock length body
  | _ => reach e body length (.read e)

/-- Reads fields one after the other. None of them may be refused, and one that the data does not
hold in full says no more than it has said so far. -/
def withExtra? (e : Entry) (extra : List UInt8) : Option Entry :=
  match extra with
  | k :: k' :: n :: n' :: body =>
    let length := littleEndian [n, n']
    match e.readField (littleEndian [k, k']) length body with
    | .refused => none
    | .ended e => some e
    | .read e => e.withExtra? (body.drop length)
  | _ => some e
termination_by extra.length
decreasing_by
  simp only [List.length_drop, List.length_cons]
  omega

end Entry

end FormLetter.Archive
