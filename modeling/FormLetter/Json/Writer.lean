import FormLetter.Json

namespace FormLetter.Json

def hexDigit (n : Nat) : Char :=
  (Nat.toDigits 16 n).headD '0'

/-- Quotes, backslashes and control characters are escaped. -/
def escape (c : Char) : List Char :=
  if c = '"' then ['\\', '"']
  else if c = '\\' then ['\\', '\\']
  else if c.toNat < 0x20 then
    ['\\', 'u', '0', '0', hexDigit (c.toNat / 16), hexDigit (c.toNat % 16)]
  else [c]

def quote (s : String) : String :=
  "\"" ++ String.ofList (s.toList.flatMap escape) ++ "\""

mutual
/-- Writes a document after other text. -/
def writeTo (out : String) : Json → String
  | null => out ++ "null"
  | bool b => out ++ if b then "true" else "false"
  | number n => out ++ String.ofList n.chars
  | string s => out ++ quote s
  | garbled => out ++ "\"\\ud800\""
  | array items => writeItems (out ++ "[") items ++ "]"
  | object members => writeMembers (out ++ "\x7b") members ++ "\x7d"
termination_by structural json => json

def writeItems (out : String) : List Json → String
  | [] => out
  | [json] => writeTo out json
  | json :: items => writeItems (writeTo out json ++ ",") items
termination_by structural items => items

def writeMembers (out : String) : List (String × Json) → String
  | [] => out
  | [(name, json)] => writeTo (out ++ quote name ++ ":") json
  | (name, json) :: members =>
    writeMembers (writeTo (out ++ quote name ++ ":") json ++ ",") members
termination_by structural members => members
end

def text (json : Json) : String :=
  writeTo "" json

end FormLetter.Json
