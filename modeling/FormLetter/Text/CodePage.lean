namespace FormLetter.Text

/-- The characters of the bytes from 128 on. -/
def highPage : List Char :=
  ("ÇüéâäàåçêëèïîìÄÅÉæÆôöòûùÿÖÜ¢£¥₧ƒ" ++
    "áíóúñÑªº¿⌐¬½¼¡«»░▒▓│┤╡╢╖╕╣║╗╝╜╛┐" ++
    "└┴┬├─┼╞╟╚╔╩╦╠═╬╧╨╤╥╙╘╒╓╫╪┘┌█▄▌▐▀" ++
    "αßΓπΣσµτΦΘΩδ∞φε∩≡±≥≤⌠⌡÷≈°∙·√ⁿ²■\u00a0").toList

/-- The characters of bytes on the older code page of archives. -/
def ofCodePage (bytes : List UInt8) : List Char :=
  bytes.map fun b =>
    if b < 128 then Char.ofNat b.toNat else (highPage[b.toNat - 128]?).getD '\uFFFD'

end FormLetter.Text
