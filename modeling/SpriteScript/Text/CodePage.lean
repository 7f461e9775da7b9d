/-!
Code page 437, in which archives write texts that are not marked as UTF-8. The lower half is
ASCII.
-/

namespace SpriteScript.Text

/-- The characters of the upper half of the code page. -/
def upperHalf : List Char :=
  ("ÇüéâäàåçêëèïîìÄÅ" ++ "ÉæÆôöòûùÿÖÜ¢£¥₧ƒ" ++ "áíóúñÑªº¿⌐¬½¼¡«»" ++ "░▒▓│┤╡╢╖╕╣║╗╝╜╛┐" ++
   "└┴┬├─┼╞╟╚╔╩╦╠═╬╧" ++ "╨╤╥╙╘╒╓╫╪┘┌█▄▌▐▀" ++ "αßΓπΣσµτΦΘΩδ∞φε∩" ++ "≡±≥≤⌠⌡÷≈°∙·√ⁿ²■\u00a0").toList

def codePageChar (byte : UInt8) : Char :=
  if byte.toNat < 128 then Char.ofNat byte.toNat
  else upperHalf.getD (byte.toNat - 128) '?'

def codePageText (bytes : List UInt8) : String :=
  String.ofList (bytes.map codePageChar)

end SpriteScript.Text
