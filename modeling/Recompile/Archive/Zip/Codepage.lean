import Recompile.Text.Bytes

/-!
# Names in the old code page

The name of a member that is not marked as UTF-8 is in code page 437, whose lower half is ASCII.
-/

namespace Recompile

namespace Zip

/-- The upper half of the code page. -/
def upperCodepage : Array Char :=
  ("ÇüéâäàåçêëèïîìÄÅÉæÆôöòûùÿÖÜ¢£¥₧ƒ" ++ "áíóúñÑªº¿⌐¬½¼¡«»░▒▓│┤╡╢╖╕╣║╗╝╜╛┐" ++
    "└┴┬├─┼╞╟╚╔╩╦╠═╬╧╨╤╥╙╘╒╓╫╪┘┌█▄▌▐▀" ++ "αßΓπΣσµτΦΘΩδ∞φε∩≡±≥≤⌠⌡÷≈°∙·√ⁿ²■\u00a0").toList.toArray

def codepageChar (b : UInt8) : Char :=
  if b < 0x80 then Char.ofNat b.toNat else upperCodepage.getD (b.toNat - 128) ' '

def decodeName (utf8 : Bool) (name : Bytes) : String :=
  if utf8 then Bytes.toStringLossy name else String.ofList (name.map codepageChar)

end Zip

end Recompile
