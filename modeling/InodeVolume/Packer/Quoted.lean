import InodeVolume.Packer.Hidden

/-!
# Quoted text

Text in double quotes, with the characters escaped that would not show, or that
would end the quotes.
-/

namespace InodeVolume

namespace Packer

namespace Quoted

def escape (c : Char) : List Char :=
  if c = '"' || c = '\\' then ['\\', c]
  else if c = '\t' then ['\\', 't']
  else if c = '\n' then ['\\', 'n']
  else if c = '\r' then ['\\', 'r']
  else if c.toNat = 0 then ['\\', '0']
  else if isHidden c then "\\u\x7b".toList ++ Nat.toDigits 16 c.toNat ++ ['\x7d']
  else [c]

def encode (text : String) : String :=
  String.ofList ('"' :: text.toList.flatMap escape ++ ['"'])

end Quoted

end Packer

end InodeVolume
