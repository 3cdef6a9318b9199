namespace JoinTrace.Quoted

-- Characters that are written by their number: marks that join the character before them, blanks
-- other than the plain space, and characters with no form of their own. The table is a partial one.
-- It has the joining marks of general use but few of those of single scripts, and the unassigned
-- characters of the last planes alone; what it leaves out is written as it is.
def hidden : List (Nat × Nat) := [
  (0x00,0x1f), (0x7f,0xa0), (0xad,0xad), (0x300,0x36f), (0x483,0x489), (0x591,0x5bd),
  (0x600,0x605), (0x61c,0x61c), (0x6dd,0x6dd), (0x70f,0x70f), (0x1680,0x1680), (0x180e,0x180e),
  (0x1ab0,0x1ace), (0x1dc0,0x1dff), (0x2000,0x200f), (0x2028,0x202f), (0x205f,0x206f),
  (0x20d0,0x20f0), (0x3000,0x3000), (0x302a,0x302f), (0x3099,0x309a), (0xe000,0xf8ff),
  (0xfe00,0xfe0f), (0xfe20,0xfe2f), (0xfeff,0xfeff), (0xfff0,0xfffb), (0xfffe,0xffff),
  (0xe0000,0x10ffff)]

def isHidden (c : Char) : Bool := hidden.any fun range => range.1 ≤ c.toNat && c.toNat ≤ range.2

def character (c : Char) : List Char :=
  if c = '"' then ['\\', '"']
  else if c = '\\' then ['\\', '\\']
  else if c = '\n' then ['\\', 'n']
  else if c = '\r' then ['\\', 'r']
  else if c = '\t' then ['\\', 't']
  else if c.toNat = 0 then ['\\', '0']
  else if isHidden c then ['\\', 'u', '\x7b'] ++ Nat.toDigits 16 c.toNat ++ ['\x7d']
  else [c]

def quoted (text : String) : String :=
  "\"" ++ String.ofList (text.toList.flatMap character) ++ "\""

end JoinTrace.Quoted
