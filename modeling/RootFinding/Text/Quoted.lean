import RootFinding.Text.Marks
import RootFinding.Text.Unassigned

/-!
# Quoted text

Text between double quotes on one line, from which the text can be read back: quotes,
backslashes and the common controls have two-character escapes, and every other character
that cannot be seen by itself is written by its number.
-/

namespace RootFinding.Text

/-- Controls, format characters, fillers, separators other than the space, and private points. -/
def blanks : CodePoints :=
  [(0x0, 0x1f), (0x7f, 0xa0), (0xad, 0xad), (0x600, 0x605), (0x61c, 0x61c), (0x6dd, 0x6dd),
    (0x70f, 0x70f), (0x890, 0x891), (0x8e2, 0x8e2), (0x115f, 0x1160), (0x1680, 0x1680),
    (0x180e, 0x180e), (0x2000, 0x200f), (0x2028, 0x202f), (0x205f, 0x2064),
    (0x2066, 0x206f), (0x3000, 0x3000), (0x3164, 0x3164), (0xe000, 0xf8ff),
    (0xfeff, 0xfeff), (0xffa0, 0xffa0), (0xfff9, 0xfffb), (0x110bd, 0x110bd),
    (0x110cd, 0x110cd), (0x13430, 0x1343f), (0x1bca0, 0x1bca3), (0x1d173, 0x1d17a),
    (0xe0001, 0xe0001), (0xe0020, 0xe007f), (0xf0000, 0xffffd), (0x100000, 0x10fffd)]

/-- The table of blanks can be looked up. -/
theorem isAscending_blanks : blanks.isAscending := by decide +kernel

/-- Whether a character can be seen by itself. -/
def isVisible (c : Char) : Bool :=
  !(blanks.contains c.toNat || extendingMarks.contains c.toNat || unassigned.contains c.toNat)

/-- How one character is written between quotes. -/
def escape (c : Char) : List Char :=
  if c == '"' then ['\\', '"']
  else if c == '\\' then ['\\', '\\']
  else if c == '\n' then ['\\', 'n']
  else if c == '\r' then ['\\', 'r']
  else if c == '\t' then ['\\', 't']
  else if c.toNat == 0 then ['\\', '0']
  else if isVisible c then [c]
  else '\\' :: 'u' :: '\x7b' :: Nat.toDigits 16 c.toNat ++ ['\x7d']

/-- The quoted form of a text. -/
def quote (text : String) : String :=
  String.ofList ('"' :: text.toList.flatMap escape ++ ['"'])

end RootFinding.Text
