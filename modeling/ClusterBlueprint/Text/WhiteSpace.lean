/-!
White space.

The blanks of ASCII are its space, tab, line feed, vertical tab, form feed and carriage return;
Unicode adds the next-line character, the no-break spaces and the spaces of given widths.
-/

namespace ClusterBlueprint.Text

/-- Whether the character has the property White_Space. -/
def isWhiteSpace (c : Char) : Bool :=
  let n := c.toNat
  (9 ≤ n && n ≤ 13) || n = 0x20 || n = 0x85 || n = 0xA0 || n = 0x1680
    || (0x2000 ≤ n && n ≤ 0x200A) || n = 0x2028 || n = 0x2029 || n = 0x202F || n = 0x205F
    || n = 0x3000

def trimWhiteSpace (cs : List Char) : List Char :=
  ((cs.dropWhile isWhiteSpace).reverse.dropWhile isWhiteSpace).reverse

end ClusterBlueprint.Text
