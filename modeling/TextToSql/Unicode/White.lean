/-!
# White space

The `White_Space` property of the Unicode Standard. It is small enough to be written out.
-/

namespace TextToSql.Unicode

/-- Whether a character is white space: the ASCII controls from tab to carriage return, the space,
the next-line control, and the spaces and separators of the general categories `Zs`, `Zl`, `Zp`. -/
def isWhite (c : Char) : Bool :=
  let n := c.toNat
  n = 0x20 || (0x09 ≤ n && n ≤ 0x0D) || n = 0x85 || n = 0xA0 || n = 0x1680
    || (0x2000 ≤ n && n ≤ 0x200A) || n = 0x2028 || n = 0x2029 || n = 0x202F || n = 0x205F
    || n = 0x3000

end TextToSql.Unicode
