namespace BoltClient.Text

/-- Whether a character is white space. -/
def isBlank (c : Char) : Bool :=
  let n := c.toNat
  (0x09 ≤ n && n ≤ 0x0D) || n = 0x20 || n = 0x85 || n = 0xA0 || n = 0x1680
    || (0x2000 ≤ n && n ≤ 0x200A) || n = 0x2028 || n = 0x2029 || n = 0x202F || n = 0x205F
    || n = 0x3000

/-- A text without the white space at its front. -/
def trimFront (s : List Char) : List Char := s.dropWhile isBlank

/-- A text without the white space at both ends. -/
def trim (s : List Char) : List Char := (trimFront (trimFront s).reverse).reverse

end BoltClient.Text
