/-!
# Lib — Text

White space and trimming of texts, as Unicode has it.
-/

namespace Text

/-- The `White_Space` property. -/
def isWhitespace (c : Char) : Bool :=
  let n := c.toNat
  (9 ≤ n && n ≤ 13) || (0x2000 ≤ n && n ≤ 0x200A) ||
    [0x20, 0x85, 0xA0, 0x1680, 0x2028, 0x2029, 0x202F, 0x205F, 0x3000].contains n

/-- Cuts at both ends what satisfies `p`. -/
def trimWhere (p : Char → Bool) (s : String) : String :=
  String.ofList ((s.toList.dropWhile p).reverse.dropWhile p).reverse

/-- White space at both ends goes. -/
def trim (s : String) : String := trimWhere isWhitespace s

/-- The byte order mark counts as white space. -/
def trimMark (s : String) : String := trimWhere (fun c => isWhitespace c || c.toNat == 0xFEFF) s

def startsWith (s start : String) : Bool := start.toList.isPrefixOf s.toList

end Text
