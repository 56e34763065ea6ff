namespace SiteVisit.Text

/-- Space, tab, the line and paragraph ends, the information separators and the spaces of every
width and script. Zero-width marks are not blank. -/
def isBlank (c : Char) : Bool :=
  let n := c.toNat
  (9 ≤ n && n ≤ 13) || (0x1c ≤ n && n ≤ 0x20) || n == 0x85 || n == 0xa0 || n == 0x1680 ||
    (0x2000 ≤ n && n ≤ 0x200a) || n == 0x2028 || n == 0x2029 || n == 0x202f || n == 0x205f ||
    n == 0x3000

def trimStart (cs : List Char) : List Char := cs.dropWhile isBlank

def trimChars (cs : List Char) : List Char := (trimStart (trimStart cs).reverse).reverse

def trim (s : String) : String := String.ofList (trimChars s.toList)

/-- Writes `fill` for each longest run of blanks. The flag says that a run has begun. -/
def squeezeFrom (fill : Char) : Bool → List Char → List Char
  | _, [] => []
  | inRun, c :: cs =>
    if isBlank c then
      if inRun then squeezeFrom fill true cs else fill :: squeezeFrom fill true cs
    else c :: squeezeFrom fill false cs

def squeeze (fill : Char) (cs : List Char) : List Char := squeezeFrom fill false cs

end SiteVisit.Text
