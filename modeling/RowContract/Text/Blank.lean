/-!
Blank characters and trimming.  A character is blank when it has the Unicode
property `White_Space`; every place of the library that trims, or that asks
whether a text is empty to the eye, uses this one class.
-/

namespace RowContract.Text

/-- The characters with the Unicode property `White_Space`. -/
def isBlank (c : Char) : Bool :=
  let n := c.toNat
  (9 ≤ n && n ≤ 13) || n == 0x20 || n == 0x85 || n == 0xA0 || n == 0x1680 ||
    (0x2000 ≤ n && n ≤ 0x200A) || n == 0x2028 || n == 0x2029 || n == 0x202F ||
    n == 0x205F || n == 0x3000

def dropBlanks (cs : List Char) : List Char := cs.dropWhile isBlank

def dropTrailingBlanks (cs : List Char) : List Char := (cs.reverse.dropWhile isBlank).reverse

def trimChars (cs : List Char) : List Char := dropTrailingBlanks (dropBlanks cs)

def trim (s : String) : String := String.ofList (trimChars s.toList)

/-- A text is blank when nothing of it survives trimming. -/
def isBlankText (s : String) : Bool := s.toList.all isBlank

/-- Letters `A` to `Z` count as their small forms; all else counts as itself. -/
def sameIgnoringCase (s t : String) : Bool := s.toLower == t.toLower

theorem sameIgnoringCase_iff {s t : String} :
    sameIgnoringCase s t = true ↔ s.toList.map Char.toLower = t.toList.map Char.toLower := by
  have hlower (s : String) : s.toLower.toList = s.toList.map Char.toLower := String.toList_map
  rw [sameIgnoringCase, beq_iff_eq, ← String.toList_inj, hlower, hlower]

@[simp] theorem dropBlanks_nil : dropBlanks [] = [] := rfl

@[simp] theorem trimChars_nil : trimChars [] = [] := rfl

end RowContract.Text
