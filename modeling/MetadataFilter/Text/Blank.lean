/-!
# White space

`isBlank` is the Unicode property White_Space: a fixed table, wider than ASCII white space, without
the zero-width space and the byte order mark. `trim` drops blanks from both ends of a text, and
gives the empty text exactly for a text of blanks (`trim_eq_nil_iff`).
-/

namespace MetadataFilter.Text

/-- The characters of the Unicode property White_Space. -/
def isBlank (c : Char) : Bool :=
  let n := c.toNat
  (9 ≤ n && n ≤ 13) || n == 0x20 || n == 0x85 || n == 0xA0 || n == 0x1680
    || (0x2000 ≤ n && n ≤ 0x200A) || n == 0x2028 || n == 0x2029 || n == 0x202F || n == 0x205F
    || n == 0x3000

def trimEnd (text : List Char) : List Char := (text.reverse.dropWhile isBlank).reverse

def trim (text : List Char) : List Char := trimEnd (text.dropWhile isBlank)

theorem dropWhile_isBlank_eq_nil_iff (text : List Char) :
    text.dropWhile isBlank = [] ↔ text.all isBlank = true := by
  induction text with
  | nil => simp
  | cons c rest ih => by_cases h : isBlank c = true <;> simp_all

theorem trimEnd_eq_nil_iff (text : List Char) : trimEnd text = [] ↔ text.all isBlank = true := by
  rw [trimEnd, List.reverse_eq_nil_iff, dropWhile_isBlank_eq_nil_iff]
  simp

theorem trim_eq_nil_iff (text : List Char) : trim text = [] ↔ text.all isBlank = true := by
  rw [trim, trimEnd_eq_nil_iff]
  induction text with
  | nil => simp
  | cons c rest ih => by_cases h : isBlank c = true <;> simp_all

end MetadataFilter.Text
