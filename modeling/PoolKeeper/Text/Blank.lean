/-!
# `PoolKeeper/Text/Blank.lean` — blanks and trimming

What counts as a blank is the `White_Space` property of Unicode, twenty-five characters in all.
Every place that reads text written by people (a configuration value, a trigger, the output of a
tool) cuts blanks off its ends by this one class, so the class and the cutting stand together.
-/

set_option autoImplicit false

namespace PoolKeeper.Text

def isBlank (c : Char) : Bool :=
  let n := c.toNat
  (9 ≤ n && n ≤ 13) || n == 0x20 || n == 0x85 || n == 0xA0 || n == 0x1680
    || (0x2000 ≤ n && n ≤ 0x200A) || n == 0x2028 || n == 0x2029 || n == 0x202F || n == 0x205F
    || n == 0x3000

def dropBlanks (cs : List Char) : List Char := cs.dropWhile isBlank

def trimBlanks (cs : List Char) : List Char :=
  (dropBlanks (dropBlanks cs).reverse).reverse

/-- `s` without the blanks at either end. -/
def trim (s : String) : String := String.ofList (trimBlanks s.toList)

end PoolKeeper.Text
