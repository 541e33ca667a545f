/-!
White space around a text. A character is blank when it has the Unicode property of white space: twenty-five
characters in all, of which the ASCII ones are only six.
-/

namespace CollateralDebt.Blank

def isBlank (c : Char) : Bool :=
  let n := c.toNat
  (9 ≤ n && n ≤ 13) || n == 0x20 || n == 0x85 || n == 0xa0 || n == 0x1680 || (0x2000 ≤ n && n ≤ 0x200a)
    || n == 0x2028 || n == 0x2029 || n == 0x202f || n == 0x205f || n == 0x3000

/-- A text without the white space at its two ends. -/
def trim (text : List Char) : List Char :=
  (((text.dropWhile isBlank).reverse).dropWhile isBlank).reverse

/-- A text with no white space at either end is left as it is. -/
theorem trim_eq_self {text : List Char} (hfirst : ∀ c ∈ text.head?, isBlank c = false)
    (hlast : ∀ c ∈ text.getLast?, isBlank c = false) : trim text = text := by
  have hfront : text.dropWhile isBlank = text := by
    cases text with
    | nil => rfl
    | cons c rest => simp [List.dropWhile, hfirst c (by simp)]
  have hback : text.reverse.dropWhile isBlank = text.reverse := by
    cases hreverse : text.reverse with
    | nil => rfl
    | cons c rest =>
        have hend : text.getLast? = some c := by
          rw [← List.head?_reverse, hreverse, List.head?_cons]
        simp [List.dropWhile, hlast c (by simp [hend])]
  rw [trim, hfront, hback, List.reverse_reverse]

end CollateralDebt.Blank
