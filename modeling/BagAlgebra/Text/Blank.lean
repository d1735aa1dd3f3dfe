/-
Blank characters: what is stripped from the end of a line of a table and from around a numeral.
-/

namespace BagAlgebra

/-- White space of any kind: the ASCII blanks and separators, the next-line control, and the space,
line and paragraph separators of Unicode. Zero-width characters are not blank. -/
def isBlank (c : Char) : Bool :=
  let n := c.toNat
  (0x9 ≤ n && n ≤ 0xd) || (0x1c ≤ n && n ≤ 0x20) || n == 0x85 || n == 0xa0 || n == 0x1680
    || (0x2000 ≤ n && n ≤ 0x200a) || n == 0x2028 || n == 0x2029 || n == 0x202f || n == 0x205f
    || n == 0x3000

/-- Removes the blanks at the end. -/
def stripRight (cs : List Char) : List Char := (cs.reverse.dropWhile isBlank).reverse

/-- What is left begins the text, and the rest is blank. -/
theorem stripRight_append_blank (cs : List Char) :
    ∃ blanks, stripRight cs ++ blanks = cs ∧ ∀ c ∈ blanks, isBlank c = true := by
  refine ⟨(cs.reverse.takeWhile isBlank).reverse, ?_, ?_⟩
  · rw [stripRight, ← List.reverse_append, List.takeWhile_append_dropWhile, List.reverse_reverse]
  · intro c hc
    have := List.all_takeWhile (p := isBlank) (l := cs.reverse)
    exact List.all_eq_true.1 this c (List.mem_reverse.1 hc)

end BagAlgebra
