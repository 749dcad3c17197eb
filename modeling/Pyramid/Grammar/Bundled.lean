import Pyramid.Disk.Path

/-!
# Bundled grammars

Two grammar texts that can be read by name: the palindromes of even length over `a` and `b`, which
serve when no grammar is asked for, and the non-empty balanced sequences of round brackets.

Specification §1: the grammar resources that come with the program.
-/

namespace Pyramid.Grammar

/-- Even-length palindromes over `a` and `b`. -/
def palindromes : Text :=
  "# even-length palindromes over \x7ba,b\x7d\n" ++
  "S->A X\nS->B Y\nS->A A\nS->B B\nX->S A\nY->S B\nA->a\nB->b\n"

/-- Balanced brackets. -/
def balanced : Text :=
  "# non-empty balanced parentheses\nS->L R\nS->L T\nS->S S\nT->S R\nL->(\nR->)\n"

/-- The name of the grammar that is used when none is named. -/
def defaultName : Text := "palindromes.txt"

/-- The bundled text of that name, which is taken as a path: `./balanced.txt` will do. -/
def bundled? (name : Text) : Option Text :=
  match Path.ofText name with
  | ⟨.here, [file]⟩ =>
    if file = "palindromes.txt".toList then some palindromes
    else if file = "balanced.txt".toList then some balanced
    else none
  | _ => none

end Pyramid.Grammar
