import Pyramid.Failure
import Pyramid.Words.Chance

/-!
# Words for trying out grammars

Random words over an alphabet, and lists of palindromes of random lengths. The letters of an
alphabet are texts; a word is the letters drawn, one after another, and a palindrome is a word
followed by its own reversal, so its length is even. A list of words that are meant to be rejected
is a list of palindromes with a suffix.

Specification §1: the generator of test words, for the properties of §8 and the switch `--generate`
of the command line (§6).
-/

namespace Pyramid.Words

/-- Draws from a source of chance with states `σ`. -/
abbrev Draw (σ α : Type) := StateT σ (Except Failure) α

variable {σ : Type}

/-- The letters that serve when no alphabet is given. -/
def defaultAlphabet : List Text := ["a", "b"]

/-- A letter of the alphabet. -/
def letter (chance : Chance σ) (alphabet : List Text) : Draw σ Text := fun s =>
  if h : 0 < alphabet.length then
    let (i, s) := chance.below alphabet.length h s
    .ok (alphabet[i], s)
  else .error .emptyAlphabet

/-- A word of `length` letters. -/
def randomWord (chance : Chance σ) (alphabet : List Text) : (length : Nat) → Draw σ Text
  | 0 => return []
  | length + 1 => do
    let a ← letter chance alphabet
    return a ++ (← randomWord chance alphabet length)

/-- A word of `length` letters followed by its reversal. -/
def palindrome (chance : Chance σ) (alphabet : List Text) (length : Nat) : Draw σ Text := do
  let w ← randomWord chance alphabet length
  return w ++ w.reverse

/-- There is no number from `low` up to `high`. That is said only of bounds that can be shown. -/
def emptyRange (low high : Int) : Failure :=
  if [low, high, high - low].all Text.isShowable then .emptyRange (some (low, high))
  else .limit .digitsShown

/-- A number from `low` up to, but without, `high`. -/
def between (chance : Chance σ) (low high : Int) : Draw σ Int := fun s =>
  if h : 0 < (high - low).toNat then
    let (i, s) := chance.below (high - low).toNat h s
    .ok (low + i, s)
  else .error (emptyRange low high)

/-- What a list of words is to be like. -/
structure Request where
  /-- How many letters the first half of a palindrome has: at least `low` and less than `high`, or,
  if there is no `high`, any number less than `low`. -/
  low : Int := 3
  high : Option Int := some 10
  alphabet : List Text := defaultAlphabet

/-- Draws how many letters the first half of a palindrome has. -/
def Request.length (chance : Chance σ) (r : Request) : Draw σ Int :=
  match r.high with
  | some high => between chance r.low high
  | none => if 0 < r.low then between chance 0 r.low else throw (.emptyRange none)

/-- A list of palindromes: for each its length is drawn first, then its letters. -/
def valid (chance : Chance σ) (r : Request) : (count : Nat) → Draw σ (List Text)
  | 0 => return []
  | count + 1 => do
    let n ← r.length chance
    let w ← palindrome chance r.alphabet n.toNat
    return w :: (← valid chance r count)

/-- The suffix that serves when none is given. -/
def defaultSuffix : Text := "a"

/-- A list of palindromes with a suffix. -/
def invalid (chance : Chance σ) (r : Request) (suffix : Text) (count : Nat) :
    Draw σ (List Text) := do
  return (← valid chance r count).map (· ++ suffix)

end Pyramid.Words
