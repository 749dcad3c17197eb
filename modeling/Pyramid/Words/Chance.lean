/-!
# Sources of chance

A source of chance with states `σ` gives, for every positive bound, a number below it and the next
state. Whatever is generated depends on nothing else, so what holds of a generated word for every
source holds for every generator.
-/

namespace Pyramid

/-- A source of numbers below given bounds. -/
structure Chance (σ : Type) where
  below : (bound : Nat) → 0 < bound → σ → Fin bound × σ

/-- Numbers taken from a list, over and over again; the state counts those taken. -/
def Chance.picks (numbers : List Int) : Chance Nat where
  below bound positive n :=
    let pick := numbers.getD (n % numbers.length) 0
    (⟨(pick % bound).toNat, by
      have h1 := Int.emod_nonneg pick (b := bound) (by omega)
      have h2 := Int.emod_lt_of_pos pick (b := bound) (by omega)
      omega⟩, n + 1)

end Pyramid
