import Pyramid.Words.Chance

/-!
# The Mersenne twister

The generator MT19937: 624 words of 32 bits that are renewed all at once, each from itself, its
successor and the word 397 places on, and tempered as they are handed out. It is seeded from the
32-bit words of a number.

A number below a bound is drawn by taking as many bits as the bound has, again and again until the
result is below it.
-/

namespace Pyramid

/-- The state of the generator. -/
structure Twister where
  words : Vector UInt32 624
  /-- How many of the words have been handed out. -/
  used : Nat

namespace Twister

/-! ## Seeding -/

/-- The words that spread a 32-bit number. -/
def spread (seed : UInt32) : Vector UInt32 624 :=
  Fin.foldl 623 (fun words i =>
    let last : UInt32 := words[i.castSucc]
    words.set i.succ ((last ^^^ (last >>> 30)) * 1812433253 + UInt32.ofNat (i + 1)))
    (Vector.replicate 624 seed)

/-- The words together with a place among all but the first of them. -/
structure Mixing where
  words : Vector UInt32 624
  place : Fin 624

/-- Replaces the word at the place and moves on; behind the last word the first one is set to it,
and the place after the first is next. -/
def Mixing.step (m : Mixing) (f : (old last : UInt32) → UInt32) : Mixing :=
  let last := m.words[m.place - 1]
  let words := m.words.set m.place (f m.words[m.place] (last ^^^ (last >>> 30)))
  if m.place = 623 then ⟨words.set 0 words[(623 : Fin 624)], 1⟩ else ⟨words, m.place + 1⟩

/-- Mixes the words of a key into the state. -/
def mixKey (key : List UInt32) : Vector UInt32 624 :=
  let start : Mixing := ⟨spread 19650218, 1⟩
  let mixed := (List.range (max 624 key.length)).foldl (fun m k =>
    let j := k % key.length
    m.step fun old last => (old ^^^ (last * 1664525)) + key.getD j 0 + UInt32.ofNat j) start
  let mixed := (List.range 623).foldl (fun m _ =>
    m.step fun old last => (old ^^^ (last * 1566083941)) - UInt32.ofNat m.place) mixed
  mixed.words.set 0 0x80000000

/-- The 32-bit words of a number, lowest first; `count` of them. -/
def wordsOf (n : Nat) : (count : Nat) → List UInt32
  | 0 => []
  | count + 1 => UInt32.ofNat n :: wordsOf (n / 0x100000000) count

/-- The generator seeded with a number, whose sign does not matter. -/
def ofSeed (seed : Int) : Twister :=
  let n := seed.natAbs
  ⟨mixKey (wordsOf n (max 1 ((n.log2 + 32) / 32))), 624⟩

/-! ## Drawing -/

/-- Renews all words, one after another. -/
def renew (words : Vector UInt32 624) : Vector UInt32 624 :=
  Fin.foldl 624 (fun words i =>
    let y := (words[i] &&& 0x80000000) ||| (words[i + 1] &&& 0x7FFFFFFF)
    let odd : UInt32 := if y &&& 1 = 1 then 0x9908B0DF else 0
    words.set i (words[i + 397] ^^^ (y >>> 1) ^^^ odd)) words

/-- The form in which a word is handed out. -/
def temper (y : UInt32) : UInt32 :=
  let y := y ^^^ (y >>> 11)
  let y := y ^^^ ((y <<< 7) &&& 0x9D2C5680)
  let y := y ^^^ ((y <<< 15) &&& 0xEFC60000)
  y ^^^ (y >>> 18)

/-- The next word. -/
def next (t : Twister) : UInt32 × Twister :=
  let t := if t.used < 624 then t else ⟨renew t.words, 0⟩
  (temper (t.words[Fin.ofNat 624 t.used]), { t with used := t.used + 1 })

/-- A number of `count` random bits: whole words, lowest first, and of the last word its highest
bits. -/
def bits (count : Nat) (t : Twister) : Nat × Twister :=
  if count ≤ 32 then
    let (w, t) := t.next
    (w.toNat >>> (32 - count), t)
  else
    let (w, t) := t.next
    let (rest, t) := bits (count - 32) t
    (w.toNat + 0x100000000 * rest, t)

/-- How often a draw is repeated. Less than half of the draws are rejected, so none is expected to
be rejected this often; should it be, its remainder is taken. -/
def patience : Nat := 10000

/-- Draws until the result is below the bound. -/
def belowLoop (bound : Nat) (positive : 0 < bound) : (tries : Nat) → Twister → Fin bound × Twister
  | 0, t =>
    let (r, t) := t.bits (bound.log2 + 1)
    (⟨r % bound, Nat.mod_lt _ positive⟩, t)
  | tries + 1, t =>
    let (r, t) := t.bits (bound.log2 + 1)
    if h : r < bound then (⟨r, h⟩, t) else belowLoop bound positive tries t

/-- The twister as a source of chance. -/
def chance : Chance Twister := ⟨fun bound positive t => belowLoop bound positive patience t⟩

end Twister
end Pyramid
