import Gamebook.Fault
set_option autoImplicit false

/-!
# A Mersenne twister

The generator of pseudo-random words with period `2 ^ 19937 - 1`, seeded by an
integer of any size, and the integers below a bound that are drawn from it.
-/

namespace Gamebook

/-- The state of the generator: a block of words and the index of the next word
to hand out. -/
structure Twister where
  words : Vector UInt32 624
  next : Nat
  deriving DecidableEq, Repr, Inhabited

namespace Twister

/-- The word at an index, which is taken modulo the length of the block. -/
def word (ws : Vector UInt32 624) (i : Nat) : UInt32 := ws.get (Fin.ofNat 624 i)

/-- The block with another word at an index, which is taken modulo the length of
the block. -/
def put (ws : Vector UInt32 624) (i : Nat) (w : UInt32) : Vector UInt32 624 :=
  ws.set (i % 624) w (Nat.mod_lt _ (by decide))

/-! ## Seeding -/

/-- A word mixed with its own high bits, as seeding does with the word before the
one it fills. -/
def mixed (w : UInt32) : UInt32 := w ^^^ (w >>> 30)

/-- The block grown from a single word. -/
def grown (seed : UInt32) : Vector UInt32 624 :=
  (List.range 623).foldl
    (fun ws i => put ws (i + 1) (1812433253 * mixed (word ws i) + UInt32.ofNat (i + 1)))
    (put (Vector.replicate 624 0) 0 seed)

/-- How many different words there are. -/
def wordCount : Nat := 4294967296

/-- The digits of a number in the base of all words, the least significant first;
zero has none. -/
def limbs (n : Nat) : List UInt32 :=
  if _h : n = 0 then [] else UInt32.ofNat n :: limbs (n / wordCount)
termination_by n
decreasing_by exact Nat.div_lt_self (Nat.pos_of_ne_zero _h) (by decide)

/-- The key that seeds the generator: the digits of the seed without its sign. -/
def key (seed : Int) : List UInt32 :=
  match limbs seed.natAbs with
  | [] => [0]
  | ls => ls

/-- A pass over the block that replaces one word after the other, from the index
`start` on; after the last word the first one is set to it, and the pass goes on
with the second.  The new word is made from the number of the step, the index,
the old word and the mixed word before it. -/
def pass (steps : Nat) (f : Nat → Nat → UInt32 → UInt32 → UInt32) (start : Nat)
    (ws : Vector UInt32 624) : Vector UInt32 624 × Nat :=
  (List.range steps).foldl
    (fun (ws, i) step =>
      let ws := put ws i (f step i (word ws i) (mixed (word ws (i - 1))))
      if i < 623 then (ws, i + 1) else (put ws 0 (word ws 623), 1))
    (ws, start)

/-- The generator seeded by an integer. -/
def ofSeed (seed : Int) : Twister :=
  let ks := (key seed).toArray
  let n := ks.size
  let (ws, i) := pass (max 624 n)
    (fun step _ w before =>
      (w ^^^ (before * 1664525)) + ks.getD (step % n) 0 + UInt32.ofNat (step % n))
    1 (grown 19650218)
  let (ws, _) := pass 623
    (fun _ i w before => (w ^^^ (before * 1566083941)) - UInt32.ofNat i) i ws
  ⟨put ws 0 0x80000000, 624⟩

/-! ## Words -/

/-- The next block. -/
def twisted (ws : Vector UInt32 624) : Vector UInt32 624 :=
  (List.range 624).foldl
    (fun ws i =>
      let y := (word ws i &&& 0x80000000) ||| (word ws (i + 1) &&& 0x7FFFFFFF)
      let twist : UInt32 := if y &&& 1 = 0 then 0 else 0x9908B0DF
      put ws i (word ws (i + 397) ^^^ (y >>> 1) ^^^ twist))
    ws

/-- The tempering of a word before it is handed out. -/
def tempered (w : UInt32) : UInt32 :=
  let w := w ^^^ (w >>> 11)
  let w := w ^^^ ((w <<< 7) &&& 0x9D2C5680)
  let w := w ^^^ ((w <<< 15) &&& 0xEFC60000)
  w ^^^ (w >>> 18)

/-- The next word. -/
def nextWord (t : Twister) : UInt32 × Twister :=
  if t.next < 624 then (tempered (word t.words t.next), { t with next := t.next + 1 })
  else
    let ws := twisted t.words
    (tempered (word ws 0), ⟨ws, 1⟩)

/-! ## Integers -/

/-- A number of so many random bits: words from the least significant end, the
last one cut to its high bits. -/
def bits (count : Nat) (t : Twister) : Nat × Twister :=
  if count ≤ 32 then
    let (w, t) := t.nextWord
    (w.toNat >>> (32 - count), t)
  else
    let (low, t) := t.nextWord
    let (high, t) := bits (count - 32) t
    (low.toNat + wordCount * high, t)
termination_by count
decreasing_by omega

/-- The first of several draws of so many bits that is below the bound.  The last
draw is reduced to the range if it has to be. -/
def firstBelow (bound count : Nat) : Nat → Twister → Nat × Twister
  | 0, t =>
    let (n, t) := t.bits count
    (n % bound, t)
  | attempts + 1, t =>
    let (n, t) := t.bits count
    if n < bound then (n, t) else firstBelow bound count attempts t

/-- A number below a bound, each being as likely as any other.  A draw has as
many bits as the bound, so that at least half of the draws are below it: a
thousand failures do not happen. -/
def below (bound : Nat) (t : Twister) : Nat × Twister :=
  firstBelow bound (bound.log2 + 1) 1000 t

/-- A number below a bound that the caller has not checked. -/
def draw (bound : Int) (t : Twister) : Except Fault Nat × Twister :=
  if bound < 1 then (.error .emptyRange, t)
  else
    let (n, t) := t.below bound.toNat
    (.ok n, t)

theorem firstBelow_lt {bound : Nat} (h : 0 < bound) (count attempts : Nat) (t : Twister) :
    (firstBelow bound count attempts t).1 < bound := by
  induction attempts generalizing t with
  | zero => exact Nat.mod_lt _ h
  | succ attempts ih =>
    simp only [firstBelow]
    split
    · assumption
    · exact ih _

/-- A number drawn below a bound is below it. -/
theorem below_lt {bound : Nat} (h : 0 < bound) (t : Twister) : (t.below bound).1 < bound :=
  firstBelow_lt h _ _ t

end Twister

end Gamebook
