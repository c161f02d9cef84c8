/-!
# The ChaCha stream with eight rounds

A generator is a key of eight words. Block number `n` of its stream is the ChaCha permutation with
four double rounds applied to the state made of four constants, the key, the counter `n` and a zero
stream number, added to that state word by word. `Stream.next` hands the stream out sixty-four bits
at a time, low word first.

The key comes from a seed of sixty-four bits: `seedKey` runs a linear congruential generator and
permutes each of its states into one word.

A `Stream` keeps the words of the current block that were not handed out yet and the number of the
block after it, so a block is computed once.
-/

namespace CombatTrials
namespace Chance

/-- A word turned left by `n` places, for `n` between one and thirty-one. -/
def rotateLeft (x n : UInt32) : UInt32 := (x <<< n) ||| (x >>> (32 - n))

/-- The sixteen words that the rounds work on. -/
abbrev State := Vector UInt32 16

/-- Mixes the four words at the given places. -/
def quarterRound (s : State) (a b c d : Fin 16) : State :=
  let step (s : State) (x y z : Fin 16) (n : UInt32) : State :=
    let s := s.set x (s[x] + s[y])
    s.set z (rotateLeft (s[z] ^^^ s[x]) n)
  step (step (step (step s a b d 16) c d b 12) a b d 8) c d b 7

/-- Mixes the four columns, then the four diagonals. -/
def doubleRound (s : State) : State :=
  let s := quarterRound s 0 4 8 12
  let s := quarterRound s 1 5 9 13
  let s := quarterRound s 2 6 10 14
  let s := quarterRound s 3 7 11 15
  let s := quarterRound s 0 5 10 15
  let s := quarterRound s 1 6 11 12
  let s := quarterRound s 2 7 8 13
  quarterRound s 3 4 9 14

/-- The state of block `counter` before the rounds. -/
def initialState (key : Vector UInt32 8) (counter : UInt64) : State :=
  #v[0x61707865, 0x3320646E, 0x79622D32, 0x6B206574,
    key[0], key[1], key[2], key[3], key[4], key[5], key[6], key[7],
    counter.toUInt32, (counter >>> 32).toUInt32, 0, 0]

/-- The sixteen words of block `counter`. -/
def block (key : Vector UInt32 8) (counter : UInt64) : State :=
  let s := initialState key counter
  let mixed := doubleRound (doubleRound (doubleRound (doubleRound s)))
  mixed.zipWith (· + ·) s

/-- Two consecutive words as one number, low word first. -/
def joinWords (low high : UInt32) : UInt64 := low.toUInt64 ||| (high.toUInt64 <<< 32)

/-- Words taken in pairs. -/
def joinPairs : List UInt32 → List UInt64
  | low :: high :: rest => joinWords low high :: joinPairs rest
  | _ => []

/-- One step of the generator that expands seeds. -/
def seedStep (state : UInt64) : UInt64 := state * 6364136223846793005 + 11634580027462260723

/-- The word read off a state of the generator that expands seeds. -/
def seedWord (state : UInt64) : UInt32 :=
  let x := (((state >>> 18) ^^^ state) >>> 27).toUInt32
  let n := (state >>> 59).toUInt32
  if n = 0 then x else rotateLeft x (32 - n)

/-- The key that a seed expands to. -/
def seedKey (seed : UInt64) : Vector UInt32 8 :=
  let s0 := seedStep seed
  let s1 := seedStep s0
  let s2 := seedStep s1
  let s3 := seedStep s2
  let s4 := seedStep s3
  let s5 := seedStep s4
  let s6 := seedStep s5
  let s7 := seedStep s6
  #v[seedWord s0, seedWord s1, seedWord s2, seedWord s3, seedWord s4, seedWord s5, seedWord s6,
    seedWord s7]

/-- A position in the stream of a key. -/
structure Stream where
  key : Vector UInt32 8
  /-- The number of the first block none of whose words were taken. -/
  counter : UInt64
  /-- What is left of the block before it. -/
  pending : List UInt64
  deriving DecidableEq

namespace Stream

/-- The start of the stream of a seed. -/
def ofSeed (seed : UInt64) : Stream := ⟨seedKey seed, 0, []⟩

/-- The next sixty-four bits, and the stream after them. -/
def next (s : Stream) : UInt64 × Stream :=
  match s.pending with
  | word :: rest => (word, { s with pending := rest })
  | [] =>
    match joinPairs (block s.key s.counter).toList with
    | word :: rest => (word, ⟨s.key, s.counter + 1, rest⟩)
    | [] => (0, s)

end Stream
end Chance
end CombatTrials
