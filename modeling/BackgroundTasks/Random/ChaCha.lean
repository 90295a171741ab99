/-!
# The seeded generator

A seed is stretched into a 256-bit key by a 64-bit congruential generator with a permuted output;
the key drives the ChaCha stream cipher with twelve rounds. Word `n` of the sequence is a pair of
neighbouring output words, so it can be computed on its own.
-/

namespace BackgroundTasks.Random

/-- `x` rotated left by `n` bits. -/
def rotateLeft (x n : UInt32) : UInt32 := (x <<< n) ||| (x >>> (32 - n))

/-! ## The key -/

/-- One step of the congruential generator. -/
def stretchState (state : UInt64) : UInt64 := state * 6364136223846793005 + 11634580027462260723

/-- The word a generator state shows: a xorshift, rotated right by its topmost bits. -/
def stretchWord (state : UInt64) : UInt32 :=
  let mixed := (((state >>> 18) ^^^ state) >>> 27).toUInt32
  let turn := (state >>> 59).toUInt32
  (mixed >>> turn) ||| (mixed <<< ((32 - turn) % 32))

/-- The next `count` words of key. -/
def stretch : Nat → UInt64 → List UInt32
  | 0, _ => []
  | count + 1, state =>
    let next := stretchState state
    stretchWord next :: stretch count next

/-! ## The stream -/

/-- Sixteen words. -/
abbrev Block := Vector UInt32 16

/-- The quarter round on four places of a block. -/
def quarter (s : Block) (a b c d : Fin 16) : Block :=
  let s := s.set a (s[a] + s[b])
  let s := s.set d (rotateLeft (s[d] ^^^ s[a]) 16)
  let s := s.set c (s[c] + s[d])
  let s := s.set b (rotateLeft (s[b] ^^^ s[c]) 12)
  let s := s.set a (s[a] + s[b])
  let s := s.set d (rotateLeft (s[d] ^^^ s[a]) 8)
  let s := s.set c (s[c] + s[d])
  s.set b (rotateLeft (s[b] ^^^ s[c]) 7)

/-- A round on the columns and a round on the diagonals. -/
def doubleRound (s : Block) : Block :=
  let s := quarter s 0 4 8 12
  let s := quarter s 1 5 9 13
  let s := quarter s 2 6 10 14
  let s := quarter s 3 7 11 15
  let s := quarter s 0 5 10 15
  let s := quarter s 1 6 11 12
  let s := quarter s 2 7 8 13
  quarter s 3 4 9 14

/-- The first four words of every input block. -/
def constants : List UInt32 := [0x61707865, 0x3320646e, 0x79622d32, 0x6b206574]

/-- The output block with the given number. -/
def block (key : List UInt32) (number : UInt64) : Block :=
  let words := constants ++ key.take 8 ++ [number.toUInt32, (number >>> 32).toUInt32, 0, 0]
  let input : Block := Vector.ofFn fun i => words.getD i.val 0
  let mixed := doubleRound (doubleRound (doubleRound (doubleRound (doubleRound
    (doubleRound input)))))
  Vector.ofFn fun i => mixed[i] + input[i]

/-- Word `n` of the sequence of a seed: two output words, the low half first. -/
def seededWord (seed : UInt64) (n : Nat) : UInt64 :=
  let out := block (stretch 8 seed) (UInt64.ofNat (n / 8))
  let i := n % 8
  let low := out.toList.getD (2 * i) 0
  let high := out.toList.getD (2 * i + 1) 0
  low.toUInt64 ||| (high.toUInt64 <<< 32)

end BackgroundTasks.Random
