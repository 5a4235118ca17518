/-!
# The ChaCha key stream

A stream of 32-bit words from a 64-bit seed: twelve rounds of ChaCha over a key that is drawn from
the seed, with a 64-bit block counter and no nonce.
-/

namespace ChoreRota.ChaCha

def rotateLeft (word : UInt32) (count : UInt32) : UInt32 :=
  (word <<< count) ||| (word >>> ((32 - count) % 32))

structure Block where
  words : Array UInt32
  deriving DecidableEq

namespace Block

def get (block : Block) (index : Nat) : UInt32 :=
  block.words.getD index 0

def set (block : Block) (index : Nat) (word : UInt32) : Block :=
  ⟨block.words.setIfInBounds index word⟩

/-- Adds the word at `source` to the one at `target`, and turns the word at `mixed` after combining
it with the sum. -/
def mix (block : Block) (target source mixed : Nat) (count : UInt32) : Block :=
  let sum := block.get target + block.get source
  (block.set target sum).set mixed (rotateLeft (block.get mixed ^^^ sum) count)

def quarterRound (block : Block) (a b c d : Nat) : Block :=
  (((block.mix a b d 16).mix c d b 12).mix a b d 8).mix c d b 7

/-- A round of columns and a round of diagonals. -/
def doubleRound (block : Block) : Block :=
  let columns := (((block.quarterRound 0 4 8 12).quarterRound 1 5 9 13).quarterRound 2 6 10
    14).quarterRound 3 7 11 15
  (((columns.quarterRound 0 5 10 15).quarterRound 1 6 11 12).quarterRound 2 7 8
    13).quarterRound 3 4 9 14

def rounds (block : Block) : Nat → Block
  | 0 => block
  | count + 1 => (block.doubleRound).rounds count

def add (left right : Block) : Block :=
  ⟨Array.zipWith (· + ·) left.words right.words⟩

end Block

def keyStep (state : UInt64) : UInt64 × UInt32 :=
  let state := state * 6364136223846793005 + 11634580027462260723
  let mixed := (((state >>> 18) ^^^ state) >>> 27).toUInt32
  let turn := (state >>> 59).toUInt32
  (state, rotateLeft mixed ((32 - turn) % 32))

def keyWords : Nat → UInt64 → List UInt32
  | 0, _ => []
  | count + 1, state =>
    let (state, word) := keyStep state
    word :: keyWords count state

def initial (seed : UInt64) (counter : UInt64) : Block :=
  ⟨(([0x61707865, 0x3320646e, 0x79622d32, 0x6b206574] : List UInt32) ++ keyWords 8 seed ++
    [counter.toUInt32, (counter >>> 32).toUInt32, 0, 0]).toArray⟩

def word (seed : UInt64) (position : Nat) : UInt32 :=
  let start := initial seed (UInt64.ofNat (position / 16))
  ((start.rounds 6).add start).get (position % 16)

end ChoreRota.ChaCha
