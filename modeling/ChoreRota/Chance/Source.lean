import ChoreRota.Chance.ChaCha

/-!
# Random choices

A choice among `n` scales a word of 32 bits to an index and draws again when the word falls into the
uneven rest, so that all indices are equally likely.
-/

namespace ChoreRota.Chance

/-- A stream of words: some given ones and then zeros, or the key stream of a seed. -/
inductive Stream where
  | script (words : List UInt32)
  | seeded (seed : UInt64)
  deriving DecidableEq, Repr

def Stream.word (stream : Stream) (position : Nat) : UInt32 :=
  match stream with
  | .script words => words.getD position 0
  | .seeded seed => ChaCha.word seed position

/-- After how many draws a choice stops waiting for an accepted word. A script is used up by then
and zero is always accepted; a key stream begins again after all values of its block counter, so a
word that is not accepted by then never comes. -/
def Stream.patience (stream : Stream) : Nat :=
  match stream with
  | .script words => words.length + 1
  | .seeded _ => 16 * 18446744073709551616

structure Source where
  stream : Stream
  drawn : Nat
  deriving DecidableEq, Repr

def Source.start (stream : Stream) : Source :=
  ⟨stream, 0⟩

def Source.draw (source : Source) : UInt32 × Source :=
  (source.stream.word source.drawn, ⟨source.stream, source.drawn + 1⟩)

/-- How often `n` can be doubled and still fit in 32 bits. -/
def leadingZeros (n : Nat) : Nat :=
  32 - (n.log2 + 1)

def accepts (n : Nat) (word : UInt32) : Bool :=
  word.toNat * n % 4294967296 ≤ (n <<< leadingZeros n) - 1

def indexOf (n : Nat) (word : UInt32) : Nat :=
  word.toNat * n / 4294967296

def chooseIndex (n : Nat) (source : Source) : Nat → Nat × Source
  | 0 => (0, source)
  | patience + 1 =>
    let (word, source) := source.draw
    if accepts n word then (indexOf n word, source) else chooseIndex n source patience

/-- An item of a list, each as likely as the others; nothing is drawn for an empty list. -/
def choose {α : Type} (items : List α) (source : Source) : Option α × Source :=
  match items with
  | [] => (none, source)
  | items =>
    let (index, source) := chooseIndex items.length source source.stream.patience
    (items[index]?, source)

end ChoreRota.Chance
