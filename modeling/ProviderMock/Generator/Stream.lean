/-!
# Random streams

The stream of random characters that a key determines.

* **words** — `StreamKey.word key n` is the `n`-th word of 64 bits of the ChaCha cipher with twelve
  rounds under the key, with a block counter of 64 bits and no nonce. It depends on nothing but the
  key and the position, so a place in the stream is all the state there is.
* **characters** — `StreamKey.next key n` is the first character at or after position `n`, and the
  position after it. A word gives a letter or digit by multiplication with 36; words in the last,
  incomplete share of the range are skipped, so that all characters are equally likely.
* **seeds** — `StreamKey.ofSeed` expands a seed of 64 bits to a key, by a linear congruential
  generator with a permuted output.
-/

namespace ProviderMock

/-- A key of 256 bits. -/
structure StreamKey where
  words : Vector UInt32 8
  deriving DecidableEq, Repr

namespace StreamKey

/-! ## Words -/

/-- Rotate a word to the left. -/
def rotateLeft (x : UInt32) (n : UInt32) : UInt32 := (x <<< n) ||| (x >>> (32 - n))

/-- The state of the cipher. -/
abbrev Cipher := Vector UInt32 16

/-- Mix four words of a state. -/
def quarterRound (s : Cipher) (a b c d : Fin 16) : Cipher :=
  let s := s.set a (s[a] + s[b])
  let s := s.set d (rotateLeft (s[d] ^^^ s[a]) 16)
  let s := s.set c (s[c] + s[d])
  let s := s.set b (rotateLeft (s[b] ^^^ s[c]) 12)
  let s := s.set a (s[a] + s[b])
  let s := s.set d (rotateLeft (s[d] ^^^ s[a]) 8)
  let s := s.set c (s[c] + s[d])
  s.set b (rotateLeft (s[b] ^^^ s[c]) 7)

/-- A round on the columns of a state and one on its diagonals. -/
def doubleRound (s : Cipher) : Cipher :=
  let s := quarterRound s 0 4 8 12
  let s := quarterRound s 1 5 9 13
  let s := quarterRound s 2 6 10 14
  let s := quarterRound s 3 7 11 15
  let s := quarterRound s 0 5 10 15
  let s := quarterRound s 1 6 11 12
  let s := quarterRound s 2 7 8 13
  quarterRound s 3 4 9 14

/-- The state of a block before it is mixed. -/
def initial (key : StreamKey) (counter : UInt64) : Cipher :=
  -- the four constants of the cipher, the key, the counter and an empty nonce
  (#v[0x61707865, 0x3320646e, 0x79622d32, 0x6b206574] : Vector UInt32 4) ++ key.words ++
    (#v[counter.toUInt32, (counter >>> 32).toUInt32, 0, 0] : Vector UInt32 4)

/-- A block of the stream: six double rounds, added to the state they started from. -/
def block (key : StreamKey) (counter : UInt64) : Cipher :=
  let s := key.initial counter
  (Nat.repeat doubleRound 6 s).zipWith (· + ·) s

/-- The word at a position of the stream: two words of a block, the low one first. -/
def word (key : StreamKey) (position : Nat) : UInt64 :=
  let b := key.block (UInt64.ofNat (position / 8))
  let low := b.get ⟨2 * (position % 8), by omega⟩
  let high := b.get ⟨2 * (position % 8) + 1, by omega⟩
  low.toUInt64 ||| (high.toUInt64 <<< 32)

/-! ## Characters -/

/-- The characters of random strings: the small letters and the digits. -/
def charset : List Char := [
  'a', 'b', 'c', 'd', 'e', 'f', 'g', 'h', 'i', 'j', 'k', 'l', 'm', 'n', 'o', 'p', 'q', 'r',
  's', 't', 'u', 'v', 'w', 'x', 'y', 'z', '0', '1', '2', '3', '4', '5', '6', '7', '8', '9'
]

/-- The index that a word gives, unless the word is to be skipped. -/
def index? (word : UInt64) : Option Nat :=
  let product := word.toNat * 36
  -- the high half of the product is the index, and the low half tells how far into its share of the
  -- range the word lies; the bound is 36 with its highest bit moved to the highest of a word
  if product % UInt64.size < 0x9000000000000000 then some (product / UInt64.size) else none

/-- The first index in the stream from a position on, within `fuel` words, and the position after
it. -/
def seek (key : StreamKey) : Nat → Nat → Nat × Nat
  | 0, position => (0, position)
  | fuel + 1, position =>
    match index? (key.word position) with
    | some i => (i, position + 1)
    | none => seek key fuel (position + 1)

/-- Nothing is looked for further back. -/
theorem le_seek (key : StreamKey) (fuel position : Nat) :
    position ≤ (key.seek fuel position).2 := by
  induction fuel generalizing position with
  | zero => exact Nat.le_refl position
  | succ fuel ih =>
    rw [seek]
    split
    · exact Nat.le_succ position
    · exact Nat.le_trans (Nat.le_succ position) (ih (position + 1))

/-- How many words it takes until the stream repeats: eight for every value of the counter. -/
def period : Nat := 8 * UInt64.size

/-- The first character in the stream from a position on, and the position after it. In a whole
period every word has had its turn. -/
def next (key : StreamKey) (position : Nat) : Char × Nat :=
  let found := key.seek period position
  (charset.getD found.1 'a', found.2)

/-- A character uses up a word at least. -/
theorem lt_next (key : StreamKey) (position : Nat) : position < (key.next position).2 := by
  obtain ⟨fuel, hfuel⟩ : ∃ fuel, period = fuel + 1 := ⟨period - 1, by decide⟩
  rw [next, hfuel, seek]
  split
  · exact Nat.lt_succ_self position
  · exact key.le_seek fuel (position + 1)

/-- The next characters in the stream from a position on, and the position after them. -/
def take (key : StreamKey) : Nat → Nat → List Char × Nat
  | 0, position => ([], position)
  | count + 1, position =>
    let first := key.next position
    let rest := take key count first.2
    (first.1 :: rest.1, rest.2)

/-- Characters use up a word each at least. -/
theorem le_take (key : StreamKey) (count position : Nat) :
    position + count ≤ (key.take count position).2 := by
  induction count generalizing position with
  | zero => exact Nat.le_refl position
  | succ count ih =>
    have hfirst := key.lt_next position
    have hrest := ih (key.next position).2
    rw [take]
    omega

/-! ## Seeds -/

/-- One step of the generator that expands seeds: the next state. -/
def advance (state : UInt64) : UInt64 := state * 6364136223846793005 + 11634580027462260723

/-- The output of a state of the generator that expands seeds: the high bits mixed, and rotated to
the right by the five highest ones. -/
def output (state : UInt64) : UInt32 :=
  let x := (((state >>> 18) ^^^ state) >>> 27).toUInt32
  let n := (state >>> 59).toUInt32
  (x >>> n) ||| (x <<< ((32 - n) % 32))

/-- The key of a seed: the outputs of the next eight states. -/
def ofSeed (seed : UInt64) : StreamKey :=
  ⟨Vector.ofFn fun i : Fin 8 => output (Nat.repeat advance (i.val + 1) seed)⟩

end StreamKey

end ProviderMock
