import Mathlib.Algebra.Ring.Nat
import ProviderMock.Proofs.Draws

/-!
# The text that a seed spells

A seed stands for an endless text. Generators take their strings off it from the start on, without
leaving anything out, whatever is asked of them in between. How long the strings are says where the
text is cut, and nothing else.

* **texts** — `StreamKey.text` is the text of a key, and `StreamKey.chunk` a part of it.
  `StreamKey.take_place`: what is taken off a stream at the end of a part is what comes next.
* **calls** — `Generator.draw` goes through calls that ask for strings or for values.
  `Generator.draw_eq_randomStrings`: all that matters of them is how many strings they draw.
* **chunks** — `Generator.strings_spell_text`.
-/

namespace ProviderMock

/-! ## Texts -/

namespace StreamKey

variable (key : StreamKey)

/-- The position in the stream of a key after a number of characters. -/
def place : ℕ → ℕ
  | 0 => 0
  | i + 1 => (key.next (place i)).2

/-- The characters in the stream of a key, one after the other. -/
def text (i : ℕ) : Char := (key.next (key.place i)).1

/-- The part of a text that comes after `k` parts of the same size. -/
def chunk (size k : ℕ) : List Char := (List.range' (k * size) size).map key.text

/-- A text is made of the characters of random strings. -/
theorem text_mem_charset (i : ℕ) : key.text i ∈ charset := by
  show charset.getD (key.seek period (key.place i)).1 'a' ∈ charset
  rw [List.getD_eq_getElem?_getD]
  cases hfound : charset[(key.seek period (key.place i)).1]? with
  | none => decide
  | some c => exact List.mem_of_getElem? hfound

/-- What is taken off a stream is the text, from where the characters so far end. -/
theorem take_place (count i : ℕ) :
    key.take count (key.place i) = ((List.range' i count).map key.text, key.place (i + count)) := by
  induction count generalizing i with
  | zero => rfl
  | succ count ih =>
    have hnext : key.next (key.place i) = (key.text i, key.place (i + 1)) := rfl
    rw [take, hnext, ih, List.range'_succ, List.map_cons, Nat.add_right_comm, Nat.add_assoc]

/-- Parts that follow each other make up the text. -/
theorem flatten_chunks (size n : ℕ) :
    ((List.range n).map (key.chunk size)).flatten = (List.range (n * size)).map key.text := by
  induction n with
  | zero => simp
  | succ n ih =>
    have hsplit : List.range (n * size) ++ List.range' (n * size) size =
        List.range (n * size + size) := by
      rw [List.range_eq_range', List.range_eq_range']
      have happend := List.range'_append_1 (s := 0) (m := n * size) (n := size)
      rwa [Nat.zero_add] at happend
    rw [List.range_succ, List.map_append, List.flatten_append, ih, Nat.succ_mul, ← hsplit,
      List.map_append, List.map_singleton, List.flatten_singleton, chunk]

end StreamKey

namespace Generator

/-! ## Calls -/

/-- What a generator can be asked for. -/
inductive Call where
  | string
  | value (t : Ty)

/-- How many strings are drawn for a call. -/
def Call.stringCount : Call → ℕ
  | .string => 1
  | .value t => t.stringLeaves

/-- The strings that a call results in, and the generator after it. -/
def Call.draw : Call → Generator → List String × Generator
  | .string, g => ([g.randomString.1], g.randomString.2)
  | .value t, g => ((generate t g).1.strings, (generate t g).2)

/-- The strings that calls result in, one after the other, and the generator after them. -/
def draw : List Call → Generator → List String × Generator
  | [], g => ([], g)
  | call :: rest, g =>
    let first := call.draw g
    let others := draw rest first.2
    (first.1 ++ others.1, others.2)

/-- How many strings are drawn for calls. -/
def stringCount (calls : List Call) : ℕ := (calls.map Call.stringCount).sum

/-- A call draws the next random strings. -/
theorem Call.draw_eq_randomStrings (call : Call) (g : Generator) :
    call.draw g = randomStrings call.stringCount g := by
  cases call with
  | string => rfl
  | value t => exact generate_draws t g

/-- **Calls draw successive random strings**, whatever they are. -/
theorem draw_eq_randomStrings (calls : List Call) (g : Generator) :
    draw calls g = randomStrings (stringCount calls) g := by
  induction calls generalizing g with
  | nil => rfl
  | cons call rest ih =>
    have hcount : stringCount (call :: rest) = call.stringCount + stringCount rest := rfl
    rw [hcount, randomStrings_add, draw, Call.draw_eq_randomStrings, ih]

/-! ## Chunks -/

/-- Random strings are the parts of the text that come next. -/
theorem randomStrings_place (key : StreamKey) (size n k : ℕ) :
    randomStrings n ⟨key, key.place (k * size), size⟩ =
      ((List.range' k n).map fun i => String.ofList (key.chunk size i),
        ⟨key, key.place ((k + n) * size), size⟩) := by
  induction n generalizing k with
  | zero => rfl
  | succ n ih =>
    have hfirst : randomString ⟨key, key.place (k * size), size⟩ =
        (String.ofList (key.chunk size k), ⟨key, key.place ((k + 1) * size), size⟩) := by
      rw [randomString, StreamKey.take_place, Nat.succ_mul]
      rfl
    rw [randomStrings, hfirst, ih, List.range'_succ, List.map_cons, Nat.add_right_comm,
      Nat.add_assoc]

/-- The strings that calls draw from a fresh generator with a seed. -/
def drawn (entropy : StreamKey) (seed : UInt64) (length : ℕ) (calls : List Call) : List String :=
  (draw calls (ofSettings entropy ⟨some seed, length⟩)).1

/-- They are the first parts of the text of the seed. -/
theorem drawn_eq_chunks (entropy : StreamKey) (seed : UInt64) (length : ℕ) (calls : List Call) :
    drawn entropy seed length calls = (List.range (stringCount calls)).map fun k =>
      String.ofList ((StreamKey.ofSeed seed).chunk (max length 1) k) := by
  have hstrings := randomStrings_place (StreamKey.ofSeed seed) (max length 1) (stringCount calls) 0
  rw [Nat.zero_mul] at hstrings
  rw [drawn, draw_eq_randomStrings, List.range_eq_range']
  exact congrArg Prod.fst hstrings

/-- Put together they are the beginning of the text. -/
theorem toList_join_drawn (entropy : StreamKey) (seed : UInt64) (length : ℕ) (calls : List Call) :
    (String.join (drawn entropy seed length calls)).toList =
      (List.range (stringCount calls * max length 1)).map (StreamKey.ofSeed seed).text := by
  rw [drawn_eq_chunks, ← StreamKey.flatten_chunks, String.toList_join, List.flatMap_def,
    List.map_map]
  simp [Function.comp_def]

/-- **Strings are the parts of one text.** A seed stands for one text of letters and digits; of a
fresh generator with this seed, the strings that are drawn by any calls are the parts of this text,
one after the other and all of the length that is set, or of one character if that is none. So
generators of one seed spell the same text, as far as they go, however long their strings are. -/
theorem strings_spell_text (seed : UInt64) :
    (∀ i, (StreamKey.ofSeed seed).text i ∈ StreamKey.charset) ∧
      (∀ (entropy : StreamKey) (length : ℕ) (calls : List Call),
        drawn entropy seed length calls = ((List.range (stringCount calls)).map fun k =>
          String.ofList ((StreamKey.ofSeed seed).chunk (max length 1) k)) ∧
        (drawn entropy seed length calls).map String.length =
          List.replicate (stringCount calls) (max length 1)) ∧
      ∀ (entropy : StreamKey) (length : ℕ) (calls : List Call) (other : StreamKey)
        (otherLength : ℕ) (otherCalls : List Call),
        (String.join (drawn entropy seed length calls)).toList <+:
            (String.join (drawn other seed otherLength otherCalls)).toList ∨
          (String.join (drawn other seed otherLength otherCalls)).toList <+:
            (String.join (drawn entropy seed length calls)).toList := by
  refine ⟨(StreamKey.ofSeed seed).text_mem_charset, fun entropy length calls => ⟨?chunks, ?lengths⟩,
    fun entropy length calls other otherLength otherCalls => ?spelled⟩
  case chunks => exact drawn_eq_chunks entropy seed length calls
  case lengths =>
    rw [drawn_eq_chunks, List.map_map, List.eq_replicate_iff]
    simp [StreamKey.chunk]
  case spelled =>
    have hbeginning : ∀ {m n : ℕ}, m ≤ n → (List.range m).map (StreamKey.ofSeed seed).text <+:
        (List.range n).map (StreamKey.ofSeed seed).text := by
      intro m n hmn
      have htake : List.range m = (List.range n).take m := by
        rw [List.take_range, Nat.min_eq_left hmn]
      exact (htake ▸ List.take_prefix m (List.range n)).map _
    rw [toList_join_drawn, toList_join_drawn]
    exact (Nat.le_total _ _).imp hbeginning hbeginning

end Generator

end ProviderMock
