import Xps.Number.Power

/-!
# Canonical codes

Symbols are written in words of bits. The words of a length follow each other in order, and so do
the lengths, so that a code is known by how many words there are of each length and by its symbols.
-/

namespace Xps

/-- How many words there are of each length from 1 on, and the symbols in order. -/
structure HuffmanCode where
  counts : List Nat
  symbols : Array Nat

namespace HuffmanCode

/-- The code of a list of word lengths, one for each symbol. Zero stands for an unused symbol. -/
def ofLengths (lengths : List Nat) : HuffmanCode :=
  let indexed := lengths.zipIdx
  { counts := (List.range 15).map fun n => lengths.count (n + 1)
    symbols := ((List.range 15).flatMap fun n =>
      (indexed.filter fun entry => entry.1 == n + 1).map Prod.snd).toArray }

/-- The share of the words of the greatest length that the words of a list of counts take up. -/
def wordsUsed (counts : List Nat) : Nat := counts.foldl (fun used count => 2 * used + count) 0

/-- No word is left over and none is used twice: the words divide the whole space of bits. -/
def IsComplete (c : HuffmanCode) : Prop := wordsUsed c.counts = 2 ^ c.counts.length

instance (c : HuffmanCode) : Decidable c.IsComplete := by unfold IsComplete; infer_instance

/-- There is a single word, and it has one bit. -/
def IsSingle (c : HuffmanCode) : Prop := c.counts.head? = some 1 ∧ c.symbols.size = 1

instance (c : HuffmanCode) : Decidable c.IsSingle := by unfold IsSingle; infer_instance

/-- A code of one word for each half of the bits is complete. -/
example : (ofLengths [1, 2, 2]).IsComplete := by decide

example : ¬ (ofLengths [1, 2]).IsComplete := by decide

variable {ρ : Type}

/--
Follows the words of growing length until one of them is complete. `first` is the first word of a
length and `index` the place of its symbol.
-/
def follow (bit? : ρ → Option (Nat × ρ)) (symbols : Array Nat) :
    List Nat → Nat → Nat → Nat → ρ → Option (Nat × ρ)
  | [], _, _, _, _ => none
  | count :: counts, word, first, index, r => do
    let (bit, r) ← bit? r
    let word := word + bit
    if word < first + count then
      let symbol ← symbols[index + (word - first)]?
      return (symbol, r)
    else follow bit? symbols counts (2 * word) (2 * (first + count)) (index + count) r

/-- Reads a symbol bit by bit. -/
def symbol? (c : HuffmanCode) (bit? : ρ → Option (Nat × ρ)) (r : ρ) : Option (Nat × ρ) :=
  follow bit? c.symbols c.counts 0 0 0 r

end HuffmanCode

end Xps
