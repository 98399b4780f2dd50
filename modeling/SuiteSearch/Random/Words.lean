import SuiteSearch.Random.Standard

/-!
# Known words

The words of the standard generator, or words that are given in advance. Those are followed by the
words of a mixing generator that counts its state up.
-/

namespace SuiteSearch.Random

structure Scripted where
  words : List UInt64
  state : UInt64

namespace Scripted

/-- The word that a state of the counter is mixed to. -/
def mix (s : UInt64) : UInt64 :=
  let s := (s ^^^ (s >>> 30)) * 0xBF58476D1CE4E5B9
  let s := (s ^^^ (s >>> 27)) * 0x94D049BB133111EB
  s ^^^ (s >>> 31)

def next64 (g : Scripted) : UInt64 × Scripted :=
  match g.words with
  | x :: rest => (x, { g with words := rest })
  | [] =>
    let state := g.state + 0x9E3779B97F4A7C15
    (mix state, { g with state := state })

/-- The lower half of a word. -/
def next32 (g : Scripted) : UInt32 × Scripted :=
  let (x, g) := g.next64
  (x.toUInt32, g)

instance : WordSource Scripted := ⟨next32, next64⟩

end Scripted

inductive Words
  | standard (g : Standard)
  | scripted (g : Scripted)

namespace Words

/-- The words of the standard generator from a seed. -/
def ofSeed (seed : Nat) : Words := .standard (.ofSeed seed.toUInt64)

/-- Words that are given, and then those of the mixing generator. -/
def ofList (words : List Nat) (state : Nat) : Words :=
  .scripted ⟨words.map (·.toUInt64), state.toUInt64⟩

instance : WordSource Words where
  next32
    | standard g => let (x, g) := g.next32; (x, .standard g)
    | scripted g => let (x, g) := g.next32; (x, .scripted g)
  next64
    | standard g => let (x, g) := g.next64; (x, .standard g)
    | scripted g => let (x, g) := g.next64; (x, .scripted g)

end Words

end SuiteSearch.Random
