import SuiteSearch.Random.Draw

/-!
# The standard generator

A stream cipher with twelve rounds, keyed by expanding a seed of 64 bits. Four consecutive blocks
are made at a time and given out word by word.

    Standard.ofSeed 0 starts with 13486662071293341567, 14267822071968393595
-/

namespace SuiteSearch.Random

/-! ## Blocks -/

/-- Four words that are worked on side by side. -/
structure Row where
  a : UInt32
  b : UInt32
  c : UInt32
  d : UInt32

namespace Row

def map₂ (f : UInt32 → UInt32 → UInt32) (x y : Row) : Row :=
  ⟨f x.a y.a, f x.b y.b, f x.c y.c, f x.d y.d⟩

def add : Row → Row → Row := map₂ (· + ·)

def xor : Row → Row → Row := map₂ (· ^^^ ·)

/-- A word with its bits moved up, and around. -/
def rotateWord (n x : UInt32) : UInt32 := x <<< n ||| x >>> (32 - n)

/-- Every word with its bits moved up, and around. -/
def rotate (n : UInt32) (x : Row) : Row :=
  ⟨rotateWord n x.a, rotateWord n x.b, rotateWord n x.c, rotateWord n x.d⟩

/-- The words one place on. -/
def turn (x : Row) : Row := ⟨x.b, x.c, x.d, x.a⟩

def toList (x : Row) : List UInt32 := [x.a, x.b, x.c, x.d]

end Row

/-- The four rows of a block. -/
structure Block where
  w : Row
  x : Row
  y : Row
  z : Row

namespace Block

/-- A quarter round on every column. -/
def quarterRound (s : Block) : Block :=
  let w := s.w.add s.x
  let z := (s.z.xor w).rotate 16
  let y := s.y.add z
  let x := (s.x.xor y).rotate 12
  let w := w.add x
  let z := (z.xor w).rotate 8
  let y := y.add z
  let x := (x.xor y).rotate 7
  ⟨w, x, y, z⟩

/-- Moves the diagonals into the columns. -/
def skew (s : Block) : Block := ⟨s.w, s.x.turn, s.y.turn.turn, s.z.turn.turn.turn⟩

/-- Moves the diagonals back. -/
def unskew (s : Block) : Block := ⟨s.w, s.x.turn.turn.turn, s.y.turn.turn, s.z.turn⟩

/-- A round on the columns and a round on the diagonals. -/
def doubleRound (s : Block) : Block := s.quarterRound.skew.quarterRound.unskew

def rounds : Nat → Block → Block
  | 0, s => s
  | n + 1, s => rounds n s.doubleRound

/-- The words of the block that starts from `s`. -/
def output (s : Block) : List UInt32 :=
  let t := rounds 6 s
  (s.w.add t.w).toList ++ (s.x.add t.x).toList ++ (s.y.add t.y).toList ++ (s.z.add t.z).toList

end Block

/-! ## The generator -/

/-- The key, the number of the next block, and the words made but not given out. -/
structure Standard where
  low : Row
  high : Row
  counter : UInt64
  buffer : List UInt32

namespace Standard

/-- The words of one block. -/
def block (g : Standard) (counter : UInt64) : List UInt32 :=
  Block.output ⟨⟨0x61707865, 0x3320646e, 0x79622d32, 0x6b206574⟩, g.low, g.high,
    ⟨counter.toUInt32, (counter >>> 32).toUInt32, 0, 0⟩⟩

/-- Makes the next four blocks. -/
def refill (g : Standard) : Standard :=
  { g with
    counter := g.counter + 4
    buffer := g.block g.counter ++ g.block (g.counter + 1) ++ g.block (g.counter + 2)
      ++ g.block (g.counter + 3) }

/-- One step of the seed expansion. -/
def seedStep (s : UInt64) : UInt64 := s * 6364136223846793005 + 11634580027462260723

/-- The word that a state of the seed expansion stands for. -/
def seedWord (s : UInt64) : UInt32 :=
  let x := (((s >>> 18) ^^^ s) >>> 27).toUInt32
  let n := (s >>> 59).toUInt32
  x >>> n ||| x <<< ((32 - n) % 32)

/-- The key words of a seed. -/
def seedWords : Nat → UInt64 → List UInt32
  | 0, _ => []
  | n + 1, s => seedWord (seedStep s) :: seedWords n (seedStep s)

/-- The generator of a seed. -/
def ofSeed (seed : UInt64) : Standard :=
  match seedWords 8 seed with
  | [a, b, c, d, e, f, g, h] => ⟨⟨a, b, c, d⟩, ⟨e, f, g, h⟩, 0, []⟩
  | _ => ⟨⟨0, 0, 0, 0⟩, ⟨0, 0, 0, 0⟩, 0, []⟩

/-- The next word. -/
def next32 (g : Standard) : UInt32 × Standard :=
  match g.buffer with
  | x :: rest => (x, { g with buffer := rest })
  | [] =>
    match g.refill.buffer with
    | x :: rest => (x, { g.refill with buffer := rest })
    | [] => (0, g)

/-- The next two words, the low one first. -/
def next64 (g : Standard) : UInt64 × Standard :=
  let (low, g) := g.next32
  let (high, g) := g.next32
  (high.toUInt64 <<< 32 ||| low.toUInt64, g)

instance : WordSource Standard := ⟨next32, next64⟩

end Standard

end SuiteSearch.Random
