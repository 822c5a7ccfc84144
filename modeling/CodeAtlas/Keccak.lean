import CodeAtlas.Hex
import CodeAtlas.Text.Utf8

/-! The Keccak-256 hash, and the names that compilers derive from it. -/
namespace CodeAtlas.Keccak

/-- Five rows of five lanes; lane `(x, y)` stands at `x + 5 * y`. -/
abbrev State := Vector UInt64 25

/-- The lane of a column and a row, both counted modulo five. -/
def lane (s : State) (x y : Nat) : UInt64 :=
  s.get ⟨x % 5 + 5 * (y % 5), by omega⟩

def tabulate (f : Nat → Nat → UInt64) : State :=
  Vector.ofFn fun i => f (i.val % 5) (i.val / 5)

/-- A word turned left by a number of bits. -/
def rotate (w : UInt64) (n : Nat) : UInt64 :=
  (w <<< UInt64.ofNat n) ||| (w >>> UInt64.ofNat (64 - n))

/-- By how many bits each lane is turned. -/
def turns : Vector Nat 25 :=
  #v[0, 1, 62, 28, 27, 36, 44, 6, 55, 20, 3, 10, 43, 25, 39, 41, 45, 15, 21, 8, 18, 2, 61, 56, 14]

/-- What each of the 24 rounds adds to the first lane. -/
def roundConstants : List UInt64 :=
  [0x0000000000000001, 0x0000000000008082, 0x800000000000808a, 0x8000000080008000,
   0x000000000000808b, 0x0000000080000001, 0x8000000080008081, 0x8000000000008009,
   0x000000000000008a, 0x0000000000000088, 0x0000000080008009, 0x000000008000000a,
   0x000000008000808b, 0x800000000000008b, 0x8000000000008089, 0x8000000000008003,
   0x8000000000008002, 0x8000000000000080, 0x000000000000800a, 0x800000008000000a,
   0x8000000080008081, 0x8000000000008080, 0x0000000080000001, 0x8000000080008008]

def parity (s : State) (x : Nat) : UInt64 :=
  lane s x 0 ^^^ lane s x 1 ^^^ lane s x 2 ^^^ lane s x 3 ^^^ lane s x 4

/-- Adds the parities of two neighbouring columns to every lane. -/
def theta (s : State) : State :=
  let parities : Vector UInt64 5 := Vector.ofFn fun x => parity s x.val
  let at5 (x : Nat) : UInt64 := parities.get ⟨x % 5, by omega⟩
  tabulate fun x y => lane s x y ^^^ at5 (x + 4) ^^^ rotate (at5 (x + 1)) 1

/-- Turns the lanes and moves them. -/
def rhoPi (s : State) : State :=
  tabulate fun x y =>
    rotate (lane s (x + 3 * y) x) (turns.get ⟨(x + 3 * y) % 5 + 5 * (x % 5), by omega⟩)

/-- Mixes each lane with the next two of its row. -/
def chi (s : State) : State :=
  tabulate fun x y => lane s x y ^^^ (~~~ lane s (x + 1) y &&& lane s (x + 2) y)

/-- Adds a constant to the first lane. -/
def iota (constant : UInt64) (s : State) : State :=
  tabulate fun x y => if x = 0 ∧ y = 0 then lane s x y ^^^ constant else lane s x y

/-- The permutation: 24 rounds. -/
def permute (s : State) : State :=
  roundConstants.foldl (fun s constant => iota constant (chi (rhoPi (theta s)))) s

/-- How many bytes one block holds. -/
def rate : Nat := 136

/-- Fills a message up to whole blocks: a one bit right after it, a one bit at the very end. -/
def pad (message : List UInt8) : List UInt8 :=
  match rate - message.length % rate with
  | 0 | 1 => message ++ [0x81]
  | n + 2 => message ++ 0x01 :: List.replicate n 0 ++ [0x80]

/-- Eight bytes as a word, the least significant first. -/
def wordOf (bytes : List UInt8) : UInt64 :=
  bytes.foldr (fun b w => (w <<< 8) ||| b.toUInt64) 0

/-- A word as eight bytes, the least significant first. -/
def bytesOf (w : UInt64) : List UInt8 :=
  (List.range 8).map fun i => (w >>> UInt64.ofNat (8 * i)).toUInt8

def absorb (s : State) (block : List UInt8) : State :=
  permute <| tabulate fun x y =>
    let i := x + 5 * y
    if 8 * i < rate then lane s x y ^^^ wordOf ((block.drop (8 * i)).take 8) else lane s x y

def blocks (padded : List UInt8) : List (List UInt8) :=
  (List.range (padded.length / rate)).map fun i => (padded.drop (rate * i)).take rate

/-- The 32 bytes of the hash. -/
def hash (message : List UInt8) : List UInt8 :=
  let s := (blocks (pad message)).foldl absorb (Vector.replicate 25 0)
  (List.range 4).flatMap fun x => bytesOf (lane s x 0)

def hashText (s : String) : List UInt8 := hash (Text.bytes s)

/-- The four bytes by which a call names a function. -/
def selector (signature : String) : List UInt8 := (hashText signature).take 4

/-- The 34 digits by which unlinked code names a library. -/
def placeholder (name : String) : String :=
  String.ofList ((Hex.encode (hashText name)).toList.take 34)

end CodeAtlas.Keccak
