import RewardPool.Bytes

/-!
The 256-bit hash function of the execution chain: a sponge of rate 136 over the permutation of
twenty-five 64-bit lanes, with the padding that starts with a one bit. Lane `x + 5 * y` stands in
column `x` of row `y`.
-/
namespace RewardPool.Keccak

abbrev Lanes := Array UInt64

def lane (a : Lanes) (i : Nat) : UInt64 := a.getD i 0

def rotate (v distance : UInt64) : UInt64 := (v <<< distance) ||| (v >>> (64 - distance))

def rotations : Array UInt64 :=
  #[0, 1, 62, 28, 27, 36, 44, 6, 55, 20, 3, 10, 43, 25, 39, 41, 45, 15, 21, 8, 18, 2, 61, 56, 14]

def roundConstants : List UInt64 :=
  [0x0000000000000001, 0x0000000000008082, 0x800000000000808a, 0x8000000080008000,
   0x000000000000808b, 0x0000000080000001, 0x8000000080008081, 0x8000000000008009,
   0x000000000000008a, 0x0000000000000088, 0x0000000080008009, 0x000000008000000a,
   0x000000008000808b, 0x800000000000008b, 0x8000000000008089, 0x8000000000008003,
   0x8000000000008002, 0x8000000000000080, 0x000000000000800a, 0x800000008000000a,
   0x8000000080008081, 0x8000000000008080, 0x0000000080000001, 0x8000000080008008]

/-- Lanes given by a function of their position. -/
def tabulate (f : Nat → UInt64) : Lanes := Array.ofFn fun i : Fin 25 => f i.val

/-- Adds to each lane the parities of two columns beside it. -/
def mixColumns (a : Lanes) : Lanes :=
  let parity := Array.ofFn fun x : Fin 5 =>
    lane a x.val ^^^ lane a (x.val + 5) ^^^ lane a (x.val + 10) ^^^ lane a (x.val + 15)
      ^^^ lane a (x.val + 20)
  let change := Array.ofFn fun x : Fin 5 =>
    lane parity ((x.val + 4) % 5) ^^^ rotate (lane parity ((x.val + 1) % 5)) 1
  tabulate fun i => lane a i ^^^ lane change (i % 5)

/-- Rotates each lane by its own distance and moves it to its new place. -/
def scatter (a : Lanes) : Lanes :=
  tabulate fun i =>
    let source := (i % 5 + 3 * (i / 5)) % 5 + 5 * (i % 5)
    rotate (lane a source) (lane rotations source)

/-- Combines each lane with the two that follow it in its row. -/
def mixRows (a : Lanes) : Lanes :=
  tabulate fun i =>
    let row := 5 * (i / 5)
    lane a i ^^^ ((~~~ lane a (row + (i + 1) % 5)) &&& lane a (row + (i + 2) % 5))

def round (a : Lanes) (constant : UInt64) : Lanes :=
  (mixRows (scatter (mixColumns a))).modify 0 (· ^^^ constant)

def permute (a : Lanes) : Lanes := roundConstants.foldl round a

def rate : Nat := 136

/-- Fills a message up to a multiple of the rate. -/
def pad (message : List UInt8) : List UInt8 :=
  let missing := rate - message.length % rate
  if missing = 1 then message ++ [0x81]
  else message ++ 0x01 :: List.replicate (missing - 2) 0x00 ++ [0x80]

/-- The number that at most eight bytes spell, least significant first. -/
def wordOfBytes (bytes : List UInt8) : UInt64 :=
  bytes.foldr (fun b w => (w <<< 8) ||| b.toUInt64) 0

def bytesOfWord (w : UInt64) : List UInt8 :=
  (List.range 8).map fun i => (w >>> (8 * UInt64.ofNat i)).toUInt8

def absorb (a : Lanes) (block : List UInt8) : Lanes :=
  let words := (Array.range 17).map fun i => wordOfBytes ((block.drop (8 * i)).take 8)
  permute (tabulate fun i => lane a i ^^^ lane words i)

def blocks (message : List UInt8) : List (List UInt8) :=
  let padded := pad message
  (List.range (padded.length / rate)).map fun i => (padded.drop (rate * i)).take rate

def digest (message : List UInt8) : Hash :=
  let final := (blocks message).foldl absorb (tabulate fun _ => 0)
  FixedBytes.ofBytes ((List.range 4).flatMap fun i => bytesOfWord (lane final i))

end RewardPool.Keccak
