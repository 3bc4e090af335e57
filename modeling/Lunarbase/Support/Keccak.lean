import Mathlib.Data.Nat.Notation

/-!
# Support — Keccak

Keccak-256 over byte lists.  A lane is a natural number below `2 ^ 64`; the lane at column `x` and
row `y` is the field number `x + 5 * y` of the state.  The permutation is written out over the
25 lanes, so that a digest can be evaluated inside a proof.
-/

namespace Lunarbase.Keccak

structure State where
  (a0 a1 a2 a3 a4 : ℕ)
  (a5 a6 a7 a8 a9 : ℕ)
  (a10 a11 a12 a13 a14 : ℕ)
  (a15 a16 a17 a18 a19 : ℕ)
  (a20 a21 a22 a23 a24 : ℕ)

/-- Rotation of a 64-bit lane to the left. -/
def rotl (lane amount : ℕ) : ℕ :=
  Nat.lor (Nat.mod (Nat.shiftLeft lane amount) 0x10000000000000000)
    (Nat.shiftRight lane (Nat.sub 64 amount))

/-- `(not b) and c` on 64 bits. -/
def andNot (b c : ℕ) : ℕ := Nat.land (Nat.xor b 0xffffffffffffffff) c

def xor5 (a b c d e : ℕ) : ℕ := Nat.xor a (Nat.xor b (Nat.xor c (Nat.xor d e)))

def theta (s : State) : State :=
  let c0 := xor5 s.a0 s.a5 s.a10 s.a15 s.a20
  let c1 := xor5 s.a1 s.a6 s.a11 s.a16 s.a21
  let c2 := xor5 s.a2 s.a7 s.a12 s.a17 s.a22
  let c3 := xor5 s.a3 s.a8 s.a13 s.a18 s.a23
  let c4 := xor5 s.a4 s.a9 s.a14 s.a19 s.a24
  let d0 := Nat.xor c4 (rotl c1 1)
  let d1 := Nat.xor c0 (rotl c2 1)
  let d2 := Nat.xor c1 (rotl c3 1)
  let d3 := Nat.xor c2 (rotl c4 1)
  let d4 := Nat.xor c3 (rotl c0 1)
  ⟨Nat.xor s.a0 d0, Nat.xor s.a1 d1, Nat.xor s.a2 d2, Nat.xor s.a3 d3, Nat.xor s.a4 d4,
    Nat.xor s.a5 d0, Nat.xor s.a6 d1, Nat.xor s.a7 d2, Nat.xor s.a8 d3, Nat.xor s.a9 d4,
    Nat.xor s.a10 d0, Nat.xor s.a11 d1, Nat.xor s.a12 d2, Nat.xor s.a13 d3, Nat.xor s.a14 d4,
    Nat.xor s.a15 d0, Nat.xor s.a16 d1, Nat.xor s.a17 d2, Nat.xor s.a18 d3, Nat.xor s.a19 d4,
    Nat.xor s.a20 d0, Nat.xor s.a21 d1, Nat.xor s.a22 d2, Nat.xor s.a23 d3, Nat.xor s.a24 d4⟩

/-- Rotation of every lane and its move to column `y` and row `2 x + 3 y`. -/
def rhoPi (s : State) : State :=
  ⟨s.a0, rotl s.a6 44, rotl s.a12 43, rotl s.a18 21, rotl s.a24 14, rotl s.a3 28, rotl s.a9 20,
    rotl s.a10 3, rotl s.a16 45, rotl s.a22 61, rotl s.a1 1, rotl s.a7 6, rotl s.a13 25,
    rotl s.a19 8, rotl s.a20 18, rotl s.a4 27, rotl s.a5 36, rotl s.a11 10, rotl s.a17 15,
    rotl s.a23 56, rotl s.a2 62, rotl s.a8 55, rotl s.a14 39, rotl s.a15 41, rotl s.a21 2⟩

def chiIota (constant : ℕ) (s : State) : State :=
  ⟨Nat.xor constant (Nat.xor s.a0 (andNot s.a1 s.a2)), Nat.xor s.a1 (andNot s.a2 s.a3),
    Nat.xor s.a2 (andNot s.a3 s.a4), Nat.xor s.a3 (andNot s.a4 s.a0),
    Nat.xor s.a4 (andNot s.a0 s.a1), Nat.xor s.a5 (andNot s.a6 s.a7),
    Nat.xor s.a6 (andNot s.a7 s.a8), Nat.xor s.a7 (andNot s.a8 s.a9),
    Nat.xor s.a8 (andNot s.a9 s.a5), Nat.xor s.a9 (andNot s.a5 s.a6),
    Nat.xor s.a10 (andNot s.a11 s.a12), Nat.xor s.a11 (andNot s.a12 s.a13),
    Nat.xor s.a12 (andNot s.a13 s.a14), Nat.xor s.a13 (andNot s.a14 s.a10),
    Nat.xor s.a14 (andNot s.a10 s.a11), Nat.xor s.a15 (andNot s.a16 s.a17),
    Nat.xor s.a16 (andNot s.a17 s.a18), Nat.xor s.a17 (andNot s.a18 s.a19),
    Nat.xor s.a18 (andNot s.a19 s.a15), Nat.xor s.a19 (andNot s.a15 s.a16),
    Nat.xor s.a20 (andNot s.a21 s.a22), Nat.xor s.a21 (andNot s.a22 s.a23),
    Nat.xor s.a22 (andNot s.a23 s.a24), Nat.xor s.a23 (andNot s.a24 s.a20),
    Nat.xor s.a24 (andNot s.a20 s.a21)⟩

def roundConstants : List ℕ :=
  [0x0000000000000001, 0x0000000000008082, 0x800000000000808a, 0x8000000080008000,
    0x000000000000808b, 0x0000000080000001, 0x8000000080008081, 0x8000000000008009,
    0x000000000000008a, 0x0000000000000088, 0x0000000080008009, 0x000000008000000a,
    0x000000008000808b, 0x800000000000008b, 0x8000000000008089, 0x8000000000008003,
    0x8000000000008002, 0x8000000000000080, 0x000000000000800a, 0x800000008000000a,
    0x8000000080008081, 0x8000000000008080, 0x0000000080000001, 0x8000000080008008]

def permute (s : State) : State :=
  roundConstants.foldl (fun s constant => chiIota constant (rhoPi (theta s))) s

/-- Bytes as a number, least significant first. -/
def leNumber : List ℕ → ℕ
  | [] => 0
  | byte :: rest => Nat.add byte (Nat.mul 256 (leNumber rest))

/-- The 17 lanes of a block, exclusive-ored into the state. -/
def absorbBlock (s : State) (block : List ℕ) : State :=
  let word (i : ℕ) : ℕ := leNumber ((block.drop (8 * i)).take 8)
  ⟨Nat.xor s.a0 (word 0), Nat.xor s.a1 (word 1), Nat.xor s.a2 (word 2), Nat.xor s.a3 (word 3),
    Nat.xor s.a4 (word 4), Nat.xor s.a5 (word 5), Nat.xor s.a6 (word 6), Nat.xor s.a7 (word 7),
    Nat.xor s.a8 (word 8), Nat.xor s.a9 (word 9), Nat.xor s.a10 (word 10),
    Nat.xor s.a11 (word 11), Nat.xor s.a12 (word 12), Nat.xor s.a13 (word 13),
    Nat.xor s.a14 (word 14), Nat.xor s.a15 (word 15), Nat.xor s.a16 (word 16), s.a17, s.a18,
    s.a19, s.a20, s.a21, s.a22, s.a23, s.a24⟩

def absorb : ℕ → State → List ℕ → State
  | 0, s, _ => s
  | blocks + 1, s, bytes =>
    absorb blocks (permute (absorbBlock s (bytes.take 136))) (bytes.drop 136)

/-- The message padded with `10*1` to whole blocks of 136 bytes. -/
def pad (bytes : List ℕ) : List ℕ :=
  let missing := 136 - bytes.length % 136
  if missing = 1 then bytes ++ [0x81]
  else bytes ++ 0x01 :: List.replicate (missing - 2) 0 ++ [0x80]

/-- The bytes of a lane, least significant first, as a big-endian number. -/
def swapLane (lane : ℕ) : ℕ :=
  (List.range 8).foldl (fun value i => 256 * value + (lane >>> (8 * i)) % 256) 0

def initial : State := ⟨0, 0, 0, 0, 0, 0, 0, 0, 0, 0, 0, 0, 0, 0, 0, 0, 0, 0, 0, 0, 0, 0, 0, 0, 0⟩

/-- The digest as a big-endian number. -/
def keccak256 (message : List UInt8) : BitVec 256 :=
  let bytes := pad (message.map UInt8.toNat)
  let s := absorb (bytes.length / 136) initial bytes
  BitVec.ofNat 256
    (((swapLane s.a0 <<< 64 + swapLane s.a1) <<< 64 + swapLane s.a2) <<< 64 + swapLane s.a3)

example : keccak256 [] =
    0xc5d2460186f7233c927e7db2dcc703c0e500b653ca82273b7bfad8045d85a470#256 := by decide +kernel

end Lunarbase.Keccak
