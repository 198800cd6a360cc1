import Mathlib.Data.Nat.Digits.Defs
import Mathlib.Data.List.TakeDrop

/-!
# SHA-256

The digest of FIPS 180-4 as a function of bytes, with words as natural numbers
below `2 ^ 32`. `withValue` hands on a number that has been computed, so that the
rounds can be evaluated step by step.

`length_hexDigest` says that a digest has sixty-four digits, and `hexDigest_eq` how a
digest is evaluated.
-/

namespace AgentObservability.Foundation.Sha256

/-- Computes a number before it goes on with it. -/
def withValue {α : Type} (n : ℕ) (next : ℕ → α) : α :=
  match n with
  | 0 => next 0
  | m + 1 => next (m + 1)

/-- The rotation of a word to the right. -/
def rotr (x n : ℕ) : ℕ := x >>> n ||| x <<< (32 - n) % 2 ^ 32

/-- The constants of the rounds. -/
def roundConstants : List ℕ :=
  [0x428a2f98, 0x71374491, 0xb5c0fbcf, 0xe9b5dba5, 0x3956c25b, 0x59f111f1, 0x923f82a4, 0xab1c5ed5,
   0xd807aa98, 0x12835b01, 0x243185be, 0x550c7dc3, 0x72be5d74, 0x80deb1fe, 0x9bdc06a7, 0xc19bf174,
   0xe49b69c1, 0xefbe4786, 0x0fc19dc6, 0x240ca1cc, 0x2de92c6f, 0x4a7484aa, 0x5cb0a9dc, 0x76f988da,
   0x983e5152, 0xa831c66d, 0xb00327c8, 0xbf597fc7, 0xc6e00bf3, 0xd5a79147, 0x06ca6351, 0x14292967,
   0x27b70a85, 0x2e1b2138, 0x4d2c6dfc, 0x53380d13, 0x650a7354, 0x766a0abb, 0x81c2c92e, 0x92722c85,
   0xa2bfe8a1, 0xa81a664b, 0xc24b8b70, 0xc76c51a3, 0xd192e819, 0xd6990624, 0xf40e3585, 0x106aa070,
   0x19a4c116, 0x1e376c08, 0x2748774c, 0x34b0bcb5, 0x391c0cb3, 0x4ed8aa4a, 0x5b9cca4f, 0x682e6ff3,
   0x748f82ee, 0x78a5636f, 0x84c87814, 0x8cc70208, 0x90befffa, 0xa4506ceb, 0xbef9a3f7, 0xc67178f2]

/-- The eight words of the state. -/
structure State where
  /-- The first word. -/
  a : ℕ
  /-- The second word. -/
  b : ℕ
  /-- The third word. -/
  c : ℕ
  /-- The fourth word. -/
  d : ℕ
  /-- The fifth word. -/
  e : ℕ
  /-- The sixth word. -/
  f : ℕ
  /-- The seventh word. -/
  g : ℕ
  /-- The eighth word. -/
  h : ℕ

/-- The state before the first block. -/
def State.initial : State :=
  ⟨0x6a09e667, 0xbb67ae85, 0x3c6ef372, 0xa54ff53a, 0x510e527f, 0x9b05688c, 0x1f83d9ab, 0x5be0cd19⟩

/-- One round, given the sum of its constant and its word. -/
def State.round (s : State) (kw : ℕ) : State :=
  withValue ((s.h + (rotr s.e 6 ^^^ rotr s.e 11 ^^^ rotr s.e 25) +
    ((s.e &&& s.f) ^^^ ((2 ^ 32 - 1 - s.e) &&& s.g)) + kw) % 2 ^ 32) fun t₁ =>
  withValue (((rotr s.a 2 ^^^ rotr s.a 13 ^^^ rotr s.a 22) +
    ((s.a &&& s.b) ^^^ (s.a &&& s.c) ^^^ (s.b &&& s.c))) % 2 ^ 32) fun t₂ =>
  withValue ((s.d + t₁) % 2 ^ 32) fun e =>
  withValue ((t₁ + t₂) % 2 ^ 32) fun a =>
  ⟨a, s.a, s.b, s.c, e, s.e, s.f, s.g⟩

/-- The words of the message schedule, the newest first, with so many more. -/
def schedule : ℕ → List ℕ → List ℕ
  | 0, words => words
  | n + 1, words =>
    let w₂ := words.getD 1 0
    let w₁₅ := words.getD 14 0
    withValue (((rotr w₂ 17 ^^^ rotr w₂ 19 ^^^ w₂ >>> 10) + words.getD 6 0 +
      (rotr w₁₅ 7 ^^^ rotr w₁₅ 18 ^^^ w₁₅ >>> 3) + words.getD 15 0) % 2 ^ 32) fun word =>
    schedule n (word :: words)

/-- The rounds over constants and words. -/
def State.rounds : List ℕ → List ℕ → State → State
  | k :: ks, w :: ws, s => withValue (k + w) fun kw => State.rounds ks ws (s.round kw)
  | _, _, s => s

/-- The state after a block of sixteen words. -/
def State.block (s : State) (words : List ℕ) : State :=
  let t := State.rounds roundConstants (schedule 48 words.reverse).reverse s
  withValue ((s.a + t.a) % 2 ^ 32) fun a => withValue ((s.b + t.b) % 2 ^ 32) fun b =>
  withValue ((s.c + t.c) % 2 ^ 32) fun c => withValue ((s.d + t.d) % 2 ^ 32) fun d =>
  withValue ((s.e + t.e) % 2 ^ 32) fun e => withValue ((s.f + t.f) % 2 ^ 32) fun f =>
  withValue ((s.g + t.g) % 2 ^ 32) fun g => withValue ((s.h + t.h) % 2 ^ 32) fun h =>
  ⟨a, b, c, d, e, f, g, h⟩

/-- The words of big-endian bytes. -/
def wordsOf : List ℕ → List ℕ
  | a :: b :: c :: d :: rest => (((a * 256 + b) * 256 + c) * 256 + d) :: wordsOf rest
  | _ => []

/-- A message with its padding. -/
def padded (message : List ℕ) : List ℕ :=
  message ++ 128 :: List.replicate ((119 - message.length % 64) % 64) 0 ++
    (List.range 8).reverse.map fun i => 8 * message.length / 256 ^ i % 256

/-- The state after so many blocks. -/
def State.blocks : ℕ → List ℕ → State → State
  | 0, _, s => s
  | n + 1, words, s => State.blocks n (words.drop 16) (s.block (words.take 16))

/-- The eight digits of a word. -/
def hexWord (w : ℕ) : List Char := (List.range 8).reverse.map fun i => Nat.digitChar (w / 16 ^ i % 16)

/-- The digest of some bytes, as lower-case hexadecimal text. -/
def hexDigest (message : List UInt8) : String :=
  let words := wordsOf (padded (message.map UInt8.toNat))
  let s := State.blocks (words.length / 16) words State.initial
  String.ofList ([s.a, s.b, s.c, s.d, s.e, s.f, s.g, s.h].flatMap hexWord)

/-- **A digest has sixty-four digits.** -/
theorem length_hexDigest (message : List UInt8) : (hexDigest message).length = 64 := by
  simp [hexDigest, hexWord]

/-! ### Evaluation

The kernel evaluates `digest` faster than `hexDigest`: the words of the state and of the schedule are arguments, and
the operations have no instances to unfold.
-/

theorem withValue_eq {α : Type} (n : ℕ) (next : ℕ → α) : withValue n next = next n := by
  cases n <;> rfl

/-- `rotr`, without its instances. -/
def rotrNat (x i : ℕ) : ℕ := Nat.lor (Nat.shiftRight x i) (Nat.mod (Nat.shiftLeft x (Nat.sub 32 i)) 4294967296)

/-- `State.rounds`, with the state in its words. -/
def roundsOf : List ℕ → List ℕ → ℕ → ℕ → ℕ → ℕ → ℕ → ℕ → ℕ → ℕ → State
  | k :: ks, w :: ws, a, b, c, d, e, f, g, h =>
    withValue (Nat.mod (Nat.add (Nat.add (Nat.add h
      (Nat.xor (Nat.xor (rotrNat e 6) (rotrNat e 11)) (rotrNat e 25)))
      (Nat.xor (Nat.land e f) (Nat.land (Nat.sub 4294967295 e) g))) (Nat.add k w)) 4294967296) fun t₁ =>
    withValue (Nat.mod (Nat.add (Nat.xor (Nat.xor (rotrNat a 2) (rotrNat a 13)) (rotrNat a 22))
      (Nat.xor (Nat.xor (Nat.land a b) (Nat.land a c)) (Nat.land b c))) 4294967296) fun t₂ =>
    withValue (Nat.mod (Nat.add d t₁) 4294967296) fun e' =>
    withValue (Nat.mod (Nat.add t₁ t₂) 4294967296) fun a' =>
    roundsOf ks ws a' a b c e' e f g
  | _, _, a, b, c, d, e, f, g, h => ⟨a, b, c, d, e, f, g, h⟩

theorem rounds_eq (ks : List ℕ) : ∀ (ws : List ℕ) (s : State),
    State.rounds ks ws s = roundsOf ks ws s.a s.b s.c s.d s.e s.f s.g s.h := by
  induction ks with
  | nil => exact fun _ _ => rfl
  | cons k ks ih =>
    intro ws s
    cases ws with
    | nil => rfl
    | cons w ws =>
      simp only [State.rounds, State.round, roundsOf, withValue_eq, ih]
      rfl

/-- `schedule`, with its last sixteen words apart. -/
def scheduleOf : ℕ → (w₀ w₁ w₂ w₃ w₄ w₅ w₆ w₇ w₈ w₉ w₁₀ w₁₁ w₁₂ w₁₃ w₁₄ w₁₅ : ℕ) → List ℕ → List ℕ
  | 0, w₀, w₁, w₂, w₃, w₄, w₅, w₆, w₇, w₈, w₉, w₁₀, w₁₁, w₁₂, w₁₃, w₁₄, w₁₅, words =>
    w₁₅ :: w₁₄ :: w₁₃ :: w₁₂ :: w₁₁ :: w₁₀ :: w₉ :: w₈ :: w₇ :: w₆ :: w₅ :: w₄ :: w₃ :: w₂ :: w₁ :: w₀ :: words
  | n + 1, w₀, w₁, w₂, w₃, w₄, w₅, w₆, w₇, w₈, w₉, w₁₀, w₁₁, w₁₂, w₁₃, w₁₄, w₁₅, words =>
    withValue (Nat.mod (Nat.add (Nat.add (Nat.add
      (Nat.xor (Nat.xor (rotrNat w₁₄ 17) (rotrNat w₁₄ 19)) (Nat.shiftRight w₁₄ 10)) w₉)
      (Nat.xor (Nat.xor (rotrNat w₁ 7) (rotrNat w₁ 18)) (Nat.shiftRight w₁ 3))) w₀) 4294967296) fun word =>
    scheduleOf n w₁ w₂ w₃ w₄ w₅ w₆ w₇ w₈ w₉ w₁₀ w₁₁ w₁₂ w₁₃ w₁₄ w₁₅ word (w₀ :: words)

theorem schedule_eq (n : ℕ) : ∀ (w₀ w₁ w₂ w₃ w₄ w₅ w₆ w₇ w₈ w₉ w₁₀ w₁₁ w₁₂ w₁₃ w₁₄ w₁₅ : ℕ) (words : List ℕ),
    schedule n (w₁₅ :: w₁₄ :: w₁₃ :: w₁₂ :: w₁₁ :: w₁₀ :: w₉ :: w₈ :: w₇ :: w₆ :: w₅ :: w₄ :: w₃ :: w₂ :: w₁ :: w₀ :: words) =
      scheduleOf n w₀ w₁ w₂ w₃ w₄ w₅ w₆ w₇ w₈ w₉ w₁₀ w₁₁ w₁₂ w₁₃ w₁₄ w₁₅ words := by
  induction n with
  | zero =>
    intros
    rw [schedule, scheduleOf]
  | succ n ih =>
    intro w₀ w₁ w₂ w₃ w₄ w₅ w₆ w₇ w₈ w₉ w₁₀ w₁₁ w₁₂ w₁₃ w₁₄ w₁₅ words
    rw [schedule, scheduleOf]
    simp only [withValue_eq, ih]
    rfl

/-- `State.block`, of sixteen words. -/
def blockOf (s : State) : List ℕ → State
  | [w₀, w₁, w₂, w₃, w₄, w₅, w₆, w₇, w₈, w₉, w₁₀, w₁₁, w₁₂, w₁₃, w₁₄, w₁₅] =>
    match roundsOf roundConstants
      (scheduleOf 48 w₀ w₁ w₂ w₃ w₄ w₅ w₆ w₇ w₈ w₉ w₁₀ w₁₁ w₁₂ w₁₃ w₁₄ w₁₅ []).reverse s.a s.b s.c s.d s.e s.f s.g s.h with
    | ⟨ta, tb, tc, td, te, tf, tg, th⟩ =>
      withValue (Nat.mod (Nat.add s.a ta) 4294967296) fun a => withValue (Nat.mod (Nat.add s.b tb) 4294967296) fun b =>
      withValue (Nat.mod (Nat.add s.c tc) 4294967296) fun c => withValue (Nat.mod (Nat.add s.d td) 4294967296) fun d =>
      withValue (Nat.mod (Nat.add s.e te) 4294967296) fun e => withValue (Nat.mod (Nat.add s.f tf) 4294967296) fun f =>
      withValue (Nat.mod (Nat.add s.g tg) 4294967296) fun g => withValue (Nat.mod (Nat.add s.h th) 4294967296) fun h =>
      ⟨a, b, c, d, e, f, g, h⟩
  | words => s.block words

theorem block_eq (s : State) (words : List ℕ) : s.block words = blockOf s words := by
  unfold blockOf
  split
  · rename_i w₀ w₁ w₂ w₃ w₄ w₅ w₆ w₇ w₈ w₉ w₁₀ w₁₁ w₁₂ w₁₃ w₁₄ w₁₅
    have hschedule := schedule_eq 48 w₀ w₁ w₂ w₃ w₄ w₅ w₆ w₇ w₈ w₉ w₁₀ w₁₁ w₁₂ w₁₃ w₁₄ w₁₅ []
    rw [State.block]
    simp only [List.reverse_cons, List.reverse_nil, List.nil_append, List.cons_append, hschedule, rounds_eq, withValue_eq]
    rfl
  · rfl

/-- `State.blocks`. -/
def blocksOf : ℕ → List ℕ → State → State
  | 0, _, s => s
  | n + 1, words, s => blocksOf n (words.drop 16) (blockOf s (words.take 16))

theorem blocks_eq (n : ℕ) : ∀ (words : List ℕ) (s : State), State.blocks n words s = blocksOf n words s := by
  induction n with
  | zero => exact fun _ _ => rfl
  | succ n ih =>
    intro words s
    rw [State.blocks, blocksOf, ih, block_eq]

/-- `hexDigest`, for evaluation. -/
def digest (message : List UInt8) : String :=
  let words := wordsOf (padded (message.map UInt8.toNat))
  let s := blocksOf (words.length / 16) words State.initial
  String.ofList ([s.a, s.b, s.c, s.d, s.e, s.f, s.g, s.h].flatMap hexWord)

theorem hexDigest_eq : hexDigest = digest := by
  funext message
  simp only [hexDigest, digest, blocks_eq]

end AgentObservability.Foundation.Sha256
