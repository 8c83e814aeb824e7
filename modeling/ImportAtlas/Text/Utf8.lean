/-
# ImportAtlas.Text.Utf8 -- bytes as text

Bytes are cut into pieces: the well formed sequences of one to four bytes, and between them the longest
beginnings of one that break off. A strict reading refuses a text with a broken piece, a lenient one
leaves such pieces out.
-/

namespace ImportAtlas.Text.Utf8

/-- Reads the remaining bytes of a sequence. The next one lies between `lo` and `hi`, the others are
any continuation bytes; a byte that does not fit stays in the rest. -/
def complete : Nat → Nat → Nat → Nat → List UInt8 → Option Char × List UInt8
  | 0, _, _, acc, rest => (some (Char.ofNat acc), rest)
  | _ + 1, _, _, _, [] => (none, [])
  | missing + 1, lo, hi, acc, b :: rest =>
    if lo ≤ b.toNat ∧ b.toNat ≤ hi then
      complete missing 0x80 0xBF (acc * 64 + b.toNat % 64) rest
    else (none, b :: rest)

/-- The piece that starts with a given byte, and the bytes behind it. -/
def piece (b : UInt8) (rest : List UInt8) : Option Char × List UInt8 :=
  let n := b.toNat
  if n < 0x80 then (some (Char.ofNat n), rest)
  else if n < 0xC2 then (none, rest)
  else if n < 0xE0 then complete 1 0x80 0xBF (n % 32) rest
  else if n = 0xE0 then complete 2 0xA0 0xBF 0 rest
  else if n = 0xED then complete 2 0x80 0x9F 13 rest
  else if n < 0xF0 then complete 2 0x80 0xBF (n % 16) rest
  else if n = 0xF0 then complete 3 0x90 0xBF 0 rest
  else if n < 0xF4 then complete 3 0x80 0xBF (n % 8) rest
  else if n = 0xF4 then complete 3 0x80 0x8F 4 rest
  else (none, rest)

theorem length_complete_le (missing lo hi acc : Nat) (rest : List UInt8) :
    (complete missing lo hi acc rest).2.length ≤ rest.length := by
  induction missing generalizing lo hi acc rest with
  | zero => simp [complete]
  | succ missing ih =>
    cases rest with
    | nil => simp [complete]
    | cons b rest =>
      rw [complete]
      split
      · have := ih 0x80 0xBF (acc * 64 + b.toNat % 64) rest
        simp only [List.length_cons]
        omega
      · simp

theorem length_piece_le (b : UInt8) (rest : List UInt8) : (piece b rest).2.length ≤ rest.length := by
  unfold piece
  dsimp only
  repeat' split
  all_goals first | exact Nat.le_refl _ | exact length_complete_le ..

/-- The pieces of a byte sequence, a broken one as none. -/
def pieces : List UInt8 → List (Option Char)
  | [] => []
  | b :: rest => (piece b rest).1 :: pieces (piece b rest).2
termination_by bytes => bytes.length
decreasing_by
  have := length_piece_le b rest
  simp only [List.length_cons]
  omega

/-- The text of well formed bytes. -/
def decode? (bytes : List UInt8) : Option (List Char) := (pieces bytes).mapM id

/-- The text of the well formed pieces. -/
def decodeLenient (bytes : List UInt8) : List Char := (pieces bytes).filterMap id

/-- The bytes of a text. -/
def encode (text : String) : List UInt8 := text.toUTF8.toList

end ImportAtlas.Text.Utf8
