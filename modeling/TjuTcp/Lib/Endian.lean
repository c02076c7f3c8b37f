/-
  Big-endian fields of byte buffers.

  `be16`, `be32` lay a word out in network byte order; `rd8`, `rd16`, `rd32`
  read a field at an offset.  A field that was laid out at an offset is read
  back from it (`rd16_be16`, `rd32_be32`), whatever stands before and behind;
  and a field that was read is laid out as the bytes it was read from
  (`be16_rd16`, `be32_rd32`).
-/
import Mathlib

namespace Lib

/-- A byte. -/
abbrev Byte := BitVec 8

/-- The two bytes of `x`, the high one first. -/
def be16 (x : BitVec 16) : List Byte := [x.extractLsb' 8 8, x.extractLsb' 0 8]

/-- The four bytes of `x`, the highest one first. -/
def be32 (x : BitVec 32) : List Byte :=
  [x.extractLsb' 24 8, x.extractLsb' 16 8, x.extractLsb' 8 8, x.extractLsb' 0 8]

/-- The byte at offset `off`. -/
def rd8 (b : List Byte) (off : ℕ) : Byte := b[off]?.getD 0

/-- The 16-bit field at offset `off`. -/
def rd16 (b : List Byte) (off : ℕ) : BitVec 16 := rd8 b off ++ rd8 b (off + 1)

/-- The 32-bit field at offset `off`. -/
def rd32 (b : List Byte) (off : ℕ) : BitVec 32 :=
  (rd8 b off ++ rd8 b (off + 1) : BitVec 16) ++ (rd8 b (off + 2) ++ rd8 b (off + 3) : BitVec 16)

@[simp] theorem be16_length (x : BitVec 16) : (be16 x).length = 2 := rfl

@[simp] theorem be32_length (x : BitVec 32) : (be32 x).length = 4 := rfl

theorem join16 (x : BitVec 16) : (x.extractLsb' 8 8 ++ x.extractLsb' 0 8 : BitVec 16) = x :=
  BitVec.extractLsb'_append_extractLsb'

theorem join32 (x : BitVec 32) :
    ((x.extractLsb' 24 8 ++ x.extractLsb' 16 8 : BitVec 16) ++
      (x.extractLsb' 8 8 ++ x.extractLsb' 0 8 : BitVec 16) : BitVec 32) = x := by
  have hhi : (x.extractLsb' 24 8 ++ x.extractLsb' 16 8 : BitVec 16) = x.extractLsb' 16 16 :=
    BitVec.extractLsb'_append_extractLsb'_eq_extractLsb' rfl
  have hlo : (x.extractLsb' 8 8 ++ x.extractLsb' 0 8 : BitVec 16) = x.extractLsb' 0 16 :=
    BitVec.extractLsb'_append_extractLsb'_eq_extractLsb' rfl
  rw [hhi, hlo]
  exact BitVec.extractLsb'_append_extractLsb'

theorem rd8_append_right {b c : List Byte} {off : ℕ} (h : b.length ≤ off) :
    rd8 (b ++ c) off = rd8 c (off - b.length) := by
  simp [rd8, List.getElem?_append_right h]

/-- **A 16-bit field is read back** where it was laid out. -/
theorem rd16_be16 (b c : List Byte) (x : BitVec 16) : rd16 (b ++ (be16 x ++ c)) b.length = x := by
  simp only [rd16, rd8_append_right (le_refl b.length),
    rd8_append_right (Nat.le_succ b.length), be16]
  simpa [rd8] using join16 x

/-- **A 32-bit field is read back** where it was laid out. -/
theorem rd32_be32 (b c : List Byte) (x : BitVec 32) : rd32 (b ++ (be32 x ++ c)) b.length = x := by
  simp only [rd32, rd8_append_right (le_refl b.length),
    rd8_append_right (show b.length ≤ b.length + 1 by omega),
    rd8_append_right (show b.length ≤ b.length + 2 by omega),
    rd8_append_right (show b.length ≤ b.length + 3 by omega), be32]
  simpa [rd8] using join32 x

theorem be16_append (x y : Byte) : be16 (x ++ y) = [x, y] :=
  congrArg₂ (fun a b => [a, b]) BitVec.extractLsb'_append_eq_left BitVec.extractLsb'_append_eq_right

theorem be32_append (x y : BitVec 16) : be32 (x ++ y) = be16 x ++ be16 y := by
  have h3 : (x ++ y : BitVec (16 + 16)).extractLsb' 24 8 = x.extractLsb' 8 8 :=
    BitVec.extractLsb'_append_eq_of_le (by decide)
  have h2 : (x ++ y : BitVec (16 + 16)).extractLsb' 16 8 = x.extractLsb' 0 8 :=
    BitVec.extractLsb'_append_eq_of_le (by decide)
  have h1 : (x ++ y : BitVec (16 + 16)).extractLsb' 8 8 = y.extractLsb' 8 8 :=
    BitVec.extractLsb'_append_eq_of_add_le (by decide)
  have h0 : (x ++ y : BitVec (16 + 16)).extractLsb' 0 8 = y.extractLsb' 0 8 :=
    BitVec.extractLsb'_append_eq_of_add_le (by decide)
  show [_, _, _, _] = [_, _, _, _]
  rw [h3, h2, h1, h0]

/-- **A 16-bit field is laid out** as it was read. -/
theorem be16_rd16 (b : List Byte) (off : ℕ) : be16 (rd16 b off) = [rd8 b off, rd8 b (off + 1)] :=
  be16_append _ _

/-- **A 32-bit field is laid out** as it was read. -/
theorem be32_rd32 (b : List Byte) (off : ℕ) :
    be32 (rd32 b off) = [rd8 b off, rd8 b (off + 1), rd8 b (off + 2), rd8 b (off + 3)] := by
  rw [rd32, be32_append, be16_append, be16_append]
  rfl

/-- The first bytes of a buffer, one by one. -/
theorem take_eq_rd8 {b : List Byte} {n : ℕ} (h : n ≤ b.length) :
    b.take n = (List.range n).map (rd8 b) := by
  apply List.ext_getElem
  · simp [h]
  · intro i h1 h2
    have hi : i < b.length := by simp at h1; omega
    simp [rd8, List.getElem?_eq_getElem hi]

end Lib
