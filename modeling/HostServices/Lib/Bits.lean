import Mathlib.Data.Nat.BitIndices
import Mathlib.Data.Nat.Bitwise
import HostServices.Lib.Bytes

/-!
# Bitmaps

Numbers in little-endian order, and the bits that are set in a word. A loop that
tests every position of a word finds the positions in `Nat.bitIndices`.
-/

namespace HostServices.Lib

/-- The number a byte string is in little-endian order. -/
def leNat (bytes : List UInt8) : Nat := bytes.foldr (fun b n => b.toNat + 256 * n) 0

/-- `count_ones` of a word of `width` bits. -/
def countOnes (width n : Nat) : Nat := (List.range width).countP n.testBit

end HostServices.Lib
