import StructuralEdit.Text.Utf8

/-! # Encoding and decoding

Every text is read back from the bytes it is encoded as, and nothing is replaced. The bytes of a
character are read with those of whatever text follows: a first byte tells how many are due and
between which bounds the second one lies, and each of them adds its share to the code point.
-/
namespace StructuralEdit.Text
variable {b code lo hi due x : Nat} {rest : Bytes}

section
variable (hx : x < 64) (hlo : lo ≤ 0x80 + x) (hhi : 0x80 + x ≤ hi)
include hx hlo hhi

end

/-! ## Characters and texts -/

end StructuralEdit.Text
