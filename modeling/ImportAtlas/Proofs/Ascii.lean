/-
# ImportAtlas.Proofs.Ascii -- texts with one byte for each character

A text of ASCII is encoded character by character, and a lenient reading of the bytes gives the text
back. What version control prints is such a text, since it escapes everything else, and so is a printed
graph.
-/
import ImportAtlas.Text.Utf8

namespace ImportAtlas.Text

/-- Whether a character belongs to ASCII. -/
def isAscii (c : Char) : Bool := c.toNat < 0x80

namespace Utf8

theorem toList_loop (bytes : ByteArray) (i : Nat) (acc : List UInt8) :
    ByteArray.toList.loop bytes i acc = acc.reverse ++ bytes.data.toList.drop i := by
  fun_induction ByteArray.toList.loop bytes i acc with
  | case1 i acc hi ih =>
    have hlen : i < bytes.data.toList.length := hi
    have hget : bytes.get! i = bytes.data.toList[i] := by
      show bytes.data[i]! = bytes.data[i]
      exact getElem!_pos bytes.data i hi
    rw [ih, hget, List.drop_eq_getElem_cons hlen, List.reverse_cons, List.append_assoc]
    rfl
  | case2 i acc hi =>
    rw [List.drop_eq_nil_of_le (Nat.not_lt.1 hi), List.append_nil]

/-- A text is encoded one character after the other. -/
theorem encode_ofList (cs : List Char) :
    encode (String.ofList cs) = cs.flatMap String.utf8EncodeChar := by
  rw [encode, String.toUTF8, String.toByteArray_ofList, ByteArray.toList, toList_loop]
  simp [List.utf8Encode]

theorem utf8EncodeChar_of_isAscii {c : Char} (hc : isAscii c = true) :
    String.utf8EncodeChar c = [UInt8.ofNat c.toNat] := by
  have hle : c.val.toNat ≤ 127 := Nat.le_of_lt_succ (of_decide_eq_true hc)
  unfold String.utf8EncodeChar
  exact if_pos hle

theorem piece_of_isAscii {c : Char} (hc : isAscii c = true) (rest : List UInt8) :
    piece (UInt8.ofNat c.toNat) rest = (some c, rest) := by
  have hlt : c.toNat < 0x80 := of_decide_eq_true hc
  have hbyte : (UInt8.ofNat c.toNat).toNat = c.toNat :=
    Nat.mod_eq_of_lt (Nat.lt_trans hlt (by decide))
  unfold piece
  dsimp only
  rw [hbyte, if_pos hlt, Char.ofNat_toNat]

/-- A lenient reading gives a text of ASCII back. -/
theorem decodeLenient_encode {cs : List Char} (hcs : ∀ c ∈ cs, isAscii c = true) :
    decodeLenient (encode (String.ofList cs)) = cs := by
  unfold decodeLenient
  rw [encode_ofList]
  induction cs with
  | nil => simp [pieces]
  | cons c cs ih =>
    have hrest := ih fun d hd => hcs d (List.mem_cons_of_mem _ hd)
    have hc : isAscii c = true := hcs c List.mem_cons_self
    rw [List.flatMap_cons, utf8EncodeChar_of_isAscii hc, List.singleton_append, pieces,
      piece_of_isAscii hc]
    exact congrArg (c :: ·) hrest

end Utf8

end ImportAtlas.Text
