import Llxprt.Kernel.Weights
import Llxprt.Rust.Utf8

/-!
# Texts as bytes

The bytes of a text are the encodings of its characters one after another, and the
decoding of these bytes gives them back.
-/

namespace Llxprt.Kernel

open Llxprt.Rust

theorem utf8_ofList (chars : List Char) :
    utf8 (String.ofList chars) = (chars.map String.utf8EncodeChar).flatten := by
  simp [utf8, String.toUTF8, List.utf8Encode, List.flatMap]

theorem utf8_eq_flatten (text : String) :
    utf8 text = (text.toList.map String.utf8EncodeChar).flatten := by
  rw [← utf8_ofList, String.ofList_toList]

theorem utf8_append (front rest : String) : utf8 (front ++ rest) = utf8 front ++ utf8 rest := by
  rw [utf8_eq_flatten, utf8_eq_flatten, utf8_eq_flatten, String.toList_append, List.map_append,
    List.flatten_append]

theorem valid_utf8 (text : String) : Utf8.Valid (utf8 text) :=
  ⟨_, Utf8.characters_encode text.toList, (utf8_eq_flatten text).symm⟩

/-- A one-byte character is encoded by a byte below 128. -/
theorem lt_of_mem_utf8 {text : String} (ascii : ∀ char ∈ text.toList, char.utf8Size = 1)
    {byte : UInt8} (member : byte ∈ utf8 text) : byte.toNat < 128 := by
  rw [utf8_eq_flatten, List.mem_flatten] at member
  rcases member with ⟨encoded, listed, among⟩
  rcases List.mem_map.mp listed with ⟨char, known, rfl⟩
  have single := ascii char known
  have small : char.val ≤ 0x7f := Char.utf8Size_eq_one_iff.mp single
  have bound : char.val.toNat ≤ 127 := small
  rw [String.utf8EncodeChar, if_pos bound, List.mem_singleton] at among
  rw [among, UInt8.toNat_ofNat']
  omega

end Llxprt.Kernel
