import Mathlib
import ActivityCatalogue.NameMap

/-!
# Ordinal order is the order of UTF-8 bytes

Names are compared code point by code point throughout the library.  This file
justifies calling that ordinal order: it is the lexicographic order of the
UTF-8 bytes of the names (`bytesBefore_iff_lt`).

The encodings of two different characters differ at some byte before either
ends, and there the smaller code point has the smaller byte.  So the first
character at which two texts differ decides between their bytes as well,
whatever follows it.
-/

namespace ActivityCatalogue

/-- The UTF-8 bytes of a text. -/
def utf8 (text : String) : List UInt8 := text.toUTF8.data.toList

/-- The bytes of one name come before those of the other. -/
def BytesBefore (earlier later : String) : Prop := utf8 earlier < utf8 later

theorem utf8_eq_flatMap (text : String) :
    utf8 text = text.toList.flatMap String.utf8EncodeChar := by
  rw [utf8, String.toUTF8_eq_toByteArray, ← String.utf8Encode_toList, List.utf8Encode]
  exact List.toList_data_toByteArray

theorem ofNat_cons_lt {lesser greater : Nat} (hlt : lesser < greater) (hbyte : greater < 256)
    (left right : List UInt8) : UInt8.ofNat lesser :: left < UInt8.ofNat greater :: right := by
  refine List.cons_lt_cons_iff.mpr (Or.inl (UInt8.lt_iff_toNat_lt.mpr ?_))
  rwa [UInt8.toNat_ofNat', UInt8.toNat_ofNat', Nat.mod_eq_of_lt (hlt.trans hbyte),
    Nat.mod_eq_of_lt hbyte]

/-- A further byte takes six bits.  It decides if the bytes for the bits before them agree. -/
theorem append_tail_lt {lesser greater : Nat} (hlt : lesser < greater) (first second : List UInt8)
    (hsame : lesser / 64 = greater / 64 → first = second)
    (hdiffer : lesser / 64 < greater / 64 →
      ∀ left right : List UInt8, first ++ left < second ++ right) (left right : List UInt8) :
    first ++ UInt8.ofNat (lesser % 64 + 128) :: left <
      second ++ UInt8.ofNat (greater % 64 + 128) :: right := by
  rcases Nat.lt_or_eq_of_le (Nat.div_le_div_right (c := 64) hlt.le) with hbits | hbits
  · exact hdiffer hbits _ _
  · rw [hsame hbits]
    exact List.append_left_lt (ofNat_cons_lt (by omega) (by omega) _ _)

theorem two_bytes_lt {lesser greater : Nat} (hlt : lesser < greater) (hbound : greater < 0x800)
    (left right : List UInt8) :
    UInt8.ofNat (lesser / 64 % 32 + 192) :: UInt8.ofNat (lesser % 64 + 128) :: left <
      UInt8.ofNat (greater / 64 % 32 + 192) :: UInt8.ofNat (greater % 64 + 128) :: right :=
  append_tail_lt hlt [_] [_] (fun hsame => by rw [hsame])
    (fun hfirst => ofNat_cons_lt (by omega) (by omega)) left right

theorem three_bytes_lt {lesser greater : Nat} (hlt : lesser < greater) (hbound : greater < 0x10000)
    (left right : List UInt8) :
    UInt8.ofNat (lesser / 4096 % 16 + 224) :: UInt8.ofNat (lesser / 64 % 64 + 128) ::
        UInt8.ofNat (lesser % 64 + 128) :: left <
      UInt8.ofNat (greater / 4096 % 16 + 224) :: UInt8.ofNat (greater / 64 % 64 + 128) ::
        UInt8.ofNat (greater % 64 + 128) :: right := by
  rw [← Nat.div_div_eq_div_mul lesser 64 64, ← Nat.div_div_eq_div_mul greater 64 64]
  refine append_tail_lt hlt [_, _] [_, _] (fun hsame => by rw [hsame]) (fun hsecond => ?_)
    left right
  exact append_tail_lt hsecond [_] [_] (fun hsame => by rw [hsame])
    fun hfirst => ofNat_cons_lt (by omega) (by omega)

theorem four_bytes_lt {lesser greater : Nat} (hlt : lesser < greater) (hbound : greater < 0x110000)
    (left right : List UInt8) :
    UInt8.ofNat (lesser / 262144 % 8 + 240) :: UInt8.ofNat (lesser / 4096 % 64 + 128) ::
        UInt8.ofNat (lesser / 64 % 64 + 128) :: UInt8.ofNat (lesser % 64 + 128) :: left <
      UInt8.ofNat (greater / 262144 % 8 + 240) :: UInt8.ofNat (greater / 4096 % 64 + 128) ::
        UInt8.ofNat (greater / 64 % 64 + 128) :: UInt8.ofNat (greater % 64 + 128) :: right := by
  rw [← Nat.div_div_eq_div_mul lesser 4096 64, ← Nat.div_div_eq_div_mul greater 4096 64,
    ← Nat.div_div_eq_div_mul lesser 64 64, ← Nat.div_div_eq_div_mul greater 64 64]
  refine append_tail_lt hlt [_, _, _] [_, _, _] (fun hsame => by rw [hsame]) (fun hthird => ?_)
    left right
  refine append_tail_lt hthird [_, _] [_, _] (fun hsame => by rw [hsame]) fun hsecond => ?_
  exact append_tail_lt hsecond [_] [_] (fun hsame => by rw [hsame])
    fun hfirst => ofNat_cons_lt (by omega) (by omega)

/-- The first byte tells the length of an encoding, so one with more bytes is greater. -/
theorem utf8EncodeChar_append_lt {c d : Char} (hlt : c < d) (left right : List UInt8) :
    String.utf8EncodeChar c ++ left < String.utf8EncodeChar d ++ right := by
  have hcode : c.val.toNat < d.val.toNat := hlt
  have hbound : d.val.toNat < 0x110000 := by
    have hvalid := d.valid
    simp only [UInt32.isValidChar, Nat.isValidChar] at hvalid
    omega
  unfold String.utf8EncodeChar
  generalize c.val.toNat = lesser at *
  generalize d.val.toNat = greater at *
  dsimp only
  -- a goal for each pair of lengths; the order rules out the first if it is longer
  split_ifs
  any_goals omega
  any_goals refine ofNat_cons_lt ?_ ?_ _ _ <;> omega
  · exact two_bytes_lt hcode (by omega) left right
  · exact three_bytes_lt hcode (by omega) left right
  · exact four_bytes_lt hcode hbound left right

theorem flatMap_utf8EncodeChar_lt {first second : List Char} (hlt : first < second) :
    first.flatMap String.utf8EncodeChar < second.flatMap String.utf8EncodeChar := by
  induction first generalizing second with
  | nil =>
      cases second with
      | nil => exact absurd hlt (List.lt_irrefl [])
      | cons d second =>
          obtain ⟨byte, bytes, hbytes⟩ :=
            List.exists_cons_of_ne_nil (String.utf8EncodeChar_ne_nil (c := d))
          rw [List.flatMap_nil, List.flatMap_cons, hbytes]
          exact List.nil_lt_cons _ _
  | cons c first ih =>
      cases second with
      | nil => exact absurd hlt (List.not_lt_nil _)
      | cons d second =>
          rcases List.cons_lt_cons_iff.mp hlt with hhead | ⟨rfl, htail⟩
          · exact utf8EncodeChar_append_lt hhead _ _
          · exact List.append_left_lt (ih htail)

theorem bytesBefore_of_lt {earlier later : String} (hlt : earlier < later) :
    BytesBefore earlier later := by
  rw [BytesBefore, utf8_eq_flatMap, utf8_eq_flatMap]
  exact flatMap_utf8EncodeChar_lt hlt

/-- **Ordinal order** of names is the order of their bytes. -/
theorem bytesBefore_iff_lt (earlier later : String) :
    BytesBefore earlier later ↔ earlier < later := by
  refine ⟨fun hbytes => ?_, bytesBefore_of_lt⟩
  by_contra hnot
  rcases lt_or_eq_of_le (not_lt.mp hnot) with hlt | heq
  · exact List.lt_asymm hbytes (bytesBefore_of_lt hlt)
  · subst heq
    exact List.lt_irrefl (utf8 later) hbytes

end ActivityCatalogue
