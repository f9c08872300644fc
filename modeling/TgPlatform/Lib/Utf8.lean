import TgPlatform.Lib.Json

/-! # Strings as bytes -/

theorem byteArray_loop (bs : ByteArray) (i : ℕ) (r : List UInt8) :
    ByteArray.toList.loop bs i r = r.reverse ++ bs.data.toList.drop i := by
  fun_induction ByteArray.toList.loop bs i r with
  | case1 i r hi ih =>
    have hlt : i < bs.data.toList.length := by simpa using hi
    have hget : bs.get! i = bs.data.toList[i] := by
      simp [ByteArray.get!, hi]
    rw [ih, List.reverse_cons, List.append_assoc, List.singleton_append, hget,
      List.getElem_cons_drop]
  | case2 i r hi =>
    have hle : bs.data.toList.length ≤ i := by simpa using hi
    rw [List.drop_eq_nil_of_le hle, List.append_nil]

theorem encode_ofList (s : List Char) : encode (String.ofList s) = s.flatMap String.utf8EncodeChar := by
  rw [encode, String.toUTF8_eq_toByteArray, String.toByteArray_ofList, ByteArray.toList, byteArray_loop]
  exact List.toList_data_toByteArray

theorem toByteArray_encode (s : String) : (encode s).toByteArray = s.toByteArray := by
  rw [← String.ofList_toList (s := s), encode_ofList, String.toByteArray_ofList]
  rfl

theorem encode_inj {s t : String} (h : encode s = encode t) : s = t := by
  rw [← String.toByteArray_inj, ← toByteArray_encode, h, toByteArray_encode]

/-- `bytes.decode`, of UTF-8. -/
def decodeUtf8 (bs : Bytes) : Option String := String.fromUTF8? bs.toByteArray

theorem decodeUtf8_encode (s : String) : decodeUtf8 (encode s) = some s := by
  rw [decodeUtf8, toByteArray_encode, String.fromUTF8?, dif_pos s.isValidUTF8]
  rfl

theorem length_encode_le (s : List Char) : (encode (String.ofList s)).length ≤ 4 * s.length := by
  rw [encode_ofList]
  induction s with
  | nil => exact Nat.zero_le _
  | cons c s ih =>
    have hsize := Char.utf8Size_le_four c
    rw [List.flatMap_cons, List.length_append, String.length_utf8EncodeChar, List.length_cons]
    omega
