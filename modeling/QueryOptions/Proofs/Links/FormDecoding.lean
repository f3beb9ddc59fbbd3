import QueryOptions.Proofs.Text.Splitting
import QueryOptions.QueryString

/-!
Reading query strings back. Decoding turns `+` into a blank and percent escapes into bytes, and then
reads the bytes as UTF-8. Every written pair comes back, since no name and no value is written with
one of the separators.
-/

namespace QueryOptions.QueryString

def hexValue? (c : Char) : Option Nat :=
  if '0' ≤ c ∧ c ≤ '9' then some (c.toNat - 0x30)
  else if 'A' ≤ c ∧ c ≤ 'F' then some (c.toNat - 0x37)
  else if 'a' ≤ c ∧ c ≤ 'f' then some (c.toNat - 0x57)
  else none

def escaped? (high low : Char) : Option UInt8 := do
  let leading ← hexValue? high
  let trailing ← hexValue? low
  return UInt8.ofNat (16 * leading + trailing)

/-- The bytes that a text stands for. A percent sign that opens no escape stands for itself. -/
def decodeBytes : List Char → List UInt8
  | [] => []
  | '%' :: high :: low :: rest =>
      match escaped? high low with
      | some byte => byte :: decodeBytes rest
      | none => 0x25 :: decodeBytes (high :: low :: rest)
  | c :: rest => String.utf8EncodeChar (if c = '+' then ' ' else c) ++ decodeBytes rest

def decode (text : List Char) : Option String :=
  String.fromUTF8? (decodeBytes text).toByteArray

def decodePair (pair : List Char) : Option (String × String) := do
  let name ← decode (pair.takeWhile (· ≠ '='))
  let value ← decode ((pair.dropWhile (· ≠ '=')).drop 1)
  return (name, value)

def decodePairs (query : String) : Option (List (String × String)) :=
  ((Text.splitAtChar '&' query.toList).filter fun pair => !pair.isEmpty).mapM decodePair

def IsWritten (c : Char) : Prop := isPlain c = true ∨ c = '+' ∨ c = '%'

theorem hex_digit_plain : ∀ value < 16, isPlain (hexDigit value) = true := by decide

theorem hex_digit_value : ∀ value < 16, hexValue? (hexDigit value) = some value := by decide

theorem byte_digits (byte : UInt8) : byte.toNat / 16 < 16 ∧ byte.toNat % 16 < 16 := by
  have small := byte.toNat_lt_size
  unfold UInt8.size at small
  omega

theorem encode_char_written (c : Char) : ∀ d ∈ encodeChar c, IsWritten d := by
  unfold encodeChar
  intro d member
  split at member
  · rename_i plain
    rw [List.mem_singleton] at member
    exact .inl (member ▸ plain)
  · split at member
    · rw [List.mem_singleton] at member
      exact .inr (.inl member)
    · obtain ⟨byte, _, inEscape⟩ := List.mem_flatMap.mp member
      obtain ⟨high, low⟩ := byte_digits byte
      simp only [escapeByte, List.mem_cons, List.not_mem_nil, or_false] at inEscape
      rcases inEscape with rfl | rfl | rfl
      · exact .inr (.inr rfl)
      · exact .inl (hex_digit_plain _ high)
      · exact .inl (hex_digit_plain _ low)

theorem encode_written (text : String) : ∀ c ∈ (encode text).toList, IsWritten c := by
  unfold encode
  rw [String.toList_ofList]
  intro c member
  obtain ⟨letter, _, inLetter⟩ := List.mem_flatMap.mp member
  exact encode_char_written letter c inLetter

theorem separator_not_written {c : Char} (separator : c = '&' ∨ c = '=') : ¬IsWritten c := by
  unfold IsWritten
  rcases separator with rfl | rfl <;> decide

theorem decode_other {c : Char} (noEscape : c ≠ '%') (rest : List Char) :
    decodeBytes (c :: rest) =
      String.utf8EncodeChar (if c = '+' then ' ' else c) ++ decodeBytes rest := by
  rw [decodeBytes]
  intro high low others isPercent
  exact absurd isPercent noEscape

theorem decode_escape (byte : UInt8) (rest : List Char) :
    decodeBytes (escapeByte byte ++ rest) = byte :: decodeBytes rest := by
  obtain ⟨high, low⟩ := byte_digits byte
  have whole : 16 * (byte.toNat / 16) + byte.toNat % 16 = byte.toNat := by omega
  have read : escaped? (hexDigit (byte.toNat / 16)) (hexDigit (byte.toNat % 16)) = some byte := by
    unfold escaped?
    rw [hex_digit_value _ high, hex_digit_value _ low]
    exact congrArg some ((congrArg UInt8.ofNat whole).trans UInt8.ofNat_toNat)
  simp only [escapeByte, List.cons_append, List.nil_append]
  rw [decodeBytes, read]

theorem decode_escapes (bytes : List UInt8) (rest : List Char) :
    decodeBytes (bytes.flatMap escapeByte ++ rest) = bytes ++ decodeBytes rest := by
  induction bytes with
  | nil => rfl
  | cons byte bytes induction =>
      rw [List.flatMap_cons, List.append_assoc, decode_escape, induction, List.cons_append]

theorem decode_encoded_char (c : Char) (rest : List Char) :
    decodeBytes (encodeChar c ++ rest) = String.utf8EncodeChar c ++ decodeBytes rest := by
  unfold encodeChar
  split
  · rename_i plain
    have noPlus : c ≠ '+' := by
      rintro rfl
      exact absurd plain (by decide)
    have noEscape : c ≠ '%' := by
      rintro rfl
      exact absurd plain (by decide)
    rw [List.singleton_append, decode_other noEscape, if_neg noPlus]
  · split
    · rename_i blank
      rw [List.singleton_append, decode_other (by decide), if_pos rfl, blank]
    · exact decode_escapes _ rest

theorem decode_encoded (letters : List Char) :
    decodeBytes (letters.flatMap encodeChar) = letters.flatMap String.utf8EncodeChar := by
  induction letters with
  | nil => rfl
  | cons c letters induction =>
      rw [List.flatMap_cons, decode_encoded_char, induction, List.flatMap_cons]

theorem decode_encode (text : String) : decode (encode text).toList = some text := by
  have bytes : (text.toList.flatMap String.utf8EncodeChar).toByteArray = text.toByteArray := by
    have written := String.toByteArray_ofList (l := text.toList)
    rw [String.ofList_toList] at written
    exact written.symm
  unfold decode encode
  rw [String.toList_ofList, decode_encoded, bytes, String.fromUTF8?, dif_pos text.isValidUTF8]
  rfl

theorem encode_pair_letters (pair : String × String) :
    (encodePair pair).toList = (encode pair.1).toList ++ '=' :: (encode pair.2).toList := by
  simp [encodePair]

theorem decode_encode_pair (pair : String × String) :
    decodePair (encodePair pair).toList = some pair := by
  have nameFree : ∀ c ∈ (encode pair.1).toList, decide (c ≠ '=') = true := by
    intro c member
    refine decide_eq_true ?_
    rintro rfl
    exact separator_not_written (.inr rfl) (encode_written pair.1 _ member)
  unfold decodePair
  rw [encode_pair_letters, List.takeWhile_append_of_pos nameFree,
    List.dropWhile_append_of_pos nameFree, List.takeWhile_cons_of_neg (by decide),
    List.dropWhile_cons_of_neg (by decide), List.append_nil, decode_encode, List.drop_succ_cons,
    List.drop_zero, decode_encode]
  rfl

theorem encode_pair_free (pair : String × String) : '&' ∉ (encodePair pair).toList := by
  rw [encode_pair_letters, List.mem_append, List.mem_cons]
  rintro (inName | same | inValue)
  · exact separator_not_written (.inl rfl) (encode_written pair.1 _ inName)
  · exact absurd same (by decide)
  · exact separator_not_written (.inl rfl) (encode_written pair.2 _ inValue)

theorem encode_pair_given (pair : String × String) : (encodePair pair).toList ≠ [] := by
  rw [encode_pair_letters]
  exact List.append_ne_nil_of_right_ne_nil _ (List.cons_ne_nil _ _)

theorem decode_encode_each (pairs : List (String × String)) :
    (pairs.map fun pair => (encodePair pair).toList).mapM decodePair = some pairs := by
  induction pairs with
  | nil => rfl
  | cons pair pairs induction =>
      rw [List.map_cons, List.mapM_cons, decode_encode_pair, induction]
      rfl

/-- Decoding a query string gives exactly the pairs that were written. -/
theorem decode_encode_pairs (pairs : List (String × String)) :
    decodePairs (encodePairs pairs) = some pairs := by
  have letters : (encodePairs pairs).toList =
      ['&'].intercalate (pairs.map fun pair => (encodePair pair).toList) := by
    unfold encodePairs
    rw [String.toList_intercalate, List.map_map]
    rfl
  unfold decodePairs
  rw [letters]
  cases pairs with
  | nil => rfl
  | cons pair pairs =>
      have given : (pair :: pairs).map (fun pair => (encodePair pair).toList) ≠ [] :=
        List.cons_ne_nil _ _
      have free : ∀ piece ∈ (pair :: pairs).map fun pair => (encodePair pair).toList,
          '&' ∉ piece := by
        intro piece member
        obtain ⟨written, _, rfl⟩ := List.mem_map.mp member
        exact encode_pair_free written
      rw [Text.split_at_char_intercalate given free, List.filter_eq_self.mpr, decode_encode_each]
      intro piece member
      obtain ⟨written, _, rfl⟩ := List.mem_map.mp member
      simp [encode_pair_given written]

end QueryOptions.QueryString
