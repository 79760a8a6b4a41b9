/-!
# Text in bytes

Text comes from files as bytes in UTF-8. Bytes that are no UTF-8 are not an error by themselves,
since a reader may have no use for the place where they stand. Decoding therefore gives a list of
`Symbol`s: a character, or `none` for a byte that does not begin one.
-/

namespace AgentSweep

/-- **A character, or a byte that belongs to none.** -/
abbrev Symbol := Option Char

namespace Symbol

/-- The symbols of the bytes from some place on. -/
def decodeFrom (bytes : ByteArray) (i : Nat) (before : List Symbol) : List Symbol :=
  if i < bytes.size then
    match bytes.utf8DecodeChar? i with
    | some c => decodeFrom bytes (i + c.utf8Size) (some c :: before)
    | none => decodeFrom bytes (i + 1) (none :: before)
  else before.reverse
termination_by bytes.size - i
decreasing_by
  · have := c.utf8Size_pos
    omega
  · omega

/-- **The symbols of some bytes.** -/
def ofBytes (bytes : ByteArray) : List Symbol := decodeFrom bytes 0 []

/-- The symbols of a text. -/
def ofString (s : String) : List Symbol := s.toList.map some

/-- Each character of a text is decoded where its bytes begin. -/
theorem utf8DecodeChar?_utf8Encode_append (before : List Char) (c : Char) (rest : List Char) :
    (before ++ c :: rest).utf8Encode.utf8DecodeChar? before.utf8Encode.size = some c := by
  rw [List.utf8Encode_append, ByteArray.utf8DecodeChar?_eq_utf8DecodeChar?_extract,
    ByteArray.extract_append_eq_right rfl ByteArray.size_append]
  exact List.utf8DecodeChar?_utf8Encode_cons

theorem size_utf8Encode_singleton (c : Char) : [c].utf8Encode.size = c.utf8Size := by
  rw [List.utf8Encode_singleton, List.size_toByteArray, String.length_utf8EncodeChar]

/-- **The bytes of a text are decoded into its characters.** -/
theorem ofBytes_toUTF8 (s : String) : ofBytes s.toUTF8 = ofString s := by
  have hdecode (rest read : List Char) (before : List Symbol) :
      decodeFrom (read ++ rest).utf8Encode read.utf8Encode.size before
        = before.reverse ++ rest.map some := by
    induction rest generalizing read before with
    | nil =>
      rw [List.append_nil, decodeFrom, if_neg (Nat.lt_irrefl _), List.map_nil, List.append_nil]
    | cons c rest ih =>
      have hc := utf8DecodeChar?_utf8Encode_append read c rest
      have hlt : read.utf8Encode.size < (read ++ c :: rest).utf8Encode.size :=
        ByteArray.lt_size_of_isSome_utf8DecodeChar? (hc ▸ rfl)
      have hnext : (read ++ [c]).utf8Encode.size = read.utf8Encode.size + c.utf8Size := by
        rw [List.utf8Encode_append, ByteArray.size_append, size_utf8Encode_singleton]
      have hih := ih (read ++ [c]) (some c :: before)
      rw [hnext, List.append_assoc, List.singleton_append, List.reverse_cons, List.append_assoc]
        at hih
      rw [decodeFrom, if_pos hlt, hc]
      exact hih
  have hall := hdecode s.toList [] []
  rw [List.nil_append, String.utf8Encode_toList] at hall
  exact hall

end Symbol

end AgentSweep
