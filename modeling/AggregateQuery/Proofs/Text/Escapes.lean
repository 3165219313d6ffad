import AggregateQuery.Proofs.Text.Trimming
import AggregateQuery.Text.Percent
/-!
Percent escapes are undone by reading them, for every text, and what they produce can be taken for
no syntax: it holds visible ASCII characters only, and none that delimits clauses or values.
-/
namespace AggregateQuery.Text.Percent

theorem hexValue?_hexDigit (n : Nat) (small : n < 16) : hexValue? (hexDigit n) = some n := by
  have all : ∀ k : Fin 16, hexValue? (hexDigit k) = some k.val := by decide
  exact all ⟨n, small⟩

theorem unescape?_escapeByte (b : UInt8) (rest : List Char) :
    unescape? (escapeByte b ++ rest) = (unescape? rest).map (b :: ·) := by
  have bound : b.toNat < 256 := b.toNat_lt_size
  have high := hexValue?_hexDigit (b.toNat / 16) (by omega)
  have low := hexValue?_hexDigit (b.toNat % 16) (by omega)
  have byte : UInt8.ofNat (16 * (b.toNat / 16) + b.toNat % 16) = b := by
    rw [Nat.div_add_mod, UInt8.ofNat_toNat]
  simp only [escapeByte, List.cons_append, List.nil_append, unescape?, high, low, byte,
    Option.bind_eq_bind, Option.bind_some]
  cases unescape? rest <;> rfl

theorem unescape?_escapes (bytes : List UInt8) (rest : List Char) :
    unescape? (bytes.flatMap escapeByte ++ rest) = (unescape? rest).map (bytes ++ ·) := by
  induction bytes with
  | nil => simp
  | cons b bytes ih =>
    rw [List.flatMap_cons, List.append_assoc, unescape?_escapeByte, ih]
    simp [Function.comp_def]

theorem unescape?_cons_of_ne {c : Char} (rest : List Char) (other : c ≠ '%') :
    unescape? (c :: rest) = (unescape? rest).map (String.utf8EncodeChar c ++ ·) := by
  rw [unescape?]
  · simp [other]
  · intro high low tail isEscape
    exact absurd isEscape other

theorem bytes_ne_nil_of_unescape? {s : List Char} {bytes : List UInt8} (inhabited : s ≠ [])
    (read : unescape? s = some bytes) : bytes ≠ [] := by
  intro same
  subst same
  fun_cases unescape? s with
  | case1 => contradiction
  | case2 high low rest => simp [unescape?, Option.bind_eq_some_iff] at read
  | case3 rest => simp [unescape?] at read
  | case4 c rest _ other =>
    rw [unescape?_cons_of_ne rest other] at read
    simp [String.utf8EncodeChar_ne_nil] at read

theorem unescape?_encodeChar (c : Char) (rest : List Char) :
    unescape? (encodeChar c ++ rest) = (unescape? rest).map (String.utf8EncodeChar c ++ ·) := by
  rw [encodeChar]
  split
  · rename_i plain
    have other : c ≠ '%' := by
      intro same
      subst same
      exact absurd plain (by decide)
    exact unescape?_cons_of_ne rest other
  · exact unescape?_escapes _ rest

theorem unescape?_encode (value : List Char) :
    unescape? (encode value) = some (value.flatMap String.utf8EncodeChar) := by
  induction value with
  | nil => rfl
  | cons c value ih =>
    rw [encode, List.flatMap_cons, unescape?_encodeChar, ← encode, ih]
    rfl

theorem decodeUtf8?_utf8 (value : List Char) :
    decodeUtf8? (value.flatMap String.utf8EncodeChar) = some value := by
  have decoded := List.utf8Decode?_utf8Encode (l := value)
  rw [List.utf8Encode] at decoded
  simp [decodeUtf8?, decoded]

theorem decodeUtf8?_eq_some_iff {bytes : List UInt8} {chars : List Char} :
    decodeUtf8? bytes = some chars ↔ chars.flatMap String.utf8EncodeChar = bytes := by
  constructor
  · intro decoded
    obtain ⟨read, found, rfl⟩ := Option.map_eq_some_iff.mp decoded
    have valid : bytes.toByteArray.utf8Decode?.isSome = true := by simp [found]
    have written := ByteArray.utf8Encode_get_utf8Decode? (h := valid)
    simp only [found, Option.get_some, List.utf8Encode] at written
    exact List.toByteArray_inj.mp written
  · rintro rfl
    exact decodeUtf8?_utf8 chars

theorem escapeByte_chars (b : UInt8) : ∀ c ∈ escapeByte b, c = '%' ∨ isPlain c = true := by
  have digits : ∀ k : Fin 16, isPlain (hexDigit k) = true := by decide
  have bound : b.toNat < 256 := b.toNat_lt_size
  have high := digits ⟨b.toNat / 16, by omega⟩
  have low := digits ⟨b.toNat % 16, by omega⟩
  intro c member
  simp only [escapeByte, List.mem_cons, List.not_mem_nil, or_false] at member
  rcases member with rfl | rfl | rfl
  · exact Or.inl rfl
  · exact Or.inr high
  · exact Or.inr low

theorem encode_chars {c : Char} {value : List Char} (member : c ∈ encode value) :
    c = '%' ∨ isPlain c = true := by
  obtain ⟨original, _, written⟩ := List.mem_flatMap.mp member
  rw [encodeChar] at written
  split at written
  · rename_i plain
    rw [List.mem_singleton] at written
    exact Or.inr (written ▸ plain)
  · obtain ⟨b, _, inEscape⟩ := List.mem_flatMap.mp written
    exact escapeByte_chars b c inEscape

theorem visible_of_plain {c : Char} (plain : isPlain c = true) : isBlank c = false := by
  simp only [isPlain, Bool.and_eq_true, decide_eq_true_eq] at plain
  exact visible_of_printable (by omega) (by omega)

theorem encodeChar_ne_nil (c : Char) : encodeChar c ≠ [] := by
  rw [encodeChar]
  split
  · simp
  · cases bytes : String.utf8EncodeChar c with
    | nil => exact absurd bytes String.utf8EncodeChar_ne_nil
    | cons b bytes => simp [escapeByte]

theorem encode_of_plain {value : List Char} (plain : ∀ c ∈ value, isPlain c = true) :
    encode value = value := by
  induction value with
  | nil => rfl
  | cons c rest ih =>
    obtain ⟨first, others⟩ := List.forall_mem_cons.mp plain
    rw [encode, List.flatMap_cons, ← encode, ih others, encodeChar, if_pos first]
    rfl

theorem encode_eq_nil_iff {value : List Char} : encode value = [] ↔ value = [] := by
  cases value with
  | nil => simp [encode]
  | cons c value => simp [encode, encodeChar_ne_nil]

theorem trim_encode (value : List Char) : trim (encode value) = encode value := by
  refine trim_of_no_blanks fun c member => ?_
  rcases encode_chars member with rfl | plain
  · decide
  · exact visible_of_plain plain

end AggregateQuery.Text.Percent
