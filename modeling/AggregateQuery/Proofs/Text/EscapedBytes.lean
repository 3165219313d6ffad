import AggregateQuery.Proofs.Text.Escapes
/-!
Undoing escapes in two steps, a check that every percent sign begins one and a decoder that takes
any text. Reading them in one pass is the same.
-/
namespace AggregateQuery.Text.Percent

def BeginsWithDigits (s : List Char) : Prop :=
  ∃ high low rest, s = high :: low :: rest ∧
    (hexValue? high).isSome = true ∧ (hexValue? low).isSome = true

def WellEscaped (s : List Char) : Prop :=
  ∀ before after, s = before ++ '%' :: after → BeginsWithDigits after

/-- The bytes of a text, with those of escapes in their place. A percent sign that begins no escape
stands for itself. -/
def bytes : List Char → List UInt8
  | [] => []
  | '%' :: high :: low :: rest =>
    match hexValue? high, hexValue? low with
    | some h, some l => UInt8.ofNat (16 * h + l) :: bytes rest
    | _, _ => String.utf8EncodeChar '%' ++ bytes (high :: low :: rest)
  | c :: rest => String.utf8EncodeChar c ++ bytes rest

theorem wellEscaped_nil : WellEscaped [] := by
  intro before after whole
  simp at whole

theorem wellEscaped_cons_iff {c : Char} {rest : List Char} :
    WellEscaped (c :: rest) ↔ (c = '%' → BeginsWithDigits rest) ∧ WellEscaped rest := by
  constructor
  · intro escaped
    refine ⟨?_, ?_⟩
    · rintro rfl
      exact escaped [] rest rfl
    · rintro before after rfl
      exact escaped (c :: before) after rfl
  · rintro ⟨own, later⟩ before after whole
    cases before with
    | nil =>
      obtain ⟨same, rfl⟩ := List.cons.inj whole
      exact own same
    | cons first before =>
      obtain ⟨_, rfl⟩ := List.cons.inj whole
      exact later before after rfl

theorem wellEscaped_cons_of_ne {c : Char} {rest : List Char} (other : c ≠ '%') :
    WellEscaped (c :: rest) ↔ WellEscaped rest := by
  simp [wellEscaped_cons_iff, other]

theorem wellEscaped_escape_iff {high low : Char} {rest : List Char} :
    WellEscaped ('%' :: high :: low :: rest) ↔
      ∃ h, hexValue? high = some h ∧ ∃ l, hexValue? low = some l ∧ WellEscaped rest := by
  -- A digit is no percent sign, so nothing inside an escape begins another.
  have ordinary {digit : Char} {n : Nat} (value : hexValue? digit = some n) : digit ≠ '%' := by
    rintro rfl
    contradiction
  rw [wellEscaped_cons_iff]
  constructor
  · rintro ⟨digits, escaped⟩
    obtain ⟨_, _, _, same, isDigit, isDigitToo⟩ := digits rfl
    cases same
    obtain ⟨h, first⟩ := Option.isSome_iff_exists.mp isDigit
    obtain ⟨l, second⟩ := Option.isSome_iff_exists.mp isDigitToo
    rw [wellEscaped_cons_of_ne (ordinary first),
      wellEscaped_cons_of_ne (ordinary second)] at escaped
    exact ⟨h, first, l, second, escaped⟩
  · rintro ⟨h, first, l, second, escaped⟩
    refine ⟨fun _ => ⟨high, low, rest, rfl, by simp [first], by simp [second]⟩, ?_⟩
    rwa [wellEscaped_cons_of_ne (ordinary first), wellEscaped_cons_of_ne (ordinary second)]

theorem bytes_escape {high low : Char} {h l : Nat} (rest : List Char)
    (first : hexValue? high = some h) (second : hexValue? low = some l) :
    bytes ('%' :: high :: low :: rest) = UInt8.ofNat (16 * h + l) :: bytes rest := by
  rw [bytes, first, second]

theorem bytes_cons_of_ne {c : Char} (rest : List Char) (other : c ≠ '%') :
    bytes (c :: rest) = String.utf8EncodeChar c ++ bytes rest := by
  rw [bytes]
  intro high low tail isEscape
  exact absurd isEscape other

theorem unescape?_eq_some_iff {s : List Char} {out : List UInt8} :
    unescape? s = some out ↔ WellEscaped s ∧ bytes s = out := by
  fun_induction unescape? s generalizing out with
  | case1 => simp [wellEscaped_nil, bytes]
  | case2 high low rest ih =>
    simp only [Option.bind_eq_bind, Option.bind_eq_some_iff, ih, wellEscaped_escape_iff,
      Option.pure_def, Option.some.injEq]
    constructor
    · rintro ⟨h, first, l, second, _, ⟨escaped, rfl⟩, rfl⟩
      exact ⟨⟨h, first, l, second, escaped⟩, bytes_escape rest first second⟩
    · rintro ⟨⟨h, first, l, second, escaped⟩, rfl⟩
      exact ⟨h, first, l, second, bytes rest, ⟨escaped, rfl⟩, (bytes_escape rest first second).symm⟩
  | case3 rest noEscape =>
    constructor
    · intro read
      contradiction
    · rintro ⟨escaped, _⟩
      obtain ⟨high, low, tail, whole, _⟩ := escaped [] rest rfl
      exact absurd whole (noEscape high low tail rfl)
  | case4 c rest noEscape other ih =>
    simp only [Option.map_eq_some_iff, ih, wellEscaped_cons_of_ne other,
      bytes_cons_of_ne rest other]
    constructor
    · rintro ⟨_, ⟨escaped, rfl⟩, rfl⟩
      exact ⟨escaped, rfl⟩
    · rintro ⟨escaped, rfl⟩
      exact ⟨bytes rest, ⟨escaped, rfl⟩, rfl⟩

end AggregateQuery.Text.Percent
