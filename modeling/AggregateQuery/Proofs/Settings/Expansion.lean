import Mathlib.Data.List.TakeWhile
import AggregateQuery.Proofs.Data.Reading
import AggregateQuery.Proofs.Text.Cutting
import AggregateQuery.Settings.Template
/-!
A text with variables has one reading: a dollar sign with a name behind it refers, every other
character stands for itself. Texts are cut up that way unless they have braces behind a dollar
sign that name nothing.
-/
namespace AggregateQuery.Template

open Text

/-- Whether a text, behind a dollar sign, begins with a name of a variable: between braces, or as
the longest run of name characters. No name is empty. -/
inductive Refers : List Char → List Char → List Char → Prop where
  | braced {name rest : List Char} (named : name ≠ []) (inside : '\x7d' ∉ name) :
    Refers ('\x7b' :: (name ++ '\x7d' :: rest)) name rest
  | bare {name rest : List Char} (named : name ≠ []) (word : ∀ c ∈ name, isNameChar c = true)
      (ends : ∀ c ∈ rest.head?, isNameChar c = false) : Refers (name ++ rest) name rest

/-- What a text is made of: references, and all other characters as they stand. -/
inductive Reads : List Char → List TemplatePart → Prop where
  | nil : Reads [] []
  | char {c : Char} {rest : List Char} {parts : List TemplatePart}
      (plain : c = '$' → ∀ name behind, ¬Refers rest name behind) (others : Reads rest parts) :
    Reads (c :: rest) (.char c :: parts)
  | reference {after name rest : List Char} {parts : List TemplatePart}
      (refers : Refers after name rest) (others : Reads rest parts) :
    Reads ('$' :: after) (.reference (String.ofList name) :: parts)

variable {s after body name rest : List Char} {parts reading : List TemplatePart}

theorem not_isNameChar_brace : isNameChar '\x7b' = false := by decide +kernel

theorem refers_brace_iff : Refers ('\x7b' :: body) name rest ↔
    cut? '\x7d' body = some (name, rest) ∧ name ≠ [] := by
  rw [cut?_eq_some_iff]
  constructor
  · intro refers
    generalize whole : '\x7b' :: body = text at refers
    cases refers with
    | braced named inside => exact ⟨⟨(List.cons.inj whole).2, inside⟩, named⟩
    | bare named word =>
      cases name with
      | nil => contradiction
      | cons c name =>
        have brace : '\x7b' = c := (List.cons.inj whole).1
        have isName := word c List.mem_cons_self
        rw [← brace, not_isNameChar_brace] at isName
        contradiction
  · rintro ⟨⟨rfl, inside⟩, named⟩
    exact .braced named inside

theorem refers_bare_iff (unbraced : after.head? ≠ some '\x7b') : Refers after name rest ↔
    after.takeWhile isNameChar = name ∧ after.dropWhile isNameChar = rest ∧ name ≠ [] := by
  constructor
  · intro refers
    cases refers with
    | braced => simp at unbraced
    | bare named word ends =>
      obtain ⟨run, behind⟩ := run_in_front word ends
      exact ⟨run, behind, named⟩
  · rintro ⟨rfl, rfl, named⟩
    have ends : ∀ c ∈ (after.dropWhile isNameChar).head?, isNameChar c = false := by
      intro c first
      have stops := List.head?_dropWhile_not isNameChar after
      rw [Option.mem_def.mp first] at stops
      exact stops
    have refers := Refers.bare named (List.all_eq_true.mp List.all_takeWhile) ends
    rwa [List.takeWhile_append_dropWhile] at refers

theorem Refers.unique {otherName otherRest : List Char} (refers : Refers after name rest)
    (again : Refers after otherName otherRest) : name = otherName ∧ rest = otherRest := by
  by_cases braced : after.head? = some '\x7b'
  · obtain ⟨body, rfl⟩ := List.head?_eq_some_iff.mp braced
    have cut := (refers_brace_iff.mp refers).1
    rw [(refers_brace_iff.mp again).1] at cut
    obtain ⟨rfl, rfl⟩ := Prod.mk.inj (Option.some.inj cut)
    exact ⟨rfl, rfl⟩
  · obtain ⟨rfl, rfl, _⟩ := (refers_bare_iff braced).mp refers
    obtain ⟨run, behind, _⟩ := (refers_bare_iff braced).mp again
    exact ⟨run, behind⟩

theorem Refers.length_le (refers : Refers after name rest) : rest.length ≤ after.length := by
  cases refers with
  | braced => simp; omega
  | bare => simp

theorem Reads.unique (reads : Reads s parts) (again : Reads s reading) : parts = reading := by
  induction reads generalizing reading with
  | nil =>
    cases again
    rfl
  | char plain _ ih =>
    cases again with
    | char _ others => rw [ih others]
    | reference refers => exact absurd refers (plain rfl _ _)
  | reference refers _ ih =>
    cases again with
    | char plain => exact absurd refers (plain rfl _ _)
    | reference refersToo others =>
      obtain ⟨rfl, rfl⟩ := refers.unique refersToo
      rw [ih others]

theorem exists_reads (s : List Char) : ∃ reading, Reads s reading := by
  induction length : s.length using Nat.strongRecOn generalizing s with
  | ind n ih =>
    cases s with
    | nil => exact ⟨[], .nil⟩
    | cons c rest =>
      by_cases refers : c = '$' ∧ ∃ name behind, Refers rest name behind
      · obtain ⟨rfl, name, behind, refers⟩ := refers
        have shorter : behind.length < n := by
          have := refers.length_le
          simp only [List.length_cons] at length
          omega
        obtain ⟨parts, others⟩ := ih _ shorter behind rfl
        exact ⟨_, .reference refers others⟩
      · obtain ⟨parts, others⟩ := ih _ (by simp [← length]) rest rfl
        exact ⟨_, .char (fun dollar name behind one => refers ⟨dollar, name, behind, one⟩) others⟩

theorem Reads.head (reads : Reads s reading) {c : Char} (first : reading.head? = some (.char c)) :
    s.head? = some c := by
  cases reads <;> simp_all

theorem Reads.of_no_references (reads : Reads s reading)
    (none : ∀ name, TemplatePart.reference name ∉ reading) : reading = s.map .char := by
  induction reads with
  | nil => rfl
  | char _ _ ih =>
    rw [ih fun name member => none name (List.mem_cons_of_mem _ member), List.map_cons]
  | reference => exact absurd List.mem_cons_self (none _)

theorem parts_char {c : Char} (plain : c ≠ '$') :
    Template.parts (c :: rest) = .char c :: Template.parts rest := by
  rw [Template.parts, if_neg plain]

theorem parts_braced (body : List Char) : Template.parts ('$' :: '\x7b' :: body) =
    partOfName (body.takeWhile (· != '\x7d')) ::
      Template.parts ((body.dropWhile (· != '\x7d')).drop 1) := by
  rw [Template.parts, if_pos rfl]
  rfl

theorem parts_bare (unbraced : after.head? ≠ some '\x7b') : Template.parts ('$' :: after) =
    partOfName (after.takeWhile isNameChar) :: Template.parts (after.dropWhile isNameChar) := by
  rw [Template.parts, if_pos rfl, if_neg unbraced]

theorem partOfName_of_ne_nil (named : name ≠ []) :
    partOfName name = .reference (String.ofList name) := by
  rw [partOfName, if_neg (by simpa using named)]

theorem no_closing_brace (inside : '\x7d' ∉ name) : ∀ c ∈ name, (c != '\x7d') = true := by
  intro c member
  exact bne_iff_ne.mpr fun brace => inside (brace ▸ member)

theorem parts_closed (inside : '\x7d' ∉ name) :
    Template.parts ('$' :: '\x7b' :: (name ++ '\x7d' :: rest)) =
      partOfName name :: Template.parts rest := by
  have ends : ∀ c ∈ ('\x7d' :: rest).head?, (c != '\x7d') = false := by simp
  obtain ⟨run, behind⟩ := run_in_front (no_closing_brace inside) ends
  rw [parts_braced, run, behind, List.drop_one, List.tail_cons]

theorem parts_unclosed (unclosed : '\x7d' ∉ body) :
    Template.parts ('$' :: '\x7b' :: body) = [partOfName body] := by
  have all := no_closing_brace unclosed
  rw [parts_braced, List.takeWhile_eq_self_iff.mpr all, List.dropWhile_eq_nil_iff.mpr all,
    List.drop_nil, Template.parts]

theorem parts_of_refers (refers : Refers after name rest) :
    Template.parts ('$' :: after) = .reference (String.ofList name) :: Template.parts rest := by
  by_cases braced : after.head? = some '\x7b'
  · obtain ⟨body, rfl⟩ := List.head?_eq_some_iff.mp braced
    obtain ⟨cut, named⟩ := refers_brace_iff.mp refers
    obtain ⟨rfl, inside⟩ := cut?_eq_some_iff.mp cut
    rw [parts_closed inside, partOfName_of_ne_nil named]
  · obtain ⟨rfl, rfl, named⟩ := (refers_bare_iff braced).mp refers
    rw [parts_bare braced, partOfName_of_ne_nil named]

theorem parts_lone (unbraced : after.head? ≠ some '\x7b')
    (plain : ∀ name behind, ¬Refers after name behind) :
    Template.parts ('$' :: after) = .char '$' :: Template.parts after := by
  have none : after.takeWhile isNameChar = [] := by
    refine Decidable.not_not.mp fun named => ?_
    exact plain _ _ ((refers_bare_iff unbraced).mpr ⟨rfl, rfl, named⟩)
  have all := List.takeWhile_append_dropWhile (p := isNameChar) (l := after)
  rw [none, List.nil_append] at all
  rw [parts_bare unbraced, none, all]
  rfl

/-- Whether a dollar sign and an opening brace are copied one behind the other: the braces are
empty, or not closed. -/
def HasVoidBraces (reading : List TemplatePart) : Prop :=
  [.char '$', .char '\x7b'] <:+: reading

theorem hasVoidBraces_cons_iff {part : TemplatePart} : HasVoidBraces (part :: reading) ↔
    part = .char '$' ∧ reading.head? = some (.char '\x7b') ∨ HasVoidBraces reading := by
  rw [HasVoidBraces, List.infix_cons_iff, List.cons_prefix_cons, eq_comm]
  refine or_congr (and_congr_right fun _ => ?_) Iff.rfl
  cases reading <;> simp [eq_comm]

theorem Reads.head_brace (reads : Reads ('\x7b' :: body) reading) :
    reading.head? = some (.char '\x7b') := by
  cases reads
  rfl

theorem length_parts_void (plain : ∀ name behind, ¬Refers ('\x7b' :: body) name behind) :
    (Template.parts ('$' :: '\x7b' :: body)).length ≤
      (Template.parts ('\x7b' :: body)).length := by
  rw [parts_char (c := '\x7b') (by decide), List.length_cons]
  cases cut : cut? '\x7d' body with
  | none =>
    rw [parts_unclosed ((cut?_eq_none_iff _ _).mp cut), List.length_singleton]
    omega
  | some around =>
    obtain ⟨name, behind⟩ := around
    have empty : name = [] := by
      refine Decidable.not_not.mp fun named => ?_
      exact plain name behind (refers_brace_iff.mpr ⟨cut, named⟩)
    obtain ⟨rfl, inside⟩ := cut?_eq_some_iff.mp cut
    rw [parts_closed inside, empty, List.nil_append, parts_char (c := '\x7d') (by decide),
      List.length_cons, List.length_cons]
    omega

/-- The parts of a text are its reading, unless there are void braces in it: then they are fewer. -/
theorem parts_of_reads (reads : Reads s reading) :
    ¬HasVoidBraces reading ∧ Template.parts s = reading ∨
      HasVoidBraces reading ∧ (Template.parts s).length < reading.length := by
  induction reads with
  | nil => exact Or.inl ⟨by simp [HasVoidBraces], by rw [Template.parts]⟩
  | @reference after name rest parts refers _ ih =>
    rw [parts_of_refers refers, hasVoidBraces_cons_iff]
    simpa using ih
  | @char c rest parts plain others ih =>
    by_cases dollar : c = '$'
    · subst dollar
      by_cases braced : rest.head? = some '\x7b'
      · obtain ⟨body, rfl⟩ := List.head?_eq_some_iff.mp braced
        have fewer : (Template.parts ('\x7b' :: body)).length ≤ parts.length := by
          rcases ih with ⟨_, same⟩ | ⟨_, less⟩
          · rw [same]
          · exact Nat.le_of_lt less
        refine Or.inr ⟨hasVoidBraces_cons_iff.mpr (Or.inl ⟨rfl, others.head_brace⟩), ?_⟩
        exact Nat.lt_succ_of_le ((length_parts_void (plain rfl)).trans fewer)
      · have unbraced : parts.head? ≠ some (.char '\x7b') := fun first => braced (others.head first)
        rw [parts_lone braced (plain rfl), hasVoidBraces_cons_iff]
        simpa [unbraced] using ih
    · rw [parts_char dollar, hasVoidBraces_cons_iff]
      simpa [dollar] using ih

theorem parts_eq_reading_iff (reads : Reads s reading) :
    Template.parts s = reading ↔ ¬HasVoidBraces reading := by
  rcases parts_of_reads reads with ⟨sound, same⟩ | ⟨void, fewer⟩
  · exact iff_of_true same sound
  · refine iff_of_false (fun same => ?_) (not_not_intro void)
    rw [same] at fewer
    exact Nat.lt_irrefl _ fewer

def standsFor (environment : String → Option String) : TemplatePart → List Char
  | .char c => [c]
  | .reference name => ((environment name).getD "").toList

def isUnset (environment : String → Option String) : TemplatePart → Bool
  | .char _ => false
  | .reference name => (environment name).isNone

variable {environment : String → Option String}

theorem fill_eq_ok_iff {filled : List Char} : fill environment parts = .ok filled ↔
    (∀ part ∈ parts, isUnset environment part = false) ∧
      parts.flatMap (standsFor environment) = filled := by
  induction parts generalizing filled with
  | nil => simp [fill]
  | cons part rest ih =>
    rw [List.forall_mem_cons, List.flatMap_cons]
    cases part with
    | char c => simp [fill, map_eq_ok_iff, ih, isUnset, standsFor, and_assoc]
    | reference name =>
      cases value : environment name with
      | none => simp [fill, isUnset, value]
      | some text => simp [fill, value, map_eq_ok_iff, ih, isUnset, standsFor, and_assoc]

theorem fill_eq_error_iff {name : String} : fill environment parts = .error name ↔
    parts.find? (isUnset environment) = some (.reference name) := by
  induction parts with
  | nil => simp [fill]
  | cons part rest ih =>
    cases part with
    | char c => simp [fill, map_eq_error_iff, ih, isUnset]
    | reference other =>
      cases value : environment other with
      | none => simp [fill, isUnset, value]
      | some text => simp [fill, value, map_eq_error_iff, ih, isUnset]

/-- Every text is read in one way, and expanding it puts in values for this reading exactly when it
has no void braces. -/
theorem expansion_faithful_iff_braces_name (text : String) :
    ∃ reading, (∀ parts, Reads text.toList parts ↔ parts = reading) ∧
      (Template.parts text.toList = reading ↔ ¬HasVoidBraces reading) ∧
      (¬HasVoidBraces reading → ∀ environment : String → Option String,
        (∀ result, expand environment text = .ok result ↔
          (∀ part ∈ reading, isUnset environment part = false) ∧
            result.toList = reading.flatMap (standsFor environment)) ∧
        (∀ name, expand environment text = .error name ↔
          reading.find? (isUnset environment) = some (.reference name)) ∧
        ((∀ name, .reference name ∉ reading) → expand environment text = .ok text)) := by
  obtain ⟨reading, reads⟩ := exists_reads text.toList
  refine ⟨reading, ?_, parts_eq_reading_iff reads, ?_⟩
  · intro parts
    constructor
    · exact fun again => again.unique reads
    · rintro rfl
      exact reads
  · intro sound environment
    have ok (result : String) : expand environment text = .ok result ↔
        (∀ part ∈ reading, isUnset environment part = false) ∧
          result.toList = reading.flatMap (standsFor environment) := by
      rw [expand, map_eq_ok_iff, (parts_eq_reading_iff reads).mpr sound]
      simp only [fill_eq_ok_iff]
      constructor
      · rintro ⟨_, ⟨set, rfl⟩, rfl⟩
        exact ⟨set, String.toList_ofList⟩
      · rintro ⟨set, filled⟩
        exact ⟨_, ⟨set, rfl⟩, by rw [← filled, String.ofList_toList]⟩
    refine ⟨ok, ?_, ?_⟩
    · intro name
      rw [expand, map_eq_error_iff, (parts_eq_reading_iff reads).mpr sound, fill_eq_error_iff]
    · intro none
      rw [ok, reads.of_no_references none]
      simp [isUnset, List.flatMap_map, standsFor]

theorem names_expanded_dollar_kept :
    expand (fun name => if name = "A" then some "$B" else some "c") "$\x7bA\x7d$B/$" =
      .ok "$Bc/$" := by
  have braced : Refers ['\x7b', 'A', '\x7d', '$', 'B', '/', '$'] ['A'] ['$', 'B', '/', '$'] :=
    refers_brace_iff.mpr ⟨rfl, by simp⟩
  have bare : Refers ['B', '/', '$'] ['B'] ['/', '$'] :=
    (refers_bare_iff (by decide)).mpr ⟨by decide +kernel, by decide +kernel, by decide⟩
  have lone (name behind : List Char) : ¬Refers [] name behind := by
    rw [refers_bare_iff (by decide)]
    rintro ⟨rfl, _, named⟩
    exact named rfl
  have reads : Reads "$\x7bA\x7d$B/$".toList
      [.reference "A", .reference "B", .char '/', .char '$'] :=
    .reference braced (.reference bare (.char (by simp) (.char (fun _ => lone) .nil)))
  obtain ⟨reading, unique, _, faithful⟩ := expansion_faithful_iff_braces_name "$\x7bA\x7d$B/$"
  obtain rfl := (unique _).mp reads
  have expanded := (faithful (by simp [HasVoidBraces, List.infix_cons_iff])
    fun name => if name = "A" then some "$B" else some "c").1 "$Bc/$"
  exact expanded.mpr ⟨by decide, rfl⟩

/-- Neither empty braces nor an open one name a variable, but the first are lost and what is behind
the second is taken for a name. -/
theorem void_braces_not_copied :
    (Reads ['a', '$', '\x7b', '\x7d', 'b']
        [.char 'a', .char '$', .char '\x7b', .char '\x7d', .char 'b'] ∧
      expand (fun _ => none) "a$\x7b\x7db" = .ok "a$b") ∧
    Reads ['$', '\x7b', 'A'] [.char '$', .char '\x7b', .char 'A'] ∧
      expand (fun _ => some "v") "$\x7bA" = .ok "v" := by
  have empty (name behind : List Char) : ¬Refers ['\x7b', '\x7d', 'b'] name behind := by
    rw [refers_brace_iff]
    rintro ⟨cut, named⟩
    simp only [cut?, ↓reduceIte, Option.some.injEq, Prod.mk.injEq] at cut
    exact named cut.1.symm
  have opened (name behind : List Char) : ¬Refers ['\x7b', 'A'] name behind := by
    simp [refers_brace_iff, cut?]
  refine ⟨⟨?_, ?_⟩, ?_, ?_⟩
  · exact .char (by simp) (.char (fun _ => empty)
      (.char (by simp) (.char (by simp) (.char (by simp) .nil))))
  · cbv
  · exact .char (fun _ => opened) (.char (by simp) (.char (by simp) .nil))
  · cbv

end AggregateQuery.Template
