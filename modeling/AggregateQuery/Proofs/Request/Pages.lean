import AggregateQuery.Proofs.Data.Reading
import AggregateQuery.Proofs.Number.WrittenDigits
import AggregateQuery.Request.Parameter
/-!
The pages of a result. Those of one size stand behind one another from the first row on, without a
gap and without a row on two of them, as far as page numbers go; and where a page begins and where
it ends are numbers that words of 64 bits hold.
-/
namespace AggregateQuery

open Text

namespace Positive

theorem ext_value {a b : Positive} (same : a.value = b.value) : a = b := by
  cases a
  cases b
  cases same
  rfl

def word (count : Positive) : UInt32 := UInt32.ofNatLT count.value count.bounded

@[simp] theorem toNat_word (count : Positive) : count.word.toNat = count.value :=
  UInt32.toNat_ofNatLT

theorem parse_natChars (count : Positive) :
    parse (String.ofList (natChars count.value)) = .ok count := by
  have trimmed : trim (natChars count.value) = natChars count.value :=
    trim_of_no_blanks fun c member => visible_of_digit (digits_natChars _ c member)
  have made : ofNat? count.value = some count := dif_pos ⟨count.positive, count.bounded⟩
  rw [parse, parse?, String.toList_ofList, trimmed, readNat?_natChars count.bounded,
    Option.bind_some, made]
  rfl

end Positive

namespace Page

variable {p q : Page} {row : Nat}

/-- The offset as it is computed in words: of 32 bits for the number of the page, and of 64 bits
for the product. -/
def wordOffset (p : Page) : UInt64 := (p.page.word - 1).toUInt64 * p.perPage.word.toUInt64

def Shows (p : Page) (row : Nat) : Prop := p.offset ≤ row ∧ row < p.offset + p.perPage.value

theorem parse_eq_ok_iff {perPage page : String} : parse perPage page = .ok p ↔
    Positive.parse perPage = .ok p.perPage ∧ Positive.parse page = .ok p.page := by
  simp only [parse, bind_eq_ok_iff, pure_eq_ok_iff]
  constructor
  · rintro ⟨size, first, number, second, rfl⟩
    exact ⟨first, second⟩
  · rintro ⟨first, second⟩
    exact ⟨p.perPage, first, p.page, second, rfl⟩

theorem offset_add_perPage (p : Page) :
    p.offset + p.perPage.value = p.page.value * p.perPage.value := by
  rw [offset, ← Nat.succ_mul, Nat.succ_eq_add_one, Nat.sub_add_cancel p.page.positive]

theorem stop_fits (p : Page) : p.offset + p.perPage.value < 2 ^ 64 := by
  calc p.offset + p.perPage.value
    _ = p.page.value * p.perPage.value := p.offset_add_perPage
    _ < countLimit * countLimit := Nat.mul_lt_mul'' p.page.bounded p.perPage.bounded
    _ = 2 ^ 64 := rfl

theorem toNat_wordOffset (p : Page) : p.wordOffset.toNat = p.offset := by
  have first : (1 : UInt32) ≤ p.page.word := by
    rw [UInt32.le_iff_toNat_le, Positive.toNat_word]
    exact p.page.positive
  have earlier : (p.page.word - 1).toNat = p.page.value - 1 := by
    rw [UInt32.toNat_sub_of_le _ _ first, Positive.toNat_word]
    rfl
  have fits := p.stop_fits
  rw [wordOffset, UInt64.toNat_mul, UInt32.toNat_toUInt64, UInt32.toNat_toUInt64, earlier,
    Positive.toNat_word]
  exact Nat.mod_eq_of_lt (Nat.lt_of_le_of_lt (Nat.le_add_right _ _) fits)

theorem offset_of_next (sameSize : q.perPage = p.perPage)
    (next : q.page.value = p.page.value + 1) : q.offset = p.offset + p.perPage.value := by
  rw [p.offset_add_perPage, offset, sameSize, next, Nat.add_sub_cancel]

theorem shows_iff : p.Shows row ↔ row / p.perPage.value + 1 = p.page.value := by
  have whole := Nat.div_eq_iff (x := row) (y := p.page.value - 1) p.perPage.positive
  have first := p.page.positive
  have some := p.perPage.positive
  rw [Shows, offset]
  omega

theorem shows_offset (p : Page) : p.Shows p.offset :=
  ⟨Nat.le_refl _, Nat.lt_add_of_pos_right p.perPage.positive⟩

theorem shown_once (sameSize : q.perPage = p.perPage) (shows : p.Shows row)
    (showsToo : q.Shows row) : q = p := by
  rw [shows_iff] at shows showsToo
  have sameNumber : q.page = p.page := by
    apply Positive.ext_value
    rw [← shows, ← showsToo, sameSize]
  cases p
  cases q
  cases sameSize
  cases sameNumber
  rfl

theorem eq_of_same_offset (sameSize : q.perPage = p.perPage) (same : q.offset = p.offset) :
    q = p :=
  shown_once sameSize p.shows_offset (same ▸ q.shows_offset)

theorem exists_shows_iff (size : Positive) :
    (∃ number : Positive, Shows ⟨size, number⟩ row) ↔ row / size.value < 2 ^ 32 - 1 := by
  simp only [shows_iff]
  constructor
  · rintro ⟨number, same⟩
    have bounded : number.value < 2 ^ 32 := number.bounded
    omega
  · intro below
    exact ⟨⟨row / size.value + 1, Nat.succ_pos _, Nat.add_lt_of_lt_sub below⟩, rfl⟩

/-- Pages that are asked for begin and end at numbers of 64 bits, which the words that compute them
give. The first begins with the first row and each one where the one in front ends; no row is on two
of a size, no two of a size begin alike, and the rows on pages that can be asked for are those in
front of which fewer than `2 ^ 32 - 1` whole pages are. -/
theorem pages_tile_rows {perPage page : String} (read : parse perPage page = .ok p) :
    (p.offset + p.perPage.value < 2 ^ 64 ∧ p.wordOffset.toNat = p.offset) ∧
    (p.page = .one → p.offset = 0) ∧
    (∀ q : Page, q.perPage = p.perPage →
      (q.page.value = p.page.value + 1 → q.offset = p.offset + p.perPage.value) ∧
      (∀ row, p.Shows row → q.Shows row → q = p) ∧
      (q.offset = p.offset → q = p)) ∧
    ∀ row, (∃ number q, parse perPage number = .ok q ∧ q.Shows row) ↔
      row / p.perPage.value < 2 ^ 32 - 1 := by
  refine ⟨⟨p.stop_fits, p.toNat_wordOffset⟩, ?_, ?_, ?_⟩
  · intro first
    rw [offset, first]
    exact Nat.zero_mul _
  · intro q sameSize
    exact ⟨offset_of_next sameSize, fun row => shown_once sameSize, eq_of_same_offset sameSize⟩
  · intro row
    obtain ⟨size, _⟩ := parse_eq_ok_iff.mp read
    rw [← exists_shows_iff]
    constructor
    · rintro ⟨number, q, readToo, shows⟩
      obtain ⟨sizeToo, _⟩ := parse_eq_ok_iff.mp readToo
      have sameSize : q.perPage = p.perPage := Except.ok.inj (sizeToo.symm.trans size)
      exact ⟨q.page, sameSize ▸ shows⟩
    · rintro ⟨number, shows⟩
      exact ⟨_, ⟨p.perPage, number⟩, parse_eq_ok_iff.mpr ⟨size, number.parse_natChars⟩, shows⟩

theorem largest_pages_fit : ∃ p, parse " +4294967295" "04294967295" = .ok p ∧
    p.offset = 18446744060824649730 ∧ p.wordOffset.toNat = p.offset ∧
    (∃ number q, parse " +4294967295" number = .ok q ∧ q.Shows 18446744065119617024) ∧
    ¬∃ number q, parse " +4294967295" number = .ok q ∧ q.Shows 18446744065119617025 := by
  have read : parse " +4294967295" "04294967295" =
      .ok ⟨⟨4294967295, by decide, by decide⟩, ⟨4294967295, by decide, by decide⟩⟩ := by
    decide +kernel
  obtain ⟨⟨_, inWords⟩, _, _, reached⟩ := pages_tile_rows read
  exact ⟨_, read, rfl, inWords, (reached _).mpr (by decide), mt (reached _).mp (by decide)⟩

end Page

end AggregateQuery
