import Verdict.Proofs.Numeric.Ascii
import Verdict.Proofs.Yaml.Word
/-!
# Numerals as scalars

A numeral in ASCII is a word, so a document of a numeral holds one scalar. By its form this is a
floating-point number, an integer or a text (`formTag_of_writes`). A numeral with a point or an
exponent is never an integer, and one without is no floating-point number; what has neither form is
a text, which writes the numeral all the same. So the number is kept (`value_of_writes`), unless the
text is a zero and further digits below eight: these are read in base eight (`IsOctal.value`).
-/

namespace Verdict.Yaml

open Text
open Numeral (SignOf)

variable {cs : List Char} {n : Numeral}

/-! ## The word -/

theorem isWord_of_writes (h : n.Writes cs) (hascii : ∀ c ∈ cs, c.toNat < 128) : IsWord cs := by
  refine ⟨fun c hc => ?_, ?_⟩
  · have hmarks : Numeral.marks.all isNumberChar = true := by decide
    rcases h.mem_cases c hc with hdigit | hmark
    · have hdigit := isDigit_of_ascii (hascii c hc) hdigit
      simp only [isNumberChar, hdigit, Bool.true_or]
    · exact List.all_eq_true.1 hmarks c hmark
  · obtain ⟨c, hc, hdigit⟩ := h.exists_digit
    exact ⟨c, hc, isDigit_of_ascii (hascii c (List.mem_of_mem_take hc)) hdigit⟩

/-! ## Forms -/

namespace Tag

theorem afterSign_eq (cs : List Char) : afterSign cs = (Numeral.sign cs).2 := by
  unfold afterSign
  split
  · rfl
  · rfl
  · next hplus hminus => rw [Numeral.sign_of_ne hplus hminus]

theorem afterSign_subset (cs : List Char) : afterSign cs ⊆ cs := by
  rw [afterSign_eq]
  exact Numeral.sign_subset cs

/-- A text with a digit is none without. -/
theorem ne_of_digit {text : String} (hdigit : ∃ c ∈ cs, c.isDigit = true)
    (htext : (text.toList.all fun c => !c.isDigit) = true) : String.ofList cs ≠ text := by
  rintro rfl
  obtain ⟨c, hc, hdigit⟩ := hdigit
  rw [String.toList_ofList] at htext
  have hother := List.all_eq_true.1 htext c hc
  rw [hdigit] at hother
  cases hother

theorem contains_eq_false {texts : List String} (hdigit : ∃ c ∈ cs, c.isDigit = true)
    (htexts : (texts.all fun t => t.toList.all fun c => !c.isDigit) = true) :
    texts.contains (String.ofList cs) = false := by
  rw [← Bool.not_eq_true, List.contains_iff_mem]
  exact fun hmem => ne_of_digit hdigit (List.all_eq_true.1 htexts _ hmem) rfl

theorem isTruth_eq_false (hdigit : ∃ c ∈ cs, c.isDigit = true) :
    isTruth (String.ofList cs) = false := by
  refine List.any_eq_false.2 fun e he => ?_
  rw [contains_eq_false hdigit]
  · exact Bool.false_ne_true
  · have hspellings : (truthSpellings.all fun e =>
        (threeCases e.1).all fun t => t.toList.all fun c => !c.isDigit) = true := by decide
    exact List.all_eq_true.1 hspellings e he

theorem sixtieths_eq_false {tail : List Char → Bool} (hcolon : ':' ∉ cs) :
    sixtieths tail cs = false := by
  unfold sixtieths
  split
  · exact absurd List.mem_cons_self hcolon
  · rfl

/-- Without a point and a colon a text is no floating-point number. -/
theorem isFloat_eq_false (hpoint : '.' ∉ cs) (hcolon : ':' ∉ cs) : isFloat cs = false := by
  -- the names of infinity and of what is no number all hold a point
  have hnames : ∀ {texts : List String} {ds : List Char}, ds ⊆ cs →
      (texts.all fun t => t.toList.contains '.') = true →
      texts.contains (String.ofList ds) = false := by
    intro texts ds hds htexts
    rw [← Bool.not_eq_true, List.contains_iff_mem]
    intro hmem
    have hcontains := List.all_eq_true.1 htexts _ hmem
    rw [String.toList_ofList, List.contains_iff_mem] at hcontains
    exact hpoint (hds hcontains)
  have hsubset := afterSign_subset cs
  unfold isFloat
  dsimp only
  simp only [Bool.or_eq_false_iff]
  refine ⟨⟨⟨hnames (List.Subset.refl cs) (by decide), hnames hsubset (by decide)⟩, ?_⟩, ?_⟩
  · split
    · exact absurd List.mem_cons_self hpoint
    · rfl
  · split
    · next c rest heq =>
      rw [heq] at hsubset
      have htail : rest.dropWhile isDigitOrLow ⊆ cs := fun x hx =>
        hsubset (List.mem_cons_of_mem _ ((List.dropWhile_suffix _).subset hx))
      rw [Bool.and_eq_false_iff, Bool.or_eq_false_iff]
      refine .inr ⟨?_, sixtieths_eq_false fun h => hcolon (htail h)⟩
      split
      · next more hmore =>
        rw [hmore] at htail
        exact absurd (htail List.mem_cons_self) hpoint
      · rfl
    · rfl

/-- A text of the characters of numbers with another one than a digit behind its sign is no integer.
-/
theorem isInt_eq_false (hcs : ∀ c ∈ cs, isNumberChar c = true)
    (hmark : ∃ c ∈ afterSign cs, ¬ c.isDigit = true) : isInt cs = false := by
  have hcolon : ':' ∉ cs := fun h => notMem_otherMarks (hcs _ h) (by decide)
  have hlow : '_' ∉ cs := fun h => absurd (hcs _ h) (by decide)
  have hsubset := afterSign_subset cs
  obtain ⟨m, hm, hmark⟩ := hmark
  unfold isInt
  split
  · next heq =>
    rw [heq, List.mem_singleton] at hm
    rw [hm] at hmark
    exact absurd (by decide) hmark
  · next heq =>
    rw [heq] at hsubset
    exact absurd (hcs 'b' (hsubset (List.mem_cons_of_mem _ List.mem_cons_self))) (by decide)
  · next heq =>
    rw [heq] at hsubset
    exact absurd (hcs 'x' (hsubset (List.mem_cons_of_mem _ List.mem_cons_self))) (by decide)
  · next rest _ _ _ heq =>
    -- digits of base eight are digits
    rw [heq] at hm hsubset
    rw [Bool.eq_false_iff, Ne, List.all_eq_true]
    intro hall
    rcases List.mem_cons.1 hm with rfl | hm
    · exact hmark (by decide)
    · have hoctal := hall m hm
      simp only [Bool.or_eq_true, Bool.and_eq_true, decide_eq_true_eq] at hoctal
      rcases hoctal with hoctal | rfl
      · exact hmark (isDigit_of_le_seven hoctal)
      · exact hlow (hsubset (List.mem_cons_of_mem _ hm))
  · next c rest _ _ _ _ heq =>
    rw [heq] at hm hsubset
    have htail : rest.dropWhile isDigitOrLow ⊆ cs := fun x hx =>
      hsubset (List.mem_cons_of_mem _ ((List.dropWhile_suffix _).subset hx))
    rw [Bool.and_eq_false_iff, Bool.or_eq_false_iff]
    by_cases hc : c.isDigit = true
    · refine .inr ⟨?_, sixtieths_eq_false fun h => hcolon (htail h)⟩
      rw [Bool.eq_false_iff, Ne, List.isEmpty_iff, List.dropWhile_eq_nil_iff]
      intro hall
      rcases List.mem_cons.1 hm with rfl | hm
      · exact hmark hc
      · have hdigit := hall m hm
        rw [isDigitOrLow, Bool.or_eq_true, decide_eq_true_eq] at hdigit
        rcases hdigit with hdigit | rfl
        · exact hmark hdigit
        · exact hlow (hsubset (List.mem_cons_of_mem _ hm))
    · exact .inl (Bool.eq_false_iff.2 hc)
  · rfl

/-- A zero and further digits are an integer when all of them are digits of base eight. -/
theorem isInt_of_zero {ds : List Char} (hcs : afterSign cs = '0' :: ds)
    (hds : ∀ c ∈ ds, c.isDigit = true) :
    isInt cs = true ↔ ∀ c ∈ ds, '0' ≤ c ∧ c ≤ '7' := by
  unfold isInt
  rw [hcs]
  -- the digits rule out the marks of binary and hexadecimal numbers, which leaves octal ones
  split
  · next heq =>
    cases heq
    exact ⟨fun _ => List.forall_mem_nil _, fun _ => rfl⟩
  · next heq =>
    cases heq
    exact absurd (hds 'b' List.mem_cons_self) (by decide)
  · next heq =>
    cases heq
    exact absurd (hds 'x' List.mem_cons_self) (by decide)
  · next rest _ _ _ heq =>
    cases heq
    rw [List.all_eq_true]
    refine forall₂_congr fun c hc => ?_
    have hlow : c ≠ '_' := by
      rintro rfl
      exact absurd (hds _ hc) (by decide)
    rw [decide_eq_false hlow, Bool.or_false, Bool.and_eq_true, decide_eq_true_eq, decide_eq_true_eq]
  · next hother heq =>
    cases heq
    exact (hother rfl).elim
  · next heq => cases heq

end Tag

namespace Timestamp

/-- A number of limited width is read from digits. -/
theorem of_number? {least most k : Nat} {cs rest : List Char}
    (h : number? least most cs = some (k, rest)) :
    ∃ digits, cs = digits ++ rest ∧ (∀ c ∈ digits, c.isDigit = true) ∧ least ≤ digits.length := by
  unfold number? at h
  dsimp only at h
  split at h
  · cases h
  · next hleast =>
    cases h
    have hfront : (cs.takeWhile Char.isDigit).take most <+: cs :=
      (List.take_prefix _ _).trans (List.takeWhile_prefix _)
    exact ⟨_, (List.prefix_iff_eq_append.1 hfront).symm,
      fun c hc => List.mem_takeWhile_imp (List.mem_of_mem_take hc), Nat.not_lt.1 hleast⟩

/-- A timestamp has a minus behind its first digits, and so no numeral is one. -/
theorem isForm_eq_false (h : n.Writes cs) : isForm cs = false := by
  have hnone : ofChars? cs = none := by
    rw [← Option.not_isSome_iff_eq_none]
    intro hsome
    obtain ⟨t, ht⟩ := Option.isSome_iff_exists.1 hsome
    unfold ofChars? at ht
    obtain ⟨⟨year, rest⟩, hyear, ht⟩ := Option.bind_eq_some_iff.1 ht
    obtain ⟨more, hminus, -⟩ := Option.bind_eq_some_iff.1 ht
    obtain ⟨digits, rfl, hdigits, hlength⟩ := of_number? hyear
    cases rest with
    | nil => cases hminus
    | cons c rest =>
      simp only [behind?] at hminus
      split at hminus
      · next hc =>
        rw [hc] at h
        -- the year of a date ends at a hyphen, and no numeral goes on so
        refine Numeral.not_writes_minus (Numeral.digitsOf_of_isDigit hdigits) ?_ rest h
        exact List.ne_nil_of_length_pos (by omega)
      · cases hminus
  rw [isForm, hnone]

end Timestamp

/-- A numeral is a floating-point number, an integer or a text by its form. -/
theorem formTag_of_writes (h : n.Writes cs) (hascii : ∀ c ∈ cs, c.toNat < 128) :
    Node.formTag (String.ofList cs) =
      if Tag.isFloat cs then .float else if Tag.isInt cs then .int else .str := by
  have hword := isWord_of_writes h hascii
  have hdigit : ∃ c ∈ cs, c.isDigit = true := by
    obtain ⟨c, hc, hdigit⟩ := hword.digit
    exact ⟨c, List.mem_of_mem_take hc, hdigit⟩
  have hbreak : Node.dropFinalBreak cs = cs := by
    refine if_neg fun hlast => ?_
    exact absurd (hword.chars '\n' (List.mem_of_getLast? hlast.2)) (by decide)
  unfold Node.formTag
  rw [String.toList_ofList, hbreak]
  dsimp only
  rw [Tag.isTruth_eq_false hdigit, if_neg Bool.false_ne_true, Tag.isNull,
    Tag.contains_eq_false hdigit (by decide), Timestamp.isForm_eq_false h,
    Tag.contains_eq_false hdigit (by decide), if_neg (Tag.ne_of_digit hdigit (by decide)),
    if_neg Bool.false_ne_true, if_neg Bool.false_ne_true,
    if_neg (Tag.ne_of_digit hdigit (by decide)), if_neg Bool.false_ne_true]

/-! ## Values -/

/-- The value of a document of one scalar that is a number or a text. -/
theorem value_of_scalarValue {tag : Tag} {text : String} {v : Value}
    (htag : tag = .float ∨ tag = .int ∨ tag = .str) (h : scalarValue tag text = .ok v) :
    (Node.scalar tag text).value = .ok v := by
  rcases htag with rfl | rfl | rfl
  all_goals
    simp only [Node.value, Node.valueAt, Node.isCollectionTag, Node.scalarNodeValue, Node.tag,
      Node.scalarText?, h]
    rfl

/-- A numeral is parted into its sign and what stands behind it. -/
theorem unsigned_of_writes (h : n.Writes cs) :
    unsigned (String.ofList cs) = .ok (n.negative, (Numeral.sign cs).2) := by
  have hlow : cs.filter (· ≠ '_') = cs := by
    rw [List.filter_eq_self]
    intro c hc
    rw [decide_eq_true_eq]
    rintro rfl
    exact h.notMem (by decide) (by decide) hc
  have hne : cs ≠ [] := by
    rintro rfl
    obtain ⟨c, hc, -⟩ := h.exists_digit
    cases hc
  rw [← h.behind_sign.1, unsigned, String.toList_ofList, hlow]
  split
  · exact absurd rfl hne
  · rfl
  · rfl
  · next hminus hplus => rw [Numeral.sign_of_ne hplus hminus]

/-- **A numeral is read as a floating-point number** with the value that it writes. -/
theorem floatValue_of_writes (h : n.Writes cs) :
    floatValue (String.ofList cs) = .ok n.toBinary64 := by
  have hlowered : lowered (String.ofList cs) = String.ofList (cs.map Char.toLower) := by
    rw [lowered, String.toList_ofList]
  have hbody := h.map_toLower.behind_sign.2
  have hcolon : ((Numeral.sign (cs.map Char.toLower)).2.contains ':') = false := by
    rw [← Bool.not_eq_true, List.contains_iff_mem]
    exact hbody.notMem (by decide) (by decide)
  -- there is an `n` in the words for the infinities and for no number
  have hword : ∀ {text : String}, 'n' ∈ text.toList →
      String.ofList (Numeral.sign (cs.map Char.toLower)).2 ≠ text := by
    rintro text hn rfl
    rw [String.toList_ofList] at hn
    exact hbody.notMem (by decide) (by decide) hn
  have hread : Literal.decimal (String.ofList (Numeral.sign (cs.map Char.toLower)).2) =
      .ok (Numeral.toBinary64 ⟨false, n.whole, n.fraction, n.exponent⟩) := by
    refine Literal.decimal_of_ofChars? ?_
    rw [Literal.core_of_forall, String.toList_ofList, Numeral.ofChars?_eq_some_iff]
    · exact hbody
    · rw [String.toList_ofList]
      exact hbody.isBlank_eq_false
  unfold floatValue
  rw [hlowered, unsigned_of_writes h.map_toLower]
  simp only [bind, Except.bind, pure, Except.pure]
  rw [if_neg (hword (by decide)), if_neg (hword (by decide)), hcolon, if_neg Bool.false_ne_true,
    hread]
  dsimp only
  rw [Numeral.toBinary64_of_sign]

/-- **A zero and further digits below eight are read in base eight.** -/
theorem intValue_of_octal (h : n.Writes cs) {ds : List Char}
    (hbody : (Numeral.sign cs).2 = '0' :: ds) (hds : ∀ c ∈ ds, '0' ≤ c ∧ c ≤ '7') :
    intValue (String.ofList cs) =
      .ok (if n.negative then -(Nat.ofDigitChars 8 ds 0 : Int) else Nat.ofDigitChars 8 ds 0) := by
  have hdigits : ∀ c ∈ '0' :: ds, c.isDigit = true :=
    List.forall_mem_cons.2 ⟨by decide, fun c hc => isDigit_of_le_seven (hds c hc)⟩
  have hbase : ∀ c ∈ '0' :: ds, c.toNat - '0'.toNat < 8 :=
    List.forall_mem_cons.2 ⟨by decide, fun c hc => value_lt_of_le_seven (hds c hc)⟩
  have hread : Literal.integer 8 (String.ofList ('0' :: ds)) =
      .ok (Nat.ofDigitChars 8 ds 0 : Int) := by
    rw [Literal.integer_of_isDigit hdigits (List.cons_ne_nil _ _) hbase fun h =>
      absurd h (by decide), Nat.ofDigitChars_cons]
    rfl
  -- of all that a leading zero can begin, only octal digits are left
  unfold intValue
  rw [unsigned_of_writes h, hbody]
  simp only [bind, Except.bind, pure, Except.pure]
  split
  · next heq => cases heq
  · next heq =>
    cases heq
    rfl
  · next heq =>
    cases heq
    exact absurd (hdigits 'b' (List.mem_cons_of_mem _ List.mem_cons_self)) (by decide)
  · next heq =>
    cases heq
    exact absurd (hdigits 'x' (List.mem_cons_of_mem _ List.mem_cons_self)) (by decide)
  · rw [hread]
  · next hother => exact absurd rfl (hother ds)

/-- **Digits without a zero in front are read in base ten.** -/
theorem intValue_of_decimal (h : n.Writes cs) (hascii : ∀ c ∈ cs, c.toNat < 128)
    (hwhole : n.isWhole = true) (hshort : n.whole.length ≤ digitLimit)
    (hbody : ∀ ds, (Numeral.sign cs).2 ≠ '0' :: ds) :
    intValue (String.ofList cs) = .ok n.toInt := by
  obtain ⟨hvalues, hne⟩ := h.digits_behind_sign hwhole
  have hdigits := hvalues.isDigit fun c hc => hascii c (Numeral.sign_subset cs hc)
  have hread : Literal.integer 10 (String.ofList (Numeral.sign cs).2) =
      .ok (Nat.ofDigitChars 10 (Numeral.sign cs).2 0 : Int) :=
    Literal.integer_of_isDigit hdigits hne (fun c hc => value_lt_ten_of_isDigit (hdigits c hc))
      fun _ => hvalues.length_eq ▸ hshort
  have hcolon : ((Numeral.sign cs).2.contains ':') = false := by
    rw [← Bool.not_eq_true, List.contains_iff_mem]
    exact fun hmem => absurd (hdigits _ hmem) (by decide)
  unfold intValue
  rw [unsigned_of_writes h, h.toInt_eq hascii hwhole]
  simp only [bind, Except.bind, pure, Except.pure]
  -- without a leading zero no other base comes into question, nor do sixtieths without a colon
  split
  · next heq => exact absurd heq hne
  · next heq => exact absurd heq (hbody _)
  · next heq => exact absurd heq (hbody _)
  · next heq => exact absurd heq (hbody _)
  · next heq => exact absurd heq (hbody _)
  · rw [hcolon, if_neg Bool.false_ne_true, hread]

/-- Whether characters are a zero and further digits below eight behind an optional sign. -/
def IsOctal (negative : Bool) (ds cs : List Char) : Prop :=
  (∃ s, SignOf negative s ∧ cs = s ++ '0' :: ds) ∧ ∀ c ∈ ds, '0' ≤ c ∧ c ≤ '7'

/-- An integer by its sign and its magnitude. -/
def signed (negative : Bool) (magnitude : Nat) : Int := if negative then -magnitude else magnitude

/-- A whole numeral has not the form of a floating-point number. -/
theorem isFloat_of_isWhole (h : n.Writes cs) (hwhole : n.isWhole = true) :
    Tag.isFloat cs = false := by
  refine Tag.isFloat_eq_false ?_ (h.notMem (by decide) (by decide))
  obtain ⟨s, whole, rfl, signed, digits, -⟩ :=
    Numeral.exists_of_isWhole (Numeral.ofChars?_eq_some_iff.2 h) hwhole
  generalize n.negative = negative at signed
  rw [List.mem_append, not_or]
  constructor
  · cases signed <;> decide
  · exact fun hmem => absurd (digits.isDecimalDigit _ hmem) (by decide)

variable {negative : Bool} {ds : List Char}

/-- The parts of a numeral in base eight. -/
theorem IsOctal.parts (h : IsOctal negative ds cs) (hwrites : n.Writes cs) :
    n.negative = negative ∧ (Numeral.sign cs).2 = '0' :: ds ∧ n.isWhole = true := by
  obtain ⟨⟨s, signed, rfl⟩, hds⟩ := h
  have hbegins : Numeral.Begins (fun c => c ≠ '+' ∧ c ≠ '-') ('0' :: ds) := by
    rintro c ⟨⟩
    exact ⟨by decide, by decide⟩
  have hsign := Numeral.sign_append signed hbegins
  refine ⟨?_, by rw [hsign], hwrites.isWhole_of_forall ?_⟩
  · rw [← hwrites.behind_sign.1, hsign]
  · rw [hsign]
    exact List.forall_mem_cons.2 ⟨by decide, fun c hc =>
      isDecimalDigit_of_isDigit (isDigit_of_le_seven (hds c hc))⟩

/-- A zero and digits of base eight make the integer that they write in that base. -/
theorem IsOctal.value (h : IsOctal negative ds cs) (hwrites : n.Writes cs)
    (hascii : ∀ c ∈ cs, c.toNat < 128) :
    (Node.scalar (Node.formTag (String.ofList cs)) (String.ofList cs)).value =
      .ok (.int (signed negative (Nat.ofDigitChars 8 ds 0))) := by
  obtain ⟨rfl, hbody, hwhole⟩ := h.parts hwrites
  have hint : Tag.isInt cs = true :=
    (Tag.isInt_of_zero (by rw [Tag.afterSign_eq, hbody]) fun c hc =>
      isDigit_of_le_seven (h.2 c hc)).2 h.2
  rw [formTag_of_writes hwrites hascii, isFloat_of_isWhole hwrites hwhole, hint,
    if_neg Bool.false_ne_true, if_pos rfl]
  refine value_of_scalarValue (.inr (.inl rfl)) ?_
  rw [scalarValue, intValue_of_octal hwrites hbody h.2]
  rfl

/-- Characters are digits of base eight in one way at most. -/
theorem IsOctal.unique {other : Bool} {es : List Char} (h : IsOctal negative ds cs)
    (hother : IsOctal other es cs) (hwrites : n.Writes cs) : other = negative ∧ es = ds := by
  obtain ⟨hsign, hbody, -⟩ := h.parts hwrites
  obtain ⟨hsign', hbody', -⟩ := hother.parts hwrites
  exact ⟨hsign'.symm.trans hsign, List.tail_eq_of_cons_eq (hbody'.symm.trans hbody)⟩

/-- Digits that are an integer by their form and begin with a zero are digits of base eight. -/
theorem exists_isOctal (hwrites : n.Writes cs) (hascii : ∀ c ∈ cs, c.toNat < 128)
    (hwhole : n.isWhole = true) (hint : Tag.isInt cs = true)
    (hbody : (Numeral.sign cs).2 = '0' :: ds) : ∃ negative, IsOctal negative ds cs := by
  have hdigits := (hwrites.digits_behind_sign hwhole).1.isDigit fun c hc =>
    hascii c (Numeral.sign_subset cs hc)
  obtain ⟨s, hcs, signed⟩ := Numeral.exists_of_sign cs
  rw [hbody] at hdigits hcs
  refine ⟨_, ⟨s, signed, hcs⟩, ?_⟩
  rw [← Tag.isInt_of_zero (by rw [Tag.afterSign_eq, hbody]) (List.forall_mem_cons.1 hdigits).2]
  exact hint

/-- The value of a numeral that is a text by its form. -/
theorem toNumber?_of_writes (hwrites : n.Writes cs) :
    (Value.text (String.ofList cs)).toNumber? = some (Number.ofNumeral n) := by
  refine Numeral.Writes.ofText? ?_
  rwa [String.toList_ofList]

/-- A whole numeral that is not read in base eight makes the number that it writes. -/
theorem value_of_whole (hwrites : n.Writes cs) (hascii : ∀ c ∈ cs, c.toNat < 128)
    (hwhole : n.isWhole = true) (hshort : n.whole.length ≤ digitLimit)
    (hoctal : ∀ negative ds, ¬ IsOctal negative ds cs) :
    ∃ v, (Node.scalar (Node.formTag (String.ofList cs)) (String.ofList cs)).value = .ok v ∧
      v.toNumber? = some (Number.ofNumeral n) := by
  rw [formTag_of_writes hwrites hascii, isFloat_of_isWhole hwrites hwhole,
    if_neg Bool.false_ne_true]
  by_cases hint : Tag.isInt cs = true
  · rw [if_pos hint]
    have hbody : ∀ ds, (Numeral.sign cs).2 ≠ '0' :: ds := by
      intro ds hbody
      obtain ⟨negative, h⟩ := exists_isOctal hwrites hascii hwhole hint hbody
      exact hoctal negative ds h
    refine ⟨.int n.toInt, value_of_scalarValue (.inr (.inl rfl)) ?_, ?_⟩
    · rw [scalarValue, intValue_of_decimal hwrites hascii hwhole hshort hbody]
      rfl
    · rw [Number.ofNumeral_of_short hwhole hshort]
      rfl
  · rw [if_neg hint]
    exact ⟨_, value_of_scalarValue (.inr (.inr rfl)) rfl, toNumber?_of_writes hwrites⟩

/-- A numeral with a fraction or an exponent makes a value of the number that it writes. -/
theorem value_of_not_whole (hwrites : n.Writes cs) (hascii : ∀ c ∈ cs, c.toNat < 128)
    (hwhole : ¬ n.isWhole = true) :
    ∃ v, (Node.scalar (Node.formTag (String.ofList cs)) (String.ofList cs)).value = .ok v ∧
      v.toNumber? = some (Number.ofNumeral n) := by
  have hmark : ∃ c ∈ Tag.afterSign cs, ¬ c.isDigit = true := by
    rw [Tag.afterSign_eq]
    by_contra hnone
    push Not at hnone
    exact hwhole (hwrites.isWhole_of_forall fun c hc => isDecimalDigit_of_isDigit (hnone c hc))
  rw [formTag_of_writes hwrites hascii,
    Tag.isInt_eq_false (isWord_of_writes hwrites hascii).chars hmark, if_neg Bool.false_ne_true]
  by_cases hfloat : Tag.isFloat cs = true
  · rw [if_pos hfloat]
    refine ⟨.float n.toBinary64, value_of_scalarValue (.inl rfl) ?_, ?_⟩
    · rw [scalarValue, floatValue_of_writes hwrites]
      rfl
    · rw [Number.ofNumeral_of_not_short fun h => hwhole h.1]
      rfl
  · rw [if_neg hfloat]
    exact ⟨_, value_of_scalarValue (.inr (.inr rfl)) rfl, toNumber?_of_writes hwrites⟩

/-- **A numeral keeps its number as a scalar**, unless it is read in base eight. -/
theorem value_of_writes (hwrites : n.Writes cs) (hascii : ∀ c ∈ cs, c.toNat < 128)
    (hshort : n.whole.length ≤ digitLimit) (hoctal : ∀ negative ds, ¬ IsOctal negative ds cs) :
    ∃ v, (Node.scalar (Node.formTag (String.ofList cs)) (String.ofList cs)).value = .ok v ∧
      v.toNumber? = some (Number.ofNumeral n) := by
  by_cases hwhole : n.isWhole = true
  · exact value_of_whole hwrites hascii hwhole hshort hoctal
  · exact value_of_not_whole hwrites hascii hwhole

end Verdict.Yaml
