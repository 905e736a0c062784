import Verdict.Proofs.Attempt
import Verdict.Yaml.Document
/-!
# Documents of one word

A text that is one word of digits, signs, points and exponent marks is read as a document that holds
this word and nothing else, and a line feed behind the word makes no difference. The word is one
plain scalar: none of its characters ends it or is the mark of another token, and with a digit among
the first three it is no mark between documents (`tokens_of_word`). So the value of the document is
that of the scalar, by the tag that the form of the word suggests (`document_of_word`).
-/

namespace Verdict.Yaml

/-! ## Words -/

/-- Whether a character may stand in a number. -/
def isNumberChar (c : Char) : Bool :=
  c.isDigit || c = '+' || c = '-' || c = '.' || c = 'e' || c = 'E'

/-- Whether the characters are a word that begins like a number. -/
structure IsWord (cs : List Char) : Prop where
  /-- No other characters stand in it. -/
  chars : ∀ c ∈ cs, isNumberChar c = true
  /-- A digit is among the first three. -/
  digit : ∃ c ∈ cs.take 3, c.isDigit = true

/-- What may stand behind a word: nothing, or a line feed. -/
inductive Ending : List Char → Prop
  | none : Ending []
  | lineFeed : Ending ['\n']

/-- What is true of the characters of numbers is found out by going through ASCII. -/
theorem of_isNumberChar {p : Char → Bool}
    (h : ∀ n < 128, isNumberChar (Char.ofNat n) = true → p (Char.ofNat n) = true) {c : Char}
    (hc : isNumberChar c = true) : p c = true := by
  have hascii : c.toNat < 128 := by
    simp only [isNumberChar, Bool.or_eq_true, decide_eq_true_eq] at hc
    rcases hc with ((((hdigit | rfl) | rfl) | rfl) | rfl) | rfl
    · exact Nat.lt_of_le_of_lt (Char.isDigit_iff_toNat.1 hdigit).2 (by decide)
    all_goals decide
  have hp := h c.toNat hascii
  rw [Char.ofNat_toNat] at hp
  exact hp hc

/-- Marks that begin other tokens, and the byte order mark. -/
def otherMarks : List Char := "\uFEFF%[\x7b]\x7d,?:*&!|>'\"# \n".toList

theorem notMem_otherMarks {c : Char} (hc : isNumberChar c = true) : c ∉ otherMarks := by
  have h : ¬ otherMarks.contains c = true := by
    rw [Bool.not_eq_true, ← Bool.not_eq_true']
    exact @of_isNumberChar (fun c => !otherMarks.contains c) (by decide) c hc
  exact fun hmem => h (List.contains_iff_mem.2 hmem)

theorem isGap_of_isNumberChar {c : Char} (hc : isNumberChar c = true) : isGap c = false := by
  rw [← Bool.not_eq_true']
  exact @of_isNumberChar (fun c => !isGap c) (by decide) c hc

variable {cs tail : List Char} {c : Char}

/-- A word has a first character, and one behind it if it begins with a dash. -/
theorem IsWord.exists_cons (h : IsWord cs) : ∃ c rest, cs = c :: rest ∧ isNumberChar c = true ∧
    (c = '-' → ∃ d more, rest = d :: more ∧ isNumberChar d = true) := by
  obtain ⟨d, hd, hdigit⟩ := h.digit
  cases cs with
  | nil => cases hd
  | cons c rest =>
    refine ⟨c, rest, rfl, h.chars c List.mem_cons_self, ?_⟩
    rintro rfl
    cases rest with
    | nil =>
      rw [List.take_succ_cons, List.take_nil, List.mem_singleton] at hd
      rw [hd] at hdigit
      exact absurd hdigit (by decide)
    | cons d more =>
      exact ⟨d, more, rfl, h.chars d (List.mem_cons_of_mem _ List.mem_cons_self)⟩

/-! ## The scalar -/

/-- A run takes a word as a whole. -/
theorem plainRun_append (hcs : ∀ c ∈ cs, isNumberChar c = true) (htail : Ending tail) :
    plainRun false (cs ++ tail) = cs := by
  induction cs with
  | nil => cases htail <;> rfl
  | cons c cs ih =>
    obtain ⟨hc, hcs⟩ := List.forall_mem_cons.1 hcs
    have hcolon : c ≠ ':' := by
      rintro rfl
      exact notMem_otherMarks hc (by decide)
    rw [List.cons_append, plainRun, ih hcs, isGap_of_isNumberChar hc, decide_eq_false hcolon]
    rfl

/-- The gap behind a word is empty, or it is a line feed that is folded into a space. -/
theorem plainGap_of_ending (htail : Ending tail) (c : Cursor) (hrest : c.rest = tail) :
    (plainGap c).cursor.rest = [] ∧ ((plainGap c).text = [] ∨
      (plainGap c).text = [' '] ∧ (plainGap c).cursor.column = 0) := by
  obtain ⟨rest, index, line, column⟩ := c
  subst hrest
  cases htail with
  | none => exact ⟨rfl, .inl rfl⟩
  | lineFeed => exact ⟨rfl, .inr ⟨rfl, rfl⟩⟩

/-- The scalar that begins with a word is the word, and nothing is left behind it. -/
theorem plainScalar_of_word (hcs : IsWord cs) (htail : Ending tail) (c : Cursor)
    (hrest : c.rest = cs ++ tail) :
    ∃ c' broken, plainScalar false 0 c = (cs, c', broken) ∧ c'.rest = [] := by
  obtain ⟨x, rest, hx, hchar, -⟩ := hcs.exists_cons
  have hrun : plainRun false c.rest = cs := by rw [hrest, plainRun_append hcs.chars htail]
  -- a comment is not taken for a word, which begins with none of the marks
  have hmark : c.peek ≠ some '#' := by
    intro h
    rw [Cursor.peek, hrest, hx] at h
    cases h
    exact notMem_otherMarks hchar (by decide)
  have hne : cs.isEmpty = false := by rw [hx]; rfl
  have hbehind : (Cursor.skip cs.length c).rest = tail := by
    rw [Cursor.rest_skip, hrest, List.drop_left]
  obtain ⟨hend, hgap⟩ := plainGap_of_ending htail _ hbehind
  rw [plainScalar, plainRuns]
  dsimp only
  rw [hrun, if_neg (by simp only [hmark, hne, Bool.false_eq_true, or_self, not_false_eq_true])]
  generalize plainGap (Cursor.skip cs.length c) = gap at hend hgap
  rcases hgap with htext | ⟨htext, hcolumn⟩
  · -- the text ends here
    rw [if_pos (by rw [htext]; exact .inl rfl)]
    exact ⟨_, _, rfl, hend⟩
  · -- the next line is empty, and so is its run
    have hpeek : gap.cursor.peek = none := by rw [Cursor.peek, hend]; rfl
    rw [if_neg (by rw [htext, hpeek, hcolumn]; decide)]
    have hfuel : c.rest.length = (rest ++ tail).length + 1 := by rw [hrest, hx]; rfl
    rw [hfuel, plainRuns]
    dsimp only
    rw [hend, plainRun, if_pos (.inr rfl)]
    exact ⟨_, _, rfl, hend⟩

/-! ## Tokens -/

/-- Whether a place is in front of a character of a number, or at the end of the text. -/
def AtWord (c : Cursor) : Prop := ∀ x ∈ c.peek, isNumberChar x = true

theorem AtWord.peek_ne {c : Cursor} (h : AtWord c) {x : Char} (hx : x ∈ otherMarks) :
    c.peek ≠ some x :=
  fun hpeek => notMem_otherMarks (h x hpeek) hx

/-- In front of a word there are no spaces to be skipped. -/
theorem AtWord.skipSpaces_eq {c : Cursor} (h : AtWord c) : c.skipSpaces = c := by
  have htaken : c.rest.takeWhile (· = ' ') = [] := by
    have hspace := h.peek_ne (x := ' ') (by decide)
    rw [Cursor.peek] at hspace
    cases hrest : c.rest with
    | nil => rfl
    | cons x rest =>
      rw [hrest, List.head?_cons, Ne, Option.some.injEq] at hspace
      rw [List.takeWhile_cons_of_neg (by rw [decide_eq_true_eq]; exact hspace)]
  rw [Cursor.skipSpaces, Cursor.skipWhile, Cursor.span, htaken]
  rfl

theorem AtWord.skipComment_eq {c : Cursor} (h : AtWord c) : c.skipComment = c :=
  if_neg (h.peek_ne (by decide))

/-- No break stands in front of a word. -/
theorem AtWord.lineBreak?_eq_none {c : Cursor} (h : AtWord c) : c.lineBreak? = none := by
  unfold AtWord Cursor.peek at h
  unfold Cursor.lineBreak?
  generalize c.rest = rest at h
  cases rest with
  | nil => rfl
  | cons x rest =>
    have hgap := isGap_of_isNumberChar (h x rfl)
    rw [isGap, Bool.or_eq_false_iff] at hgap
    obtain ⟨-, hbreak⟩ := hgap
    have hseparators : ¬ (x = '\u2028' ∨ x = '\u2029') := by
      rintro (rfl | rfl) <;> exact absurd hbreak (by decide)
    -- no break is a character of a numeral
    split
    · next heq =>
      cases heq
      exact absurd hbreak (by decide)
    · next heq =>
      cases heq
      rw [if_neg hseparators, hbreak]
      rfl
    · rfl

/-- In front of a word and at the end of a text there is nothing to skip. -/
theorem skipGaps_of_atWord {r : Reader} (fuel : Nat) (h : AtWord r.cursor) :
    r.skipGaps (fuel + 1) = r := by
  unfold Reader.skipGaps
  rw [h.skipSpaces_eq, h.skipComment_eq]
  dsimp only
  rw [h.lineBreak?_eq_none]

/-- A reader outside all collections and brackets. -/
def flatReader (c : Cursor) (keyAllowed : Bool) (candidates : List KeyCandidate)
    (ts : List Token) : Reader :=
  ⟨c, 0, -1, [], keyAllowed, candidates, ts⟩

variable {candidates : List KeyCandidate}

/-- No candidate of a class has to be a key when none has to be one. -/
theorem not_any_required (hcandidates : ∀ k ∈ candidates, k.required = false)
    (p : KeyCandidate → Bool) : ¬ (candidates.any fun k => p k && k.required) = true := by
  rw [List.any_eq_true]
  rintro ⟨k, hk, h⟩
  rw [hcandidates k hk, Bool.and_false] at h
  cases h

theorem dropStale_of_flat {c : Cursor} {keyAllowed : Bool} {ts : List Token}
    (hcandidates : ∀ k ∈ candidates, k.required = false) :
    (flatReader c keyAllowed candidates ts).dropStale = .ok (flatReader c keyAllowed
      (candidates.filter fun k => !(flatReader c keyAllowed candidates ts).isStale k) ts) :=
  if_neg (not_any_required hcandidates _)

theorem dropCandidate_of_flat {c : Cursor} {keyAllowed : Bool} {ts : List Token}
    (hcandidates : ∀ k ∈ candidates, k.required = false) :
    (flatReader c keyAllowed candidates ts).dropCandidate =
      .ok (flatReader c keyAllowed (candidates.filter fun k => k.level ≠ 0) ts) :=
  if_neg (not_any_required hcandidates fun k => k.level = 0)

/-- Outside all collections none ends. -/
theorem unwind_of_flat {c : Cursor} {keyAllowed : Bool} {ts : List Token} {column : Int}
    (h : -1 ≤ column) : (flatReader c keyAllowed candidates ts).unwind column =
      flatReader c keyAllowed candidates ts := by
  have hclosed : Reader.closed column (-1) [] = (0, -1, []) := if_neg (by omega)
  unfold Reader.unwind flatReader Reader.inFlow
  dsimp only
  rw [hclosed]
  rfl

/-- Settling in front of a word or at the end of a text changes nothing but the candidates. -/
theorem settle_of_atWord {c : Cursor} (h : AtWord c) (keyAllowed : Bool) (ts : List Token)
    (hcandidates : ∀ k ∈ candidates, k.required = false) :
    ∃ left, (flatReader c keyAllowed candidates ts).settle = .ok (flatReader c keyAllowed left ts) ∧
      ∀ k ∈ left, k.required = false := by
  have hmark : (flatReader c keyAllowed candidates ts).cursor.peek ≠ some '\uFEFF' :=
    h.peek_ne (by decide)
  have hgaps : (flatReader c keyAllowed candidates ts).skipGaps (c.rest.length + 1) =
      flatReader c keyAllowed candidates ts := skipGaps_of_atWord _ h
  refine ⟨candidates.filter fun k => !(flatReader c keyAllowed candidates ts).isStale k, ?_,
    fun k hk => hcandidates k (List.mem_filter.1 hk).1⟩
  unfold Reader.settle
  rw [if_neg fun both => hmark both.2]
  change ((flatReader c keyAllowed candidates ts).skipGaps (c.rest.length + 1)).dropStale >>= _ = _
  rw [hgaps, dropStale_of_flat hcandidates]
  simp only [bind, Except.bind, pure, Except.pure]
  rw [unwind_of_flat (by omega)]

/-- At the end of a text the tokens are complete. -/
theorem run_of_end {c : Cursor} (hrest : c.rest = []) (keyAllowed : Bool) (ts : List Token)
    (hcandidates : ∀ k ∈ candidates, k.required = false) (fuel : Nat) :
    (flatReader c keyAllowed candidates ts).run (fuel + 1) = .ok ts.reverse := by
  have hpeek : c.peek = none := by rw [Cursor.peek, hrest]; rfl
  have hword : AtWord c := by
    intro x hx
    rw [hpeek] at hx
    cases hx
  obtain ⟨left, hsettle, hleft⟩ := settle_of_atWord hword keyAllowed ts hcandidates
  have hcursor : (flatReader c keyAllowed left ts).cursor.peek = none := hpeek
  rw [Reader.run, hsettle]
  simp only [bind, Except.bind, pure, Except.pure]
  rw [hcursor]
  dsimp only
  rw [unwind_of_flat (Int.le_refl _), dropCandidate_of_flat hleft]
  rfl

/-- No mark between documents stands in front of a word. -/
theorem atSeparator_of_word (hcs : IsWord cs) {c : Cursor} (hrest : c.rest = cs ++ tail) :
    c.atSeparator = false := by
  obtain ⟨d, hd, hdigit⟩ := hcs.digit
  have hd : d ∈ c.rest.take 3 := by
    rw [hrest, List.take_append]
    exact List.mem_append_left _ hd
  have hthree : ∀ {m : Char} {rest : List Char}, c.rest = m :: m :: m :: rest →
      m.isDigit = true := by
    intro m rest h
    rw [h] at hd
    simp only [List.take_succ_cons, List.take_zero, List.mem_cons, List.not_mem_nil, or_false,
      or_self] at hd
    rwa [hd] at hdigit
  unfold Cursor.atSeparator
  split
  · next h => exact absurd (hthree h) (by decide)
  · next h => exact absurd (hthree h) (by decide)
  · rfl

/-- A character of a number begins no token but a plain scalar, a separator or an entry. -/
theorem token_of_isNumberChar {r : Reader} {x : Char} (hx : isNumberChar x = true)
    (hseparator : r.cursor.atSeparator = false)
    (hnext : x = '-' → isGapOrEnd (r.cursor.peekAt 1) = false) : r.token x = r.plain := by
  -- the marks of other tokens begin no numeral
  have hne : ∀ y ∈ otherMarks, x ≠ y := by
    rintro y hy rfl
    exact notMem_otherMarks hx hy
  have hstarts : Reader.startsPlain r.inFlow x (r.cursor.peekAt 1) = true := by
    by_cases hminus : x = '-'
    · rw [Reader.startsPlain, hnext hminus, decide_eq_true hminus, Bool.true_or, Bool.and_true,
        Bool.not_false, Bool.or_true]
    · -- all others start a plain scalar whatever comes next
      have hstarts : (x = '-' || Reader.startsPlain false x none) = true :=
        @of_isNumberChar (fun x => x = '-' || Reader.startsPlain false x none) (by decide) x hx
      have hend : isGapOrEnd none = true := rfl
      rw [decide_eq_false hminus, Bool.false_or, Reader.startsPlain, hend, Bool.not_true,
        Bool.false_and, Bool.or_false] at hstarts
      rw [Reader.startsPlain, hstarts, Bool.true_or]
  have hentry : ¬ (x = '-' ∧ isGapOrEnd (r.cursor.peekAt 1) = true) := by
    rintro ⟨h, hgap⟩
    rw [hnext h] at hgap
    cases hgap
  unfold Reader.token
  simp only [hne '%' (by decide), hne '[' (by decide), hne '\x7b' (by decide),
    hne ']' (by decide), hne '\x7d' (by decide), hne ',' (by decide), hne '?' (by decide),
    hne ':' (by decide), hne '*' (by decide), hne '&' (by decide), hne '!' (by decide),
    hne '|' (by decide), hne '>' (by decide), hne '\'' (by decide), hne '"' (by decide),
    hseparator, hentry, hstarts, false_and, and_false, Bool.false_eq_true, if_false, if_true]

/-- A new candidate does not have to be a key. -/
theorem addCandidate_of_flat {c : Cursor} (keyAllowed : Bool)
    (hcandidates : ∀ k ∈ candidates, k.required = false) :
    ∃ left, (flatReader c keyAllowed candidates []).addCandidate =
      .ok (flatReader c keyAllowed left []) ∧ ∀ k ∈ left, k.required = false := by
  cases keyAllowed with
  | false => exact ⟨candidates, rfl, hcandidates⟩
  | true =>
    have hdrop : (flatReader c true candidates []).dropCandidate =
        .ok (flatReader c true (candidates.filter fun k => k.level ≠ 0) []) :=
      dropCandidate_of_flat hcandidates
    refine ⟨⟨0, 0, false, c⟩ :: candidates.filter fun k => k.level ≠ 0, ?_,
      List.forall_mem_cons.2 ⟨rfl, fun k hk => hcandidates k (List.mem_filter.1 hk).1⟩⟩
    unfold Reader.addCandidate
    rw [hdrop]
    rfl

/-- A word in front of the reader is read as a plain scalar. -/
theorem plain_of_word (hcs : IsWord cs) (htail : Ending tail) {c : Cursor} (keyAllowed : Bool)
    (hcandidates : ∀ k ∈ candidates, k.required = false) (hrest : c.rest = cs ++ tail) :
    ∃ c' broken left, (flatReader c keyAllowed candidates []).plain =
        .ok (flatReader c' broken left [.scalar (String.ofList cs) true]) ∧
      c'.rest = [] ∧ ∀ k ∈ left, k.required = false := by
  obtain ⟨c', broken, hscalar, hend⟩ := plainScalar_of_word hcs htail c hrest
  obtain ⟨left, hadd, hleft⟩ := addCandidate_of_flat (c := c) keyAllowed hcandidates
  refine ⟨c', broken, left, ?_, hend, hleft⟩
  unfold Reader.plain
  have hread : plainScalar (flatReader c keyAllowed left []).inFlow
      ((flatReader c keyAllowed left []).indent + 1) (flatReader c keyAllowed left []).cursor =
        (cs, c', broken) := hscalar
  rw [hadd]
  simp only [bind, Except.bind]
  rw [hread]
  rfl

/-- A word has no character that a document may not hold. -/
theorem find?_unreadable (hcs : IsWord cs) (htail : Ending tail) :
    (cs ++ tail).find? (fun c => !isReadable c) = none := by
  rw [List.find?_eq_none]
  intro c hc
  have hreadable : isReadable c = true := by
    rcases List.mem_append.1 hc with hc | hc
    · exact of_isNumberChar (by decide) (hcs.chars c hc)
    · cases htail with
      | none => cases hc
      | lineFeed =>
        rw [List.mem_singleton.1 hc]
        decide
  rw [hreadable]
  exact Bool.false_ne_true

/-- **A word makes one token**, whether or not a line feed stands behind it. -/
theorem tokens_of_word (hcs : IsWord cs) (htail : Ending tail) :
    tokens (cs ++ tail) = .ok [.scalar (String.ofList cs) true] := by
  obtain ⟨x, rest, rfl, hchar, hnext⟩ := hcs.exists_cons
  have hword : AtWord (Cursor.start (x :: rest ++ tail)) := by
    rintro y ⟨⟩
    exact hchar
  obtain ⟨left, hsettle, hleft⟩ := settle_of_atWord hword true [] (List.forall_mem_nil _)
  obtain ⟨c', broken, others, hplain, hend, hothers⟩ :=
    plain_of_word hcs htail (c := Cursor.start (x :: rest ++ tail)) true hleft rfl
  have htoken : (flatReader (Cursor.start (x :: rest ++ tail)) true left []).token x =
      (flatReader (Cursor.start (x :: rest ++ tail)) true left []).plain := by
    refine token_of_isNumberChar hchar (atSeparator_of_word hcs rfl) fun hminus => ?_
    obtain ⟨d, more, rfl, hd⟩ := hnext hminus
    exact isGap_of_isNumberChar hd
  -- one plain scalar, and behind it the end
  unfold tokens
  rw [find?_unreadable hcs htail]
  change ((flatReader (Cursor.start (x :: rest ++ tail)) true [] []).settle >>= _) = _
  rw [hsettle]
  change ((flatReader (Cursor.start (x :: rest ++ tail)) true left []).token x >>= _) = _
  rw [htoken, hplain]
  exact run_of_end hend broken _ hothers _

/-- The node of one plain scalar. -/
theorem ofTokens?_scalar (text : String) :
    Node.ofTokens? [.scalar text true] = .ok (some (.scalar (Node.formTag text) text)) := rfl

theorem document_of_word (hcs : IsWord cs) (htail : Ending tail) :
    documentOfChars (cs ++ tail) =
      Node.value (.scalar (Node.formTag (String.ofList cs)) (String.ofList cs)) := by
  simp only [documentOfChars, tokens_of_word hcs htail, bind, Except.bind, ofTokens?_scalar,
    orDeclared]

end Verdict.Yaml
