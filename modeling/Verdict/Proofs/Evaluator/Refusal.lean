import Verdict.Proofs.Evaluator.Answer
import Verdict.Proofs.Evaluator.Comparison
import Verdict.Proofs.Numeric.Reading
/-!
# Why a predicate gives no answer

A call can go wrong in three ways of its own. There is no predicate of its name, or there is no
value under the key that is to be compared (`Misses`), or the arguments are of no use: there are too
few or too many of them, one names no weekday or month, or a value and a literal have no order
(`Misuses`). Each of the two relations says when this is so in terms of the arguments, the data and
the grammar of numerals. A fourth way comes from outside: the lookup of settings fails for the name
that it is asked for (`LookupFails`).

Short of the digit limit, these are all the ways, and they exclude each other
(`answer_eq_missingKey_iff`, `answer_eq_argument_iff`, `answer_eq_fault_iff_lookup`,
`answer_isOk_iff_usable`): the number of the arguments is looked at before the key, and the key
before the values are compared.
-/

namespace Verdict

open Text

/-! ## Names of weekdays and months -/

namespace CalendarPart

/-- Whether an argument names a number of the calendar. Blanks around it do not count. -/
inductive Names (part : CalendarPart) (argument : String) : Nat → Prop
  /-- It is the number itself in ASCII digits, and the number is in range. -/
  | number {n : Nat} (digits : ∀ c ∈ trimChars argument.toList, isAsciiDigit c = true)
      (written : trimChars argument.toList ≠ [])
      (value : n =
        Nat.ofDigits 10 ((trimChars argument.toList).map fun c => c.toNat - '0'.toNat).reverse)
      (first : 1 ≤ n) (last : n ≤ part.last) : Names part argument n
  /-- It is one of the names of the number, in any letter case. -/
  | name {n : Nat} (listed : (lowered (trim argument), n) ∈ part.names) : Names part argument n

/-- The number of a name is the one that the names of the part give it. -/
theorem numberOf?_eq_some_iff {part : CalendarPart} {name : String} {n : Nat} :
    part.numberOf? name = some n ↔ (name, n) ∈ part.names := by
  constructor
  · intro h
    obtain ⟨e, he, rfl⟩ := Option.map_eq_some_iff.1 h
    have hname : e.1 = name := by simpa using List.find?_some he
    rw [← hname]
    exact List.mem_of_find?_eq_some he
  · have hdistinct : ∀ e ∈ part.names, part.numberOf? e.1 = some e.2 := by cases part <;> decide
    exact hdistinct (name, n)

theorem not_all_isAsciiDigit_of_mem_names {part : CalendarPart} :
    ∀ e ∈ part.names, ¬ e.1.toList.all isAsciiDigit = true := by
  cases part <;> decide

theorem toLower_of_isAsciiDigit {c : Char} (h : isAsciiDigit c = true) : c.toLower = c := by
  simp only [isAsciiDigit, Char.toNat, Bool.and_eq_true, decide_eq_true_eq] at h
  refine dif_neg fun hupper => ?_
  have hA : 65 ≤ c.val.toNat := hupper.1
  omega

section Reading

variable {part : CalendarPart} {argument : String}

/-- Digits within the limit are read as the number that they write, if it is in range. -/
theorem read_of_digits (digits : ∀ c ∈ trimChars argument.toList, isAsciiDigit c = true)
    (written : trimChars argument.toList ≠ [])
    (hshort : (trimChars argument.toList).length ≤ digitLimit) :
    let n := Nat.ofDigits 10 ((trimChars argument.toList).map fun c => c.toNat - '0'.toNat).reverse
    part.read argument = if 1 ≤ n ∧ n ≤ part.last then .ok n
      else .error (.declared (.outOfRange part.label part.last n)) := by
  intro n
  have hsame : (lowered (trim argument)).toList = trimChars argument.toList := by
    rw [toList_lowered, toList_trim,
      List.map_congr_left fun c hc => toLower_of_isAsciiDigit (digits c hc), List.map_id']
  have hvalue : digitsNumber (trimChars argument.toList) = n := ofDigits_eq 10 _
  have hdigits : (!(trimChars argument.toList).isEmpty &&
      (trimChars argument.toList).all isAsciiDigit) = true := by
    rw [Bool.and_eq_true, Bool.not_eq_true', List.isEmpty_eq_false_iff]
    exact ⟨written, List.all_eq_true.2 digits⟩
  unfold read
  simp only [hsame, hvalue]
  rw [if_pos hdigits, if_neg (Nat.not_lt.2 hshort)]

/-- An argument that is not of digits alone is read by its name. -/
theorem read_of_not_digits
    (h : ¬ (trimChars argument.toList ≠ [] ∧
      ∀ c ∈ trimChars argument.toList, isAsciiDigit c = true)) :
    part.read argument = match part.numberOf? (lowered (trim argument)) with
      | some n => .ok n
      | none => .error (.declared (.unrecognized part.label argument)) := by
  have hlower : isAsciiDigit ∘ Char.toLower = isAsciiDigit := funext isAsciiDigit_toLower
  have hdigits : ¬ (!(lowered (trim argument)).toList.isEmpty &&
      (lowered (trim argument)).toList.all isAsciiDigit) = true := by
    rw [toList_lowered, toList_trim, List.isEmpty_map, List.all_map, hlower, Bool.and_eq_true,
      Bool.not_eq_true', List.isEmpty_eq_false_iff, List.all_eq_true]
    exact h
  unfold read
  simp only
  exact if_neg hdigits

/-- Within the digit limit, an argument is read as the number that it names. -/
theorem read_eq_ok_iff {n : Nat} (hshort : ¬ IsLongNumber argument) :
    part.read argument = .ok n ↔ part.Names argument n := by
  -- digits are never looked up among the names, and everything else only there
  by_cases h : trimChars argument.toList ≠ [] ∧
      ∀ c ∈ trimChars argument.toList, isAsciiDigit c = true
  · obtain ⟨written, digits⟩ := h
    have hlimit : (trimChars argument.toList).length ≤ digitLimit :=
      Nat.not_lt.1 fun hlong => hshort ⟨List.all_eq_true.2 digits, hlong⟩
    rw [read_of_digits digits written hlimit]
    constructor
    · intro hread
      split at hread
      · next hrange =>
        rw [Except.ok.injEq] at hread
        rw [hread] at hrange
        exact .number digits written hread.symm hrange.1 hrange.2
      · cases hread
    · rintro (⟨-, -, value, first, last⟩ | listed)
      · rw [← value, if_pos ⟨first, last⟩]
      · -- no name is written in digits
        refine absurd (List.all_eq_true.2 fun c hc => ?_)
          (not_all_isAsciiDigit_of_mem_names _ listed)
        rw [toList_lowered, toList_trim] at hc
        obtain ⟨d, hd, rfl⟩ := List.mem_map.1 hc
        rw [isAsciiDigit_toLower]
        exact digits d hd
  · rw [read_of_not_digits h]
    constructor
    · intro hread
      split at hread
      · next m hm =>
        rw [Except.ok.injEq] at hread
        exact .name (numberOf?_eq_some_iff.1 (hread ▸ hm))
      · cases hread
    · rintro (⟨digits, written, -, -, -⟩ | listed)
      · exact absurd ⟨written, digits⟩ h
      · rw [numberOf?_eq_some_iff.2 listed]

end Reading

end CalendarPart

/-! ## Numeric values -/

namespace Value

/-- Whether a value is a number or a text that writes one. -/
def IsNumeric : Value → Prop
  | .int _ | .float _ => True
  | .text s => trimChars s.toList ∈ Numeral.numerals
  | _ => False

theorem isSome_toNumber?_iff {v : Value} : v.toNumber?.isSome ↔ v.IsNumeric := by
  cases v with
  | text s =>
    rw [toNumber?_text, ← Option.ne_none_iff_isSome, ne_eq, Number.ofText?_eq_none_iff,
      Classical.not_not]
    rfl
  | _ => simp [toNumber?, IsNumeric]

theorem isSome_ofText?_iff {literal : String} :
    (Number.ofText? literal).isSome ↔ (text literal).IsNumeric :=
  isSome_toNumber?_iff (v := text literal)

/-- A number that can be shown has no order against a literal that is none. -/
theorem order_of_not_numeric {v : Value} {literal shown : String} (hv : v.IsNumeric)
    (hliteral : ¬ (text literal).IsNumeric) (hshown : v.shown = .ok shown) :
    v.order literal = .error (.declared (.notNumeric literal shown)) := by
  obtain ⟨x, hx⟩ := Option.isSome_iff_exists.1 (isSome_toNumber?_iff.2 hv)
  rw [← isSome_ofText?_iff, Option.not_isSome_iff_eq_none] at hliteral
  unfold order
  simp only [hx, hliteral, hshown]

/-- What is neither a number nor a text has no order. -/
theorem order_of_unordered {v : Value} {literal : String} (hv : ¬ v.IsNumeric)
    (hstring : v.isString = false) :
    v.order literal = .error (.declared (.unordered v.typeName)) := by
  rw [← isSome_toNumber?_iff, Option.not_isSome_iff_eq_none] at hv
  unfold order
  cases v with
  | text s => cases hstring
  | int n => cases hv
  | float x => cases hv
  | _ => rfl

end Value

/-! ## Rules for errors -/

/-- The errors that are about arguments: their number, what they say, or what one of them is
compared with. -/
def PredicateError.IsArgument : PredicateError → Prop
  | .unknownName _ | .missingKey _ => False
  | .wrongCount _ _ _ | .noArguments _ | .outOfRange _ _ _ | .unrecognized _ _ | .order _ => True

/-- The numbers of arguments that the predicates of a family take. -/
def Predicate.Family.Takes : Predicate.Family → Nat → Prop
  | .bare, n => n = 0
  | .calendar _, n => 1 ≤ n
  | .presence, n => n = 1
  | .equality, n | .order, n => n = 2
  | .setting, _ => True

namespace Evaluator

/-- The calls that compare the value of a key which is not there. -/
def Misses (E : Evaluator) (family : Predicate.Family) (args : List String) (key : String) : Prop :=
  (family = .equality ∨ family = .order) ∧ (∃ literal, args = [key, literal]) ∧
    E.data.find? key = none

/-- The calls whose arguments are of no use, by the family of the predicate. -/
inductive Misuses (E : Evaluator) : Predicate.Family → List String → Prop
  /-- There are too few arguments or too many. -/
  | count {family : Predicate.Family} {args : List String} (wrong : ¬ family.Takes args.length) :
      Misuses E family args
  /-- An argument names no weekday, or no month. -/
  | unnamed {part : CalendarPart} {args : List String} {argument : String}
      (given : argument ∈ args) (unnamed : ∀ n, ¬ part.Names argument n) :
      Misuses E (.calendar part) args
  /-- The value of the key is a number, and the literal is none. -/
  | notNumeric {key literal : String} {v : Value} (found : E.data.find? key = some v)
      (number : v.IsNumeric) (text : ¬ (Value.text literal).IsNumeric) :
      Misuses E .order [key, literal]
  /-- The value of the key is neither a number nor a text. -/
  | unordered {key literal : String} {v : Value} (found : E.data.find? key = some v)
      (number : ¬ v.IsNumeric) (text : v.isString = false) : Misuses E .order [key, literal]

/-- The calls that ask the lookup for a setting for which it fails. Without texts that the setting
may be, it is not asked for. -/
def LookupFails (E : Evaluator) (family : Predicate.Family) (args : List String) (f : Fault) :
    Prop :=
  family = .setting ∧ ∃ name accepted, args = name :: accepted ∧ accepted ≠ [] ∧
    E.env.find? name = .error f

/-- Short of the digit limit: the value of the first argument can be written, and no weekday or
month is a number of too many digits. -/
structure WithinLimit (E : Evaluator) (family : Predicate.Family) (args : List String) : Prop where
  /-- The value of the first argument can be said and shown. -/
  written : ∀ key v, args.head? = some key → E.data.find? key = some v →
    (∃ s, v.toText = .ok s) ∧ ∃ s, v.shown = .ok s
  /-- No weekday or month is a number of too many digits. -/
  short : ∀ part, family = .calendar part → ∀ a ∈ args, ¬ CalendarPart.IsLongNumber a

variable {E : Evaluator} {p : Predicate} {args : List String} {bit : Bool} {key : String}

/-! ## Each rule alone -/

/-- A call that compares the value of a missing key says so. -/
theorem answer_of_misses (h : E.Misses p.family args key) :
    E.answer p args bit = .error (.declared (.missingKey key)) := by
  obtain ⟨hfamily, ⟨literal, rfl⟩, habsent⟩ := h
  have hcomparing : ∀ {q compare}, E.comparing q [key, literal] compare =
      .error (.declared (.missingKey key)) := by
    intro q compare
    rw [comparing, withValue, habsent]
  cases p with
  | eq | neq | lt | lte | gt | gte => rw [answer, hcomparing]
  | _ => rcases hfamily with h | h <;> cases h

/-- A call with the wrong number of arguments says that something is wrong with them. -/
theorem answer_of_count (h : ¬ p.family.Takes args.length) :
    ∃ e : PredicateError, e.IsArgument ∧ E.answer p args bit = .error (.declared e) := by
  have hbare : ∀ {q : Predicate} {x : Answer}, args.length ≠ 0 →
      withCount q 0 args x = .error (.declared (.wrongCount q.name 0 args.length)) :=
    fun hne => if_neg hne
  have hcomparing : ∀ {compare}, args.length ≠ 2 →
      E.comparing p args compare = .error (.declared (.wrongCount p.name 2 args.length)) := by
    intro compare hne
    unfold comparing
    split
    · exact absurd rfl hne
    · rfl
  -- by how many arguments a predicate takes: none, one, two, or at least one
  cases p with
  | always | never | random | sometimes | weekday | weekend =>
    exact ⟨.wrongCount _ _ _, trivial, hbare h⟩
  | days | months =>
    have hnil : args = [] := List.length_eq_zero_iff.1 (Nat.lt_one_iff.1 (Nat.not_le.1 h))
    rw [hnil]
    exact ⟨.noArguments _, trivial, rfl⟩
  | present =>
    match args with
    | [] | _ :: _ :: _ => exact ⟨.wrongCount _ _ _, trivial, rfl⟩
    | [_] => exact absurd rfl h
  | eq | neq | lt | lte | gt | gte => exact ⟨.wrongCount _ _ _, trivial, hcomparing h⟩
  | env => exact absurd trivial h

/-- An argument that names no weekday or month is an error about it, or one before it is. -/
theorem readAll_of_unnamed {part : CalendarPart} {argument : String} (given : argument ∈ args)
    (unnamed : ∀ n, ¬ part.Names argument n) (hshort : ∀ a ∈ args, ¬ CalendarPart.IsLongNumber a) :
    ∃ e : PredicateError, e.IsArgument ∧ part.readAll args = .error (.declared e) := by
  cases hread : part.readAll args with
  | ok ns =>
    obtain ⟨n, hn⟩ := CalendarPart.readAll_isOk_iff.1 ⟨ns, hread⟩ argument given
    exact absurd ((CalendarPart.read_eq_ok_iff (hshort argument given)).1 hn) (unnamed n)
  | error e =>
    obtain ⟨before, token, after, rfl, -, htoken⟩ := CalendarPart.readAll_eq_error_iff.1 hread
    cases e with
    | fault f =>
      have hlong := (CalendarPart.read_eq_fault_iff.1 htoken).1
      exact absurd hlong (hshort token (by simp))
    | declared e =>
      refine ⟨e, ?_, rfl⟩
      rcases CalendarPart.read_eq_declared htoken with ⟨n, rfl⟩ | rfl
      · trivial
      · trivial

theorem ordered_of_error {accept : Ordering → Bool} {v : Value} {literal : String} {e : OrderError}
    (h : v.order literal = .error (.declared e)) :
    ordered accept v literal = .error (.declared (.order e)) := by
  rw [ordered, h]
  rfl

/-- Arguments of no use end in an error about them, whatever the predicate. -/
theorem answer_of_misuses (bit : Bool) (hlimit : E.WithinLimit p.family args)
    (h : E.Misuses p.family args) :
    ∃ e : PredicateError, e.IsArgument ∧ E.answer p args bit = .error (.declared e) := by
  -- a value without an order makes each of the four order predicates fail
  have hordered : ∀ {key literal v e}, p.family = .order → E.data.find? key = some v →
      v.order literal = .error (.declared e) →
      E.answer p [key, literal] bit = .error (.declared (.order e)) := by
    intro key literal v e hfamily found horder
    cases p with
    | lt | lte | gt | gte =>
      rw [answer, comparing_of_find? found]
      exact ordered_of_error horder
    | _ => cases hfamily
  generalize hfamily : p.family = family at h hlimit
  cases h with
  | count wrong => exact answer_of_count (hfamily ▸ wrong)
  | @unnamed part _ argument given unnamed =>
    obtain ⟨e, he, hread⟩ := readAll_of_unnamed given unnamed (hlimit.short part rfl)
    refine ⟨e, he, ?_⟩
    have hamong : ∀ number, among p part number args = .error (.declared e) := by
      intro number
      rw [among, List.isEmpty_eq_false_iff.2 (List.ne_nil_of_mem given), if_neg Bool.false_ne_true,
        hread]
      rfl
    cases p with
    | days | months =>
      cases hfamily
      exact hamong _
    | _ => cases hfamily
  | @notNumeric key literal v found number text =>
    obtain ⟨shown, hshown⟩ := (hlimit.written key v rfl found).2
    have horder := Value.order_of_not_numeric number text hshown
    exact ⟨.order _, trivial, hordered hfamily found horder⟩
  | unordered found number text =>
    exact ⟨.order _, trivial, hordered hfamily found (Value.order_of_unordered number text)⟩

/-- Arguments that are of use, to a predicate whose key or setting can be looked up, are answered.
-/
theorem answers_of_usable {family : Predicate.Family} (hlimit : E.WithinLimit family args)
    (hkey : ∀ key, ¬ E.Misses family args key) (husable : ¬ E.Misuses family args)
    (hlookup : ∀ f, ¬ E.LookupFails family args f) : E.Answers family args := by
  -- what a family needs for an answer is, one by one, that a misuse of it does not occur
  have hcount : family.Takes args.length :=
    Classical.byContradiction fun wrong => husable (.count wrong)
  have hvalue : ∀ {key literal}, args = [key, literal] → (family = .equality ∨ family = .order) →
      ∃ v, E.data.find? key = some v := by
    intro key literal hargs hfamily
    cases hv : E.data.find? key with
    | none => exact absurd ⟨hfamily, ⟨literal, hargs⟩, hv⟩ (hkey key)
    | some v => exact ⟨v, rfl⟩
  cases family with
  | bare =>
    rw [List.length_eq_zero_iff.1 hcount]
    exact .bare
  | calendar part =>
    refine .calendar (List.length_pos_iff.1 hcount) fun a ha => ?_
    have hnamed : ∃ n, part.Names a n :=
      Classical.byContradiction fun h => husable (.unnamed ha (not_exists.1 h))
    obtain ⟨n, hn⟩ := hnamed
    exact ⟨n, (CalendarPart.read_eq_ok_iff (hlimit.short part rfl a ha)).2 hn⟩
  | presence =>
    obtain ⟨key, rfl⟩ := List.length_eq_one_iff.1 hcount
    exact .presence key
  | equality =>
    obtain ⟨key, literal, rfl⟩ := List.length_eq_two.1 hcount
    obtain ⟨v, found⟩ := hvalue rfl (.inl rfl)
    have hwritten := (hlimit.written key v rfl found).1
    rw [(Value.toText_failsOnly v).isOk_iff] at hwritten
    exact .equality found fun long => absurd long hwritten
  | order =>
    obtain ⟨key, literal, rfl⟩ := List.length_eq_two.1 hcount
    obtain ⟨v, found⟩ := hvalue rfl (.inr rfl)
    refine .order found ?_
    by_cases hv : v.IsNumeric
    · have hliteral : (Value.text literal).IsNumeric :=
        Classical.byContradiction fun h => husable (.notNumeric found hv h)
      exact .inl ⟨Value.isSome_toNumber?_iff.2 hv, Value.isSome_ofText?_iff.2 hliteral⟩
    · have hstring : v.isString = true :=
        Classical.byContradiction fun h => husable (.unordered found hv (Bool.eq_false_iff.2 h))
      rw [← Value.isSome_toNumber?_iff, Option.not_isSome_iff_eq_none] at hv
      exact .inr ⟨hv, hstring⟩
  | setting =>
    rcases few_or_asked args with few | ⟨name, accepted, rfl, asked⟩
    · exact .few few
    · cases hlooked : E.env.find? name with
      | ok current => exact .setting hlooked
      | error f => exact absurd ⟨rfl, name, accepted, rfl, asked, hlooked⟩ (hlookup f)

/-! ## All rules together

Each of the four ends rules the others out, since a call ends in one way. -/

section Ends

variable (hlimit : E.WithinLimit p.family args)

include hlimit

/-- A call ends in the fault of the lookup, if that fails, and in no other. -/
theorem answer_eq_fault_iff_lookup {f : Fault} :
    E.answer p args bit = .error (.fault f) ↔ E.LookupFails p.family args f := by
  have hwritten : ∀ {key rest v}, args = key :: rest → E.data.find? key = some v →
      ¬ v.HoldsLong := by
    intro key rest v hargs found
    exact (Value.toText_failsOnly v).isOk_iff.1 (hlimit.written key v (hargs ▸ rfl) found).1
  rw [answer_eq_fault_iff]
  constructor
  · intro h
    generalize p.family = family at h hlimit
    cases h with
    | calendar split _ long => exact absurd long (hlimit.short _ rfl _ (by simp [split]))
    | equality found long _ => exact absurd long (hwritten rfl found)
    | order found long _ => exact absurd (.int long) (hwritten rfl found)
    | setting asked fails => exact ⟨rfl, _, _, rfl, asked, fails⟩
  · rintro ⟨hfamily, name, accepted, rfl, asked, fails⟩
    rw [hfamily]
    exact .setting asked fails

/-- A call has an answer exactly if no key is missing, the arguments are of use, and the lookup does
not fail. -/
theorem answer_isOk_iff_usable :
    (∃ b, E.answer p args bit = .ok b) ↔
      (∀ key, ¬ E.Misses p.family args key) ∧ ¬ E.Misuses p.family args ∧
        ∀ f, ¬ E.LookupFails p.family args f := by
  constructor
  · rintro ⟨b, hb⟩
    refine ⟨fun key hmisses => ?_, fun hmisuses => ?_, fun f hfails => ?_⟩
    · cases hb.symm.trans (answer_of_misses hmisses)
    · obtain ⟨e, -, he⟩ := answer_of_misuses bit hlimit hmisuses
      cases hb.symm.trans he
    · cases hb.symm.trans ((answer_eq_fault_iff_lookup hlimit).2 hfails)
  · rintro ⟨hkey, husable, hlookup⟩
    exact answer_isOk_iff.2 (answers_of_usable hlimit hkey husable hlookup)

/-- What is declared is a missing key or an error about the arguments. -/
theorem misses_or_misuses_of_declared {e : PredicateError}
    (h : E.answer p args bit = .error (.declared e)) :
    (∃ key, E.Misses p.family args key) ∨ E.Misuses p.family args := by
  by_contra hneither
  obtain ⟨hkey, husable⟩ := not_or.1 hneither
  by_cases hlookup : ∃ f, E.LookupFails p.family args f
  · obtain ⟨f, hf⟩ := hlookup
    cases h.symm.trans ((answer_eq_fault_iff_lookup hlimit).2 hf)
  · have hanswered : ∃ b, E.answer p args bit = .ok b :=
      (answer_isOk_iff_usable hlimit).2 ⟨not_exists.1 hkey, husable, not_exists.1 hlookup⟩
    obtain ⟨b, hb⟩ := hanswered
    cases h.symm.trans hb

/-- A call says that a key is missing exactly if it compares the value of the key and there is none.
-/
theorem answer_eq_missingKey_iff :
    E.answer p args bit = .error (.declared (.missingKey key)) ↔ E.Misses p.family args key := by
  refine ⟨fun h => ?_, answer_of_misses⟩
  -- arguments of no use end in another error, another missing key in an error of its own
  rcases misses_or_misuses_of_declared hlimit h with ⟨key', hkey'⟩ | hmisuses
  · cases h.symm.trans (answer_of_misses hkey')
    exact hkey'
  · obtain ⟨e, harg, he⟩ := answer_of_misuses bit hlimit hmisuses
    cases h.symm.trans he
    exact harg.elim

/-- A call says that something is wrong with its arguments exactly if they are of no use. -/
theorem answer_eq_argument_iff :
    (∃ e : PredicateError, e.IsArgument ∧ E.answer p args bit = .error (.declared e)) ↔
      E.Misuses p.family args := by
  refine ⟨fun ⟨e, harg, he⟩ => ?_, answer_of_misuses bit hlimit⟩
  rcases misses_or_misuses_of_declared hlimit he with ⟨key, hkey⟩ | hmisuses
  · cases he.symm.trans (answer_of_misses hkey)
    exact harg.elim
  · exact hmisuses

end Ends

/-! ## Calls -/

/-- A statement about some predicate of a name is one about the only predicate of that name. -/
theorem exists_of_name_iff {P : Predicate → Prop} :
    (∃ q : Predicate, q.name = p.name ∧ P q) ↔ P p := by
  refine ⟨?_, fun h => ⟨p, rfl, h⟩⟩
  rintro ⟨q, hq, h⟩
  exact Predicate.name_injective hq ▸ h

/-- The predicates that compare the value of a key are those of two families. -/
theorem misses_iff :
    E.Misses p.family args key ↔ p ∈ [.eq, .neq, .lt, .lte, .gt, .gte] ∧
      (∃ literal, args = [key, literal]) ∧ E.data.find? key = none := by
  refine and_congr_left fun _ => ?_
  cases p <;> decide

theorem call_exists_of_absent (bits : Bits) (habsent : E.data.find? key = none) :
    (E.call "exists" [key] bits).result = .ok false := by
  refine (result_call .present [key] bits).trans ?_
  rw [answer, habsent]
  rfl

/-- A setting that is looked up is held against the texts. -/
theorem call_env_of_looked {setting : String} {accepted : List String} {current : Option String}
    (bits : Bits) (asked : accepted ≠ []) (looked : E.env.find? setting = .ok current) :
    (E.call "env" (setting :: accepted) bits).result = .ok (current.any accepted.contains) := by
  refine (result_call .env (setting :: accepted) bits).trans ?_
  rw [answer, settingAmong_cons asked, looked]
  rfl

/-- Where the lookup fails, so does the call. -/
theorem call_env_of_fails {setting : String} {accepted : List String} {f : Fault} (bits : Bits)
    (asked : accepted ≠ []) (fails : E.env.find? setting = .error f) :
    (E.call "env" (setting :: accepted) bits).result = .error (.fault f) := by
  refine (result_call .env (setting :: accepted) bits).trans ?_
  rw [answer, settingAmong_cons asked, fails]
  rfl

/-- A setting that the lookup does not find is none of the texts. -/
theorem call_env_of_absent {setting : String} (accepted : List String) (bits : Bits)
    (habsent : E.env.find? setting = .ok none) :
    (E.call "env" (setting :: accepted) bits).result = .ok false := by
  cases accepted with
  | nil => exact result_call .env [setting] bits
  | cons a rest => exact call_env_of_looked bits (List.cons_ne_nil a rest) habsent

/-- Only `env` asks for settings. -/
theorem lookupFails_iff {f : Fault} :
    E.LookupFails p.family args f ↔ p.name = "env" ∧ ∃ setting accepted,
      args = setting :: accepted ∧ accepted ≠ [] ∧ E.env.find? setting = .error f := by
  refine and_congr_left fun _ => ?_
  cases p <;> decide

/-- **How calls fail.** Short of the digit limit, a call says that there is no such predicate
exactly when no predicate has its name; it says that a key is missing exactly when it compares the
value of that key with a literal and there is none; it says that something is wrong with its
arguments exactly when they are of no use; and in all other cases it has an answer, unless it asks
the lookup for a setting and the lookup fails, in which case it ends in the fault of the lookup. A
key that is missing is no error to `exists`, nor is to `env` a setting that the lookup does not
find.

The lookup may be any. That of a process fails for names that the process cannot write. -/
theorem call_fails_as_ruled (E : Evaluator) (name : String) (args : List String) (bits : Bits)
    (hwritten : ∀ key v, args.head? = some key → E.data.find? key = some v →
      (∃ s, v.toText = .ok s) ∧ ∃ s, v.shown = .ok s)
    (hshort : name = "days" ∨ name = "months" → ∀ a ∈ args, ¬ CalendarPart.IsLongNumber a) :
    (∀ unknown, (E.call name args bits).result = .error (.declared (.unknownName unknown)) ↔
      unknown = name ∧ ∀ p : Predicate, p.name ≠ name) ∧
    (∀ key, (E.call name args bits).result = .error (.declared (.missingKey key)) ↔
      (∃ p ∈ [Predicate.eq, .neq, .lt, .lte, .gt, .gte], p.name = name) ∧
        (∃ literal, args = [key, literal]) ∧ E.data.find? key = none) ∧
    ((∃ e : PredicateError, e.IsArgument ∧
        (E.call name args bits).result = .error (.declared e)) ↔
      ∃ p : Predicate, p.name = name ∧ E.Misuses p.family args) ∧
    (∀ f, (E.call name args bits).result = .error (.fault f) ↔
      name = "env" ∧ ∃ setting accepted, args = setting :: accepted ∧ accepted ≠ [] ∧
        E.env.find? setting = .error f) ∧
    ((∃ b, (E.call name args bits).result = .ok b) ↔
      ∃ p : Predicate, p.name = name ∧ (∀ key, ¬ E.Misses p.family args key) ∧
        ¬ E.Misuses p.family args ∧ ∀ f, ¬ E.LookupFails p.family args f) ∧
    (∀ key, E.data.find? key = none → (E.call "exists" [key] bits).result = .ok false) ∧
    ∀ setting accepted, E.env.find? setting = .ok none →
      (E.call "env" (setting :: accepted) bits).result = .ok false := by
  suffices hends : _ ∧ _ ∧ _ ∧ _ ∧ _ from
    ⟨hends.1, hends.2.1, hends.2.2.1, hends.2.2.2.1, hends.2.2.2.2,
      fun _ => call_exists_of_absent bits, fun _ accepted => call_env_of_absent accepted bits⟩
  cases hp : Predicate.ofName? name with
  | none =>
    -- the others are about a predicate of this name, and there is none
    have hnone : ∀ p : Predicate, p.name ≠ name := by
      rintro p rfl
      rw [Predicate.ofName?_name] at hp
      cases hp
    have hresult : (E.call name args bits).result = .error (.declared (.unknownName name)) := by
      rw [call, hp]
    simp only [hresult]
    refine ⟨fun unknown => ?_, fun key => ?_, ?_, fun f => ?_, ?_⟩
    · simp [hnone, eq_comm]
    · simp [hnone]
    · simp [hnone, PredicateError.IsArgument]
    · have henv : name ≠ "env" := fun h => hnone .env h.symm
      simp [henv]
    · simp [hnone]
  | some p =>
    obtain rfl := Predicate.name_of_ofName? hp
    have hlimit : E.WithinLimit p.family args := by
      refine ⟨hwritten, fun part hpart => hshort ?_⟩
      cases p with
      | days => exact .inl rfl
      | months => exact .inr rfl
      | _ => cases hpart
    simp only [result_call, exists_of_name_iff]
    refine ⟨fun unknown => ?_, fun key => ?_, answer_eq_argument_iff hlimit,
      fun f => (answer_eq_fault_iff_lookup hlimit).trans lookupFails_iff,
      answer_isOk_iff_usable hlimit⟩
    · exact ⟨fun h => absurd h answer_ne_unknownName, fun h => absurd rfl (h.2 p)⟩
    · -- the two lists of conditions differ in where the name is said
      have hcompares : (∃ q ∈ [Predicate.eq, .neq, .lt, .lte, .gt, .gte], q.name = p.name) ↔
          p ∈ [Predicate.eq, .neq, .lt, .lte, .gt, .gte] := by
        exact (exists_congr fun q => and_comm).trans exists_of_name_iff
      rw [answer_eq_missingKey_iff hlimit, misses_iff, hcompares]

/-- A process that is asked in UTF-8 has no answer for the name that is half of a surrogate pair,
though there is no such setting. -/
theorem call_env_of_unwritable_name :
    let name := String.ofList [Text.standIn 0xD800]
    let refusal : Fault := .outside "UnicodeEncodeError"
      "'utf-8' codec can't encode character '\\ud800' in position 0: surrogates not allowed"
    let process := Environment.utf8 .empty
    let E : Evaluator := ⟨.empty, ⟨2017, 3, 29, by decide, by decide⟩, process.lookup⟩
    process.table.find? name = none ∧
      (E.call "env" [name, "x"] fun _ => false).result = .error (.fault refusal) := by
  intro name refusal process E
  have hfails : process.lookup.find? name = .error refusal := by decide +kernel
  exact ⟨rfl, call_env_of_fails _ (List.cons_ne_nil _ _) hfails⟩

/-- A number is held against a literal that is none. -/
theorem call_lt_of_word :
    let E := withNumber (.int 5)
    let args := ["n", "many"]
    ((∃ s, (Value.int 5).toText = .ok s) ∧ ∃ s, (Value.int 5).shown = .ok s) ∧
      ¬ (Value.text "many").IsNumeric ∧
      ∃ e : PredicateError, e.IsArgument ∧
        (E.call "lt" args fun _ => false).result = .error (.declared e) := by
  intro E args
  have hv : E.data.find? "n" = some (.int 5) := rfl
  have hwritten : (∃ s, (Value.int 5).toText = .ok s) ∧ ∃ s, (Value.int 5).shown = .ok s :=
    ⟨⟨"5", by decide +kernel⟩, ⟨"5", by decide +kernel⟩⟩
  have hword : ¬ (Value.text "many").IsNumeric := by
    rw [← Value.isSome_ofText?_iff]
    decide
  refine ⟨hwritten, hword, ?_⟩
  refine (call_fails_as_ruled E "lt" args _ (fun key v hkey hfound => ?_) ?_).2.2.1.2
    ⟨.lt, rfl, .notNumeric hv trivial hword⟩
  · cases hkey
    cases hv.symm.trans hfound
    exact hwritten
  · intro h
    exact absurd h (by decide)

end Evaluator

end Verdict
