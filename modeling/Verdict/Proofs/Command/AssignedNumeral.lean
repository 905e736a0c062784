import Verdict.Proofs.Command.Assignments
import Verdict.Proofs.Evaluator.Comparison
import Verdict.Proofs.Yaml.Number
/-!
# Numerals on the command line

A text that is assigned to a key is read as a document, and the literal that stands in a clause is
read as a numeral. For a numeral in ASCII the two readers agree on the number, with one exception: a
zero and further digits below eight are read in base eight in a document and in base ten in a
clause. The integer that is stored is then closer to zero than the literal, unless both are below
eight.
-/

namespace Verdict

open Text
open Yaml (Ending IsOctal signed)

variable {cs tail : List Char} {V : String} {n : Numeral}

/-- A line feed behind a numeral makes no difference in a clause. -/
theorem Number.ofText?_of_ending (h : n.Writes cs) (htail : Ending tail)
    (hV : V.toList = cs ++ tail) : ofText? V = some (ofNumeral n) := by
  have hblank : ∀ c ∈ tail, isBlank c = true := by
    cases htail with
    | none => exact List.forall_mem_nil _
    | lineFeed => exact List.forall_mem_singleton.2 (by decide)
  have htrim : trimChars ([] ++ (cs ++ tail)) = cs :=
    (trimWhere_append (List.forall_mem_nil _) hblank cs).trans
      (trimChars_of_forall h.isBlank_eq_false)
  refine ofText?_of_numeral ?_
  rw [hV, ← List.nil_append (cs ++ tail), htrim, Numeral.ofChars?_eq_some_iff]
  exact h

/-- A number or a text that is the value of a word is the value of the assigned text. -/
theorem contextValue_of_word {v : Value} {x : Number} (hcs : Yaml.IsWord cs) (htail : Ending tail)
    (hV : V.toList = cs ++ tail) (hx : v.toNumber? = some x)
    (hv : (Yaml.Node.scalar (Yaml.Node.formTag (String.ofList cs)) (String.ofList cs)).value =
      .ok v) :
    contextValue Yaml.reader V = .ok v := by
  have hread : Yaml.reader V = .ok v := by
    rw [Yaml.reader, Yaml.document, hV, Yaml.document_of_word hcs htail, hv]
    rfl
  rw [contextValue, hread]
  cases v with
  | int _ | float _ | text _ => rfl
  | _ => cases hx

/-- One assignment to a key. -/
theorem contextAssignments_of_value {reader : Reader} {v : Value}
    (h : contextValue reader V = .ok v) :
    ∃ data, contextAssignments reader "--set" ["x=" ++ V] = .ok data ∧
      data.find? "x" = some v := by
  have hsplit : assignment? ("x=" ++ V) = some ("x", V) := by
    have hitem : ("x=" ++ V).toList = 'x' :: '=' :: V.toList := by
      rw [String.toList_append]
      rfl
    have hbehind : ('x' :: '=' :: V.toList).dropWhile (· ≠ '=') = '=' :: V.toList := rfl
    have hfront : ('x' :: '=' :: V.toList).takeWhile (· ≠ '=') = ['x'] := rfl
    rw [assignment?, hitem, hbehind, hfront]
    dsimp only
    rw [String.ofList_toList]
    rfl
  refine ⟨Table.empty.insert "x" v, ?_, ?_⟩
  · rw [contextAssignments, addAssignments, hsplit]
    dsimp only
    rw [h]
    rfl
  · rw [Table.find?_insert, if_pos rfl]

namespace Value

theorem orderNumbers_int (i j : Int) : orderNumbers (.int i) (.int j) = cmp i j := by
  have hcast : cmp (i : ℚ) (j : ℚ) = cmp i j := Int.cast_strictMono.cmp_map_eq i j
  rw [orderNumbers_of_values rfl rfl, ExtendedRat.cmp_coe, hcast]

/-- A value that is the number a literal writes is on a level with the literal. -/
theorem order_of_alike {v : Value} {x : Number} (hx : v.toNumber? = some x)
    (hV : Number.ofText? V = some x) : v ≠ .float .nan ∧ v.order V = .ok .eq := by
  have hnan : v ≠ .float .nan := by
    rintro rfl
    exact Number.ofText?_ne_nan hV (Option.some.inj hx).symm
  obtain ⟨a, ha⟩ := Number.exists_value_of_ofText? hV
  refine ⟨hnan, ?_⟩
  rw [order_of_numbers hx hV, orderNumbers_of_values ha ha, cmp_self_eq_eq]

variable {negative : Bool} {ds : List Char}

theorem cmp_signed {a b : Nat} (h : a < b) :
    cmp (signed negative a) (signed negative b) = if negative then .gt else .lt := by
  cases negative with
  | false => exact (cmp_eq_lt_iff _ _).2 (Int.ofNat_lt.2 h)
  | true => exact (cmp_eq_gt_iff _ _).2 (Int.neg_lt_neg (Int.ofNat_lt.2 h))

/-- What is read in base eight is as large as in base ten below eight, and closer to zero from there
on. -/
theorem cmp_octal (hds : ∀ c ∈ ds, '0' ≤ c ∧ c ≤ '7') :
    cmp (signed negative (Nat.ofDigitChars 8 ds 0)) (signed negative (Nat.ofDigitChars 10 ds 0)) =
      if Nat.ofDigitChars 10 ds 0 < 8 then .eq else if negative then .gt else .lt := by
  rcases eight_or_ten fun c hc => value_lt_of_le_seven (hds c hc) with
    ⟨hsame, hsmall⟩ | ⟨hless, hlarge⟩
  · rw [hsame, cmp_self_eq_eq, if_pos hsmall]
  · rw [cmp_signed hless, if_neg (Nat.not_lt.2 hlarge)]

/-- What is stored in base eight has an order against its own text. -/
theorem order_of_octal (hoctal : IsOctal negative ds cs) (hwrites : n.Writes cs)
    (hascii : ∀ c ∈ cs, c.toNat < 128) (hshort : n.whole.length ≤ digitLimit)
    (htail : Ending tail) (hV : V.toList = cs ++ tail) :
    (int (signed negative (Nat.ofDigitChars 8 ds 0))).order V =
      .ok (if Nat.ofDigitChars 10 ds 0 < 8 then .eq else if negative then .gt else .lt) := by
  obtain ⟨rfl, hbody, hwhole⟩ := hoctal.parts hwrites
  have hvalue : n.toInt = signed n.negative (Nat.ofDigitChars 10 ds 0) := by
    rw [hwrites.toInt_eq hascii hwhole, hbody, Nat.ofDigitChars_cons]
    rfl
  have hread := Number.ofText?_of_ending hwrites htail hV
  rw [Number.ofNumeral_of_short hwhole hshort, hvalue] at hread
  rw [order_of_numbers rfl hread, orderNumbers_int, cmp_octal hoctal.2]

end Value

namespace Evaluator

/-- Three of the predicates by an order. -/
theorem calls_of_order {E : Evaluator} {key : String} {v : Value} {o : Ordering}
    (hv : E.data.find? key = some v) (hnan : v ≠ .float .nan) (ho : v.order V = .ok o)
    (bits : Bits) :
    (E.call "eq" [key, V] bits).result = .ok o.isEq ∧
      (E.call "lt" [key, V] bits).result = .ok o.isLT ∧
      (E.call "gt" [key, V] bits).result = .ok o.isGT :=
  ⟨call_of_order hv hnan ho .eq bits, call_of_order hv hnan ho .lt bits,
    call_of_order hv hnan ho .gt bits⟩

/-- **A number means the same when it is assigned and in a clause**, unless it is read in base
eight. A numeral in ASCII of no more digits than the limit is assigned to a key, perhaps with a line
feed behind it. Then `eq` holds of the key and the assigned text and neither `lt` nor `gt` does. But
if the text is a zero and further digits below eight behind an optional sign, and these digits write
eight or more in base ten, then the integer is stored that they write in base eight, and it lies
between zero and the literal. -/
theorem call_of_assigned_numeral (hnumeral : cs ∈ Numeral.numerals) (htail : Ending tail)
    (hV : V.toList = cs ++ tail) (hascii : ∀ c ∈ cs, c.toNat < 128)
    (hshort : (Numeral.digitValues cs).length ≤ digitLimit) :
    ∃ v data, contextAssignments Yaml.reader "--set" ["x=" ++ V] = .ok data ∧
      data.find? "x" = some v ∧
      ∀ (E : Evaluator) (bits : Bits), E.data.find? "x" = some v →
        ((∀ negative ds, IsOctal negative ds cs → Nat.ofDigitChars 10 ds 0 < 8) →
          (E.call "eq" ["x", V] bits).result = .ok true ∧
          (E.call "lt" ["x", V] bits).result = .ok false ∧
          (E.call "gt" ["x", V] bits).result = .ok false) ∧
        ∀ negative ds, IsOctal negative ds cs → 8 ≤ Nat.ofDigitChars 10 ds 0 →
          v = .int (signed negative (Nat.ofDigitChars 8 ds 0)) ∧
          (E.call "eq" ["x", V] bits).result = .ok false ∧
          (E.call "lt" ["x", V] bits).result = .ok (!negative) ∧
          (E.call "gt" ["x", V] bits).result = .ok negative := by
  obtain ⟨n, hwrites⟩ := Numeral.exists_writes_iff.2 hnumeral
  have hword := Yaml.isWord_of_writes hwrites hascii
  have hlength := hwrites.length_whole_le.trans hshort
  -- an octal numeral is read in its own base, any other one as the evaluator reads it
  by_cases hoctal : ∃ negative ds, IsOctal negative ds cs
  · obtain ⟨negative, ds, hoctal⟩ := hoctal
    obtain ⟨data, hdata, hfound⟩ := contextAssignments_of_value
      (contextValue_of_word hword htail hV rfl (hoctal.value hwrites hascii))
    have horder := Value.order_of_octal hoctal hwrites hascii hlength htail hV
    refine ⟨_, data, hdata, hfound, fun E bits hE => ⟨fun hsmall => ?_, fun s es h hlarge => ?_⟩⟩
    · rw [if_pos (hsmall negative ds hoctal)] at horder
      exact calls_of_order hE nofun horder bits
    · obtain ⟨rfl, rfl⟩ := hoctal.unique h hwrites
      rw [if_neg (Nat.not_lt.2 hlarge)] at horder
      refine ⟨rfl, ?_⟩
      cases s with
      | false => exact calls_of_order hE nofun horder bits
      | true => exact calls_of_order hE nofun horder bits
  · obtain ⟨v, hv, hx⟩ := Yaml.value_of_writes hwrites hascii hlength fun negative ds h =>
      hoctal ⟨negative, ds, h⟩
    obtain ⟨data, hdata, hfound⟩ := contextAssignments_of_value
      (contextValue_of_word hword htail hV hx hv)
    obtain ⟨hnan, horder⟩ := Value.order_of_alike hx (Number.ofText?_of_ending hwrites htail hV)
    exact ⟨v, data, hdata, hfound, fun E bits hE =>
      ⟨fun _ => calls_of_order hE hnan horder bits,
        fun negative ds h => absurd ⟨negative, ds, h⟩ hoctal⟩⟩

/-- A numeral with a sign, a fraction and an exponent, and a line feed behind it. -/
theorem call_of_assigned_numeral_with_exponent :
    "+08.50e1".toList ∈ Numeral.numerals ∧ Ending ['\n'] ∧
      "+08.50e1\n".toList = "+08.50e1".toList ++ ['\n'] ∧
      ("+08.50e1".toList.all fun c => c.toNat < 128) = true ∧
      (Numeral.digitValues "+08.50e1".toList).length ≤ digitLimit ∧
      ∃ v data, contextAssignments Yaml.reader "--set" ["x=+08.50e1\n"] = .ok data ∧
        data.find? "x" = some v ∧
        ∀ (E : Evaluator) (bits : Bits), E.data.find? "x" = some v →
          (E.call "eq" ["x", "+08.50e1\n"] bits).result = .ok true ∧
          (E.call "lt" ["x", "+08.50e1\n"] bits).result = .ok false ∧
          (E.call "gt" ["x", "+08.50e1\n"] bits).result = .ok false := by
  have hnumeral : "+08.50e1".toList ∈ Numeral.numerals := Numeral.isSome_ofChars?_iff.1 (by decide)
  have hascii : ("+08.50e1".toList.all fun c => c.toNat < 128) = true := by decide
  have hshort : (Numeral.digitValues "+08.50e1".toList).length ≤ digitLimit := by decide
  obtain ⟨v, data, hdata, hfound, hcalls⟩ := call_of_assigned_numeral hnumeral .lineFeed
    (V := "+08.50e1\n") rfl (fun c hc => of_decide_eq_true (List.all_eq_true.1 hascii c hc)) hshort
  refine ⟨hnumeral, .lineFeed, rfl, hascii, hshort, v, data, hdata, hfound, fun E bits hE =>
    (hcalls E bits hE).1 ?_⟩
  -- an eight is no digit of base eight
  rintro negative ds ⟨⟨s, signed, hcs⟩, hds⟩
  have hchars : "+08.50e1".toList = ['+', '0', '8', '.', '5', '0', 'e', '1'] := rfl
  rw [hchars] at hcs
  cases signed with
  | absent => cases hcs
  | minus => cases hcs
  | plus =>
    cases hcs
    exact absurd (hds '8' List.mem_cons_self).2 (by decide)

/-- The text `010` is assigned as the integer 8, which is below the literal and not equal to it. -/
theorem call_of_assigned_010 :
    "010".toList ∈ Numeral.numerals ∧ ("010".toList.all fun c => c.toNat < 128) = true ∧
      (Numeral.digitValues "010".toList).length ≤ digitLimit ∧
      ∃ data, contextAssignments Yaml.reader "--set" ["x=" ++ "010"] = .ok data ∧
        ∀ (E : Evaluator) (bits : Bits), E.data = data →
          (E.call "eq" ["x", "010"] bits).result = .ok false ∧
          (E.call "lt" ["x", "010"] bits).result = .ok true := by
  have hascii : ("010".toList.all fun c => c.toNat < 128) = true := by decide
  have hall : ∀ c ∈ "010".toList, c.toNat < 128 := fun c hc =>
    of_decide_eq_true (List.all_eq_true.1 hascii c hc)
  have hwrites : (⟨false, [0, 1, 0], none, none⟩ : Numeral).Writes "010".toList :=
    Numeral.ofChars?_eq_some_iff.1 (by decide)
  have hoctal : IsOctal false ['1', '0'] "010".toList :=
    ⟨⟨[], .absent, rfl⟩,
      List.forall_mem_cons.2 ⟨by decide, List.forall_mem_singleton.2 (by decide)⟩⟩
  have hV : "010".toList = "010".toList ++ [] := rfl
  obtain ⟨data, hdata, hfound⟩ := contextAssignments_of_value (contextValue_of_word
    (Yaml.isWord_of_writes hwrites hall) .none hV rfl (hoctal.value hwrites hall))
  have horder := Value.order_of_octal hoctal hwrites hall (by decide) .none hV
  refine ⟨Numeral.exists_writes_iff.1 ⟨_, hwrites⟩, hascii, by decide, data, hdata, ?_⟩
  rintro E bits rfl
  obtain ⟨heq, hlt, -⟩ := calls_of_order hfound nofun horder bits
  exact ⟨heq, hlt⟩

end Evaluator

end Verdict
