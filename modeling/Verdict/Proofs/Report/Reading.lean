import Verdict.Report.Json
/-!
# Reading JSON

A reader for JSON documents of truth values, texts, lists and objects, written from the grammar of
JSON and not from the writer: there may be blanks between any two tokens, every escape that JSON has
is understood, in digits of either case, and characters above U+FFFF may be escaped as two units. It
reads back every document that is written (`read?_render`), so a document can be told from its text.

The units of a text are read first and made into characters after that, since a character may take
two of them. Nesting is bounded by fuel, of which a text's length is enough.
-/

namespace Verdict.Json

/-! ## Texts -/

/-- The value of a hexadecimal digit. -/
def hexValue? (c : Char) : Option Nat :=
  let n := c.toNat
  if 48 ≤ n ∧ n ≤ 57 then some (n - 48)
  else if 97 ≤ n ∧ n ≤ 102 then some (n - 87)
  else if 65 ≤ n ∧ n ≤ 70 then some (n - 55)
  else none

/-- The number that the next `width` hexadecimal digits write behind `n`, and what follows them. -/
def hexNumber? : Nat → Nat → List Char → Option (Nat × List Char)
  | 0, n, cs => some (n, cs)
  | _ + 1, _, [] => none
  | width + 1, n, c :: cs => (hexValue? c).bind fun d => hexNumber? width (16 * n + d) cs

/-- The character that a letter behind a backslash stands for, by its code point. -/
def escaped? : Char → Option Nat
  | '"' => some 34
  | '\\' => some 92
  | '/' => some 47
  | 'b' => some 8
  | 'f' => some 12
  | 'n' => some 10
  | 'r' => some 13
  | 't' => some 9
  | _ => none

/-- The first unit of a text, and what follows it. Characters that stand for themselves are units of
any size. -/
def unit? : List Char → Option (Nat × List Char)
  | [] => none
  | c :: cs =>
    if c = '\\' then
      match cs with
      | [] => none
      | e :: cs => if e = 'u' then hexNumber? 4 0 cs else (escaped? e).map fun n => (n, cs)
    else if c = '"' ∨ c.toNat < 32 then none
    else some (c.toNat, cs)

/-- The units up to the quote that ends a text, and what follows it. -/
def units? : Nat → List Char → Option (List Nat × List Char)
  | 0, _ => none
  | fuel + 1, cs =>
    if cs.head? = some '"' then some ([], cs.tail)
    else
      (unit? cs).bind fun first =>
        (units? fuel first.2).map fun more => (first.1 :: more.1, more.2)

/-- The characters that units write. The units of a pair make one character, and one of them alone
makes none. -/
def ofUnits? : List Nat → Option (List Char)
  | [] => some []
  | u :: us =>
    if 0xD800 ≤ u ∧ u < 0xDC00 then
      match us with
      | [] => none
      | v :: vs =>
        if 0xDC00 ≤ v ∧ v < 0xE000 then
          (ofUnits? vs).map fun cs =>
            Char.ofNat (0x10000 + (u - 0xD800) * 1024 + (v - 0xDC00)) :: cs
        else none
    else if 0xDC00 ≤ u ∧ u < 0xE000 then none
    else (ofUnits? us).map fun cs => Char.ofNat u :: cs

/-- The text up to the quote that ends it, and what follows it. -/
def text? (cs : List Char) : Option (String × List Char) :=
  (units? (cs.length + 1) cs).bind fun units =>
    (ofUnits? units.1).map fun text => (String.ofList text, units.2)

/-! ## Documents -/

/-- Whether a character may stand between tokens. -/
def isBlank (c : Char) : Bool := c = ' ' || c = '\n' || c = '\r' || c = '\t'

/-- What follows blanks. -/
def skipBlanks (cs : List Char) : List Char := cs.dropWhile isBlank

section Collections

variable {α : Type}

/-- One item or more with commas between them, up to the bracket that ends them, and what follows
it. -/
def items? (closing : Char) (item? : List Char → Option (α × List Char)) :
    Nat → List Char → Option (List α × List Char)
  | 0, _ => none
  | fuel + 1, cs =>
    (item? cs).bind fun first =>
      match skipBlanks first.2 with
      | [] => none
      | c :: rest =>
        if c = closing then some ([first.1], rest)
        else if c = ',' then
          (items? closing item? fuel rest).map fun more => (first.1 :: more.1, more.2)
        else none

/-- The items of a collection whose bracket has been opened, and what follows its end. -/
def collection? (closing : Char) (item? : List Char → Option (α × List Char)) (cs : List Char) :
    Option (List α × List Char) :=
  if (skipBlanks cs).head? = some closing then some ([], (skipBlanks cs).tail)
  else items? closing item? (cs.length + 1) cs

/-- A name, a colon and what `value?` reads, and what follows. -/
def member? (value? : List Char → Option (α × List Char)) (cs : List Char) :
    Option ((String × α) × List Char) :=
  match skipBlanks cs with
  | '"' :: cs =>
    (text? cs).bind fun name =>
      match skipBlanks name.2 with
      | ':' :: cs => (value? cs).map fun value => ((name.1, value.1), value.2)
      | _ => none
  | _ => none

end Collections

/-- A document, and what follows it. -/
def value? : Nat → List Char → Option (Json × List Char)
  | 0, _ => none
  | fuel + 1, cs =>
    match skipBlanks cs with
    | '"' :: cs => (text? cs).map fun s => (.text s.1, s.2)
    | '[' :: cs => (collection? ']' (value? fuel) cs).map fun js => (.list js.1, js.2)
    | '\x7b' :: cs =>
      (collection? '\x7d' (member? (value? fuel)) cs).map fun ms => (.object ms.1, ms.2)
    | 't' :: 'r' :: 'u' :: 'e' :: cs => some (.bool true, cs)
    | 'f' :: 'a' :: 'l' :: 's' :: 'e' :: cs => some (.bool false, cs)
    | _ => none

/-- The document that a text writes, with blanks around it. -/
def read? (text : String) : Option Json :=
  (value? (text.toList.length + 1) text.toList).bind fun j =>
    if (skipBlanks j.2).isEmpty then some j.1 else none

/-- The member of an object with a name, if there is one. -/
def find? (name : String) : Json → Option Json
  | .object members => (members.find? fun m => m.1 = name).map Prod.snd
  | _ => none

/-! ## What is written

A text is written unit by unit as well, and each unit is read back. -/

section Writing

open Text

theorem hexValue?_hexDigit : ∀ n < 16, hexValue? (hexDigit n) = some n := by decide

/-- A digit that was written is read back behind the number `m`. -/
theorem hexNumber?_hexDigit (width m n : Nat) (cs : List Char) :
    hexNumber? (width + 1) m (hexDigit (n % 16) :: cs) = hexNumber? width (16 * m + n % 16) cs := by
  rw [hexNumber?, hexValue?_hexDigit (n % 16) (Nat.mod_lt n (by decide)), Option.bind_some]

theorem unit?_unitEscape {n : Nat} (h : n < 0x10000) (rest : List Char) :
    unit? (unitEscape n ++ rest) = some (n, rest) := by
  have hvalue : 16 * (16 * (16 * (16 * 0 + n / 16 / 16 / 16 % 16) + n / 16 / 16 % 16) +
      n / 16 % 16) + n % 16 = n := by omega
  change hexNumber? 4 0 (hexDigits 4 n ++ rest) = some (n, rest)
  simp only [hexDigits, List.nil_append, List.cons_append]
  rw [hexNumber?_hexDigit, hexNumber?_hexDigit, hexNumber?_hexDigit, hexNumber?_hexDigit, hvalue,
    hexNumber?]

/-- The units of a character. -/
def charUnits (c : Char) : List Nat :=
  let n := c.toNat
  if n < 0x10000 then [n] else [0xD800 + (n - 0x10000) / 1024, 0xDC00 + (n - 0x10000) % 1024]

/-- A unit as it is written. -/
def unitText (n : Nat) : List Char := if n < 128 then charText (Char.ofNat n) else unitEscape n

/-- The characters that have a letter. -/
def lettered : List Char := ['"', '\\', '\n', '\r', '\t', '\x08', '\x0c']

theorem charText_of_lettered {c : Char} (h : c ∈ lettered) :
    ∃ e, charText c = ['\\', e] ∧ e ≠ 'u' ∧ escaped? e = some c.toNat := by
  simp only [lettered, List.mem_cons, List.not_mem_nil, or_false] at h
  rcases h with rfl | rfl | rfl | rfl | rfl | rfl | rfl
  all_goals exact ⟨_, rfl, by decide, rfl⟩

/-- A character without a letter of its own is written as it is, or as one unit or two. -/
theorem charText_of_not_lettered {c : Char} (h : c ∉ lettered) :
    charText c =
      if 32 ≤ c.toNat ∧ c.toNat < 127 then [c]
      else if c.toNat < 0x10000 then unitEscape c.toNat
      else unitEscape (0xD800 + (c.toNat - 0x10000) / 1024) ++
        unitEscape (0xDC00 + (c.toNat - 0x10000) % 1024) := by
  simp only [lettered, List.mem_cons, List.not_mem_nil, or_false, not_or] at h
  obtain ⟨h₁, h₂, h₃, h₄, h₅, h₆, h₇⟩ := h
  unfold charText
  rw [if_neg h₁, if_neg h₂, if_neg h₃, if_neg h₄, if_neg h₅, if_neg h₆, if_neg h₇]

/-- A character is written unit by unit. -/
theorem charText_eq (c : Char) : charText c = (charUnits c).flatMap unitText := by
  unfold charUnits
  dsimp only
  by_cases hascii : c.toNat < 128
  · have hsmall : c.toNat < 0x10000 := by omega
    rw [if_pos hsmall, List.flatMap_singleton, unitText, if_pos hascii, Char.ofNat_toNat]
  · have hletter : c ∉ lettered := by
      have hsmall : ∀ d ∈ lettered, d.toNat < 128 := by simp [lettered]
      exact fun hmem => hascii (hsmall c hmem)
    have hprinted : ¬ (32 ≤ c.toNat ∧ c.toNat < 127) := by omega
    rw [charText_of_not_lettered hletter, if_neg hprinted]
    -- beyond ASCII every unit is escaped, and those of a pair are well beyond it
    have hunit {n : Nat} (hn : 128 ≤ n) : unitText n = unitEscape n := if_neg (by omega)
    split
    · rw [List.flatMap_singleton, hunit (by omega)]
    · rw [List.flatMap_cons, List.flatMap_singleton, hunit (by omega), hunit (by omega)]

theorem ofUnits?_cons {u : Nat} (h : u < 0xD800 ∨ 0xE000 ≤ u) (us : List Nat) :
    ofUnits? (u :: us) = (ofUnits? us).map (Char.ofNat u :: ·) := by
  have hhigh : ¬ (0xD800 ≤ u ∧ u < 0xDC00) := by omega
  have hlow : ¬ (0xDC00 ≤ u ∧ u < 0xE000) := by omega
  rw [ofUnits?.eq_def]
  simp only [if_neg hhigh, if_neg hlow]

/-- A pair of units for the number `n` beyond 16 bits. -/
theorem ofUnits?_pair {n : Nat} (h : n < 0x100000) (us : List Nat) :
    ofUnits? ((0xD800 + n / 1024) :: (0xDC00 + n % 1024) :: us) =
      (ofUnits? us).map (Char.ofNat (0x10000 + n) :: ·) := by
  have hhigh : 0xD800 ≤ 0xD800 + n / 1024 ∧ 0xD800 + n / 1024 < 0xDC00 := by omega
  have hlow : 0xDC00 ≤ 0xDC00 + n % 1024 ∧ 0xDC00 + n % 1024 < 0xE000 := by omega
  have hsum : 0x10000 + (0xD800 + n / 1024 - 0xD800) * 1024 + (0xDC00 + n % 1024 - 0xDC00) =
      0x10000 + n := by omega
  rw [ofUnits?.eq_def]
  simp only [if_pos hhigh, if_pos hlow, hsum]

/-- The units of a character are read as the character. -/
theorem ofUnits?_charUnits (c : Char) (us : List Nat) :
    ofUnits? (charUnits c ++ us) = (ofUnits? us).map (c :: ·) := by
  have hvalid : c.toNat < 0xD800 ∨ 0xDFFF < c.toNat ∧ c.toNat < 0x110000 := c.valid
  unfold charUnits
  dsimp only
  split
  · rw [List.singleton_append, ofUnits?_cons (by omega), Char.ofNat_toNat]
  · have hpair := ofUnits?_pair (n := c.toNat - 0x10000) (by omega) us
    have hsum : 0x10000 + (c.toNat - 0x10000) = c.toNat := by omega
    rw [List.cons_append, List.singleton_append, hpair, hsum, Char.ofNat_toNat]

theorem ofUnits?_flatMap (cs : List Char) : ofUnits? (cs.flatMap charUnits) = some cs := by
  induction cs with
  | nil => rfl
  | cons c cs ih => rw [List.flatMap_cons, ofUnits?_charUnits, ih, Option.map_some]

theorem charUnits_lt {c : Char} {u : Nat} (h : u ∈ charUnits c) : u < 0x10000 := by
  have hvalid : c.toNat < 0xD800 ∨ 0xDFFF < c.toNat ∧ c.toNat < 0x110000 := c.valid
  unfold charUnits at h
  dsimp only at h
  split at h
  · rw [List.mem_singleton.1 h]
    assumption
  · simp only [List.mem_cons, List.not_mem_nil, or_false] at h
    omega

/-- A character of ASCII has a letter, stands for itself, or is escaped by its number. -/
theorem charText_of_ascii {c : Char} (h : c.toNat < 128) :
    (∃ e, charText c = ['\\', e] ∧ e ≠ 'u' ∧ escaped? e = some c.toNat) ∨
      (charText c = [c] ∧ c ≠ '\\' ∧ c ≠ '"' ∧ 32 ≤ c.toNat) ∨
      charText c = unitEscape c.toNat := by
  by_cases hletter : c ∈ lettered
  · exact .inl (charText_of_lettered hletter)
  · have hbackslash : c ≠ '\\' := fun heq => hletter (heq ▸ by decide)
    have hquote : c ≠ '"' := fun heq => hletter (heq ▸ by decide)
    rw [charText_of_not_lettered hletter]
    by_cases hprinted : 32 ≤ c.toNat ∧ c.toNat < 127
    · exact .inr (.inl ⟨if_pos hprinted, hbackslash, hquote, hprinted.1⟩)
    · rw [if_neg hprinted, if_pos (by omega)]
      exact .inr (.inr rfl)

/-- A unit that was written is read back, and it does not begin like the end of a text. -/
theorem unit?_unitText {u : Nat} (h : u < 0x10000) (rest : List Char) :
    unit? (unitText u ++ rest) = some (u, rest) ∧ (unitText u ++ rest).head? ≠ some '"' := by
  have hopening : some '\\' ≠ some '"' := by decide
  have hescape : unit? (unitEscape u ++ rest) = some (u, rest) ∧
      (unitEscape u ++ rest).head? ≠ some '"' := ⟨unit?_unitEscape h rest, hopening⟩
  unfold unitText
  split
  · next hascii =>
    have hvalid : u.isValidChar := .inl (by omega)
    have hnat : (Char.ofNat u).toNat = u := by
      rw [Char.ofNat, dif_pos hvalid]
      rfl
    -- below 128 the unit is a character, written with a short escape, as itself, or as its number
    generalize Char.ofNat u = c at hnat
    subst hnat
    rcases charText_of_ascii hascii with ⟨e, htext, hletter, he⟩ | ⟨htext, hc⟩ | htext
    · rw [htext]
      exact ⟨by simp [unit?, hletter, he], hopening⟩
    · obtain ⟨hbackslash, hquote, hprinted⟩ := hc
      have hcontrol : ¬ c.toNat < 32 := by omega
      rw [htext]
      exact ⟨by simp [unit?, hbackslash, hquote, hcontrol], by simpa using hquote⟩
    · rw [htext]
      exact hescape
  · exact hescape

/-- Units that are written are read back up to the closing quote. -/
theorem units?_flatMap {us : List Nat} (hus : ∀ u ∈ us, u < 0x10000) {fuel : Nat}
    (hfuel : us.length < fuel) (rest : List Char) :
    units? fuel (us.flatMap unitText ++ '"' :: rest) = some (us, rest) := by
  induction us generalizing fuel with
  | nil =>
    obtain ⟨fuel, rfl⟩ := Nat.exists_eq_add_of_lt hfuel
    rfl
  | cons u us ih =>
    obtain ⟨hu, hus⟩ := List.forall_mem_cons.1 hus
    cases fuel with
    | zero => exact absurd hfuel (Nat.not_lt_zero _)
    | succ fuel =>
      obtain ⟨hunit, hquote⟩ := unit?_unitText hu (us.flatMap unitText ++ '"' :: rest)
      rw [List.flatMap_cons, List.append_assoc, units?, if_neg hquote, hunit, Option.bind_some,
        ih hus (Nat.lt_of_succ_lt_succ hfuel), Option.map_some]

/-- Each unit is written in at least one character. -/
theorem length_le_flatMap_unitText {us : List Nat} (hus : ∀ u ∈ us, u < 0x10000) :
    us.length ≤ (us.flatMap unitText).length := by
  induction us with
  | nil => exact Nat.le_refl 0
  | cons u us ih =>
    obtain ⟨hu, hus⟩ := List.forall_mem_cons.1 hus
    have hne : unitText u ≠ [] := by
      intro hnil
      have hunit := (unit?_unitText hu []).1
      rw [hnil] at hunit
      cases hunit
    have hpos := List.length_pos_iff.2 hne
    have hrest := ih hus
    simp only [List.flatMap_cons, List.length_append, List.length_cons]
    omega

/-- A text is written unit by unit, and the units have 16 bits. -/
theorem flatMap_charText_eq (s : String) :
    s.toList.flatMap charText = (s.toList.flatMap charUnits).flatMap unitText ∧
      ∀ u ∈ s.toList.flatMap charUnits, u < 0x10000 := by
  refine ⟨by simp only [List.flatMap_assoc, ← charText_eq], fun u hu => ?_⟩
  obtain ⟨c, -, hc⟩ := List.mem_flatMap.1 hu
  exact charUnits_lt hc

/-- A text that was written is read back. -/
theorem text?_written (s : String) (rest : List Char) :
    text? (s.toList.flatMap charText ++ '"' :: rest) = some (s, rest) := by
  obtain ⟨hunits, hlt⟩ := flatMap_charText_eq s
  have hfuel : (s.toList.flatMap charUnits).length <
      (s.toList.flatMap charText ++ '"' :: rest).length + 1 := by
    have hlength := length_le_flatMap_unitText hlt
    rw [← hunits] at hlength
    rw [List.length_append]
    omega
  rw [text?, hunits, units?_flatMap hlt (by rwa [← hunits]), Option.bind_some, ofUnits?_flatMap,
    Option.map_some, String.ofList_toList]

/-! ### Documents -/

theorem skipBlanks_append {blanks : List Char} (h : ∀ c ∈ blanks, isBlank c = true)
    (cs : List Char) : skipBlanks (blanks ++ cs) = skipBlanks cs :=
  List.dropWhile_append_of_pos h

theorem skipBlanks_cons {c : Char} (h : isBlank c = false) (cs : List Char) :
    skipBlanks (c :: cs) = c :: cs :=
  List.dropWhile_cons_of_neg (by simp [h])

theorem isBlank_of_mem_newline {level : Nat} {c : Char} (h : c ∈ newline level) :
    isBlank c = true := by
  rcases List.mem_cons.1 h with rfl | h
  · rfl
  · rw [List.eq_of_mem_replicate h]
    rfl

theorem separated_cons (item : List Char) {items : List (List Char)} (h : items ≠ []) :
    separated (item :: items) = item ++ ',' :: separated items := by
  cases items with
  | nil => exact absurd rfl h
  | cons second items => rfl

section Written

variable {α : Type} {closing : Char} {item? : List Char → Option (α × List Char)}
  {written : α → List Char} {level : Nat}

/-- Items that are read back one by one are read back from a row of lines. -/
theorem items?_separated {as : List α} (hne : as ≠ [])
    (hitems : ∀ a ∈ as, ∀ rest, item? (newline level ++ (written a ++ rest)) = some (a, rest))
    (hclosing : isBlank closing = false) (hcomma : closing ≠ ',') {blanks : List Char}
    (hblanks : ∀ c ∈ blanks, isBlank c = true) {fuel : Nat} (hfuel : as.length ≤ fuel)
    (rest : List Char) :
    items? closing item? fuel
        (separated (as.map fun a => newline level ++ written a) ++ (blanks ++ closing :: rest)) =
      some (as, rest) := by
  -- on the items, one step of the fuel for each
  induction as generalizing fuel with
  | nil => exact absurd rfl hne
  | cons a as ih =>
    obtain ⟨ha, has⟩ := List.forall_mem_cons.1 hitems
    cases fuel with
    | zero => exact absurd hfuel (Nat.not_succ_le_zero _)
    | succ fuel =>
      cases as with
      | nil =>
        rw [List.map_singleton, separated, items?, List.append_assoc, ha, Option.bind_some]
        simp only [skipBlanks_append hblanks, skipBlanks_cons hclosing, if_true]
      | cons b bs =>
        have hrest := ih (List.cons_ne_nil b bs) has (Nat.le_of_succ_le_succ hfuel)
        have hne : (b :: bs).map (fun a => newline level ++ written a) ≠ [] := nofun
        rw [List.map_cons, separated_cons _ hne, items?, List.append_assoc, List.append_assoc, ha,
          Option.bind_some]
        dsimp only
        rw [List.cons_append, skipBlanks_cons rfl]
        simp only [if_neg hcomma.symm, if_true, hrest, Option.map_some]

/-- Each item but one has a comma in front. -/
theorem length_le_separated (items : List (List Char)) :
    items.length ≤ (separated items).length + 1 := by
  induction items with
  | nil => exact Nat.zero_le _
  | cons item items ih =>
    cases items with
    | nil => exact Nat.le_add_left 1 _
    | cons second items =>
      have hcons := separated_cons item (List.cons_ne_nil second items)
      simp only [hcons, List.length_append, List.length_cons] at ih ⊢
      omega

/-- A collection is read back if its items are read back one by one, none of them beginning with a
blank or like the end of the collection. -/
theorem collection?_bracketed (opening closing : Char) {as : List α}
    (hitems : ∀ a ∈ as, ∀ rest,
      item? (newline (level + 1) ++ (written a ++ rest)) = some (a, rest))
    (hfirst : ∀ a ∈ as, ∃ c cs, written a = c :: cs ∧ isBlank c = false ∧ c ≠ closing)
    (hclosing : isBlank closing = false) (hcomma : closing ≠ ',') :
    ∃ body, bracketed opening closing level (as.map written) = opening :: body ∧
      ∀ rest, collection? closing item? (body ++ rest) = some (as, rest) := by
  cases as with
  | nil =>
    refine ⟨[closing], rfl, fun rest => ?_⟩
    unfold collection?
    rw [List.singleton_append, skipBlanks_cons hclosing]
    exact if_pos rfl
  | cons a as =>
    let lines := (a :: as).map fun a => newline (level + 1) ++ written a
    refine ⟨separated lines ++ newline level ++ [closing], ?_, fun rest => ?_⟩
    · rw [bracketed, if_neg (by simp), List.map_map]
      rfl
    · obtain ⟨c, cs, hc, hblank, hne⟩ := hfirst a List.mem_cons_self
      have hbody : separated lines ++ newline level ++ [closing] ++ rest =
          separated lines ++ (newline level ++ closing :: rest) := by simp
      have hskip : (skipBlanks (separated lines ++ (newline level ++ closing :: rest))).head? =
          some c := by
        have hhead : ∃ more, separated lines = newline (level + 1) ++ (c :: cs) ++ more := by
          rw [← hc]
          cases as with
          | nil => exact ⟨[], (List.append_nil _).symm⟩
          | cons b bs => exact ⟨_, separated_cons _ (List.cons_ne_nil _ _)⟩
        obtain ⟨more, hmore⟩ := hhead
        rw [hmore, List.append_assoc, List.append_assoc,
          skipBlanks_append fun _ => isBlank_of_mem_newline, List.cons_append,
          skipBlanks_cons hblank, List.head?_cons]
      have hfuel : (a :: as).length ≤
          (separated lines ++ (newline level ++ closing :: rest)).length + 1 := by
        have hlength := length_le_separated lines
        rw [List.length_map] at hlength
        rw [List.length_append]
        omega
      -- the first item does not look like the end, so that items are read
      rw [hbody, collection?, hskip, if_neg (by simpa using hne)]
      exact items?_separated (List.cons_ne_nil a as) hitems hclosing hcomma
        (fun _ => isBlank_of_mem_newline) hfuel rest

end Written

/-! ### Nesting -/

theorem itemChars_eq (level : Nat) (js : List Json) :
    itemChars level js = js.map (chars level) := by
  induction js with
  | nil => rfl
  | cons j js ih => rw [itemChars, ih, List.map_cons]

/-- A member as it is written. -/
def memberText (level : Nat) (m : String × Json) : List Char :=
  quote m.1 ++ ':' :: ' ' :: chars level m.2

theorem memberChars_eq (level : Nat) (ms : List (String × Json)) :
    memberChars level ms = ms.map (memberText level) := by
  induction ms with
  | nil => rfl
  | cons m ms ih => rw [memberChars, ih, List.map_cons, memberText]

theorem exists_bracketed_eq_cons (opening closing : Char) (level : Nat) (items : List (List Char)) :
    ∃ cs, bracketed opening closing level items = opening :: cs := by
  unfold bracketed
  split
  · exact ⟨_, rfl⟩
  · exact ⟨_, rfl⟩

theorem length_bracketed_pos (opening closing : Char) (level : Nat) (items : List (List Char)) :
    0 < (bracketed opening closing level items).length := by
  obtain ⟨cs, hcs⟩ := exists_bracketed_eq_cons opening closing level items
  rw [hcs]
  exact Nat.succ_pos _

/-- A document begins with a character of its own kind. -/
theorem exists_chars_eq_cons (level : Nat) (j : Json) :
    ∃ c cs, chars level j = c :: cs ∧ isBlank c = false ∧ c ≠ ']' := by
  cases j with
  | bool b => cases b <;> exact ⟨_, _, rfl, rfl, by decide⟩
  | text s => exact ⟨_, _, rfl, rfl, by decide⟩
  | list js =>
    obtain ⟨cs, hcs⟩ := exists_bracketed_eq_cons '[' ']' level (itemChars (level + 1) js)
    exact ⟨'[', cs, by rw [chars, hcs], rfl, by decide⟩
  | object ms =>
    obtain ⟨cs, hcs⟩ := exists_bracketed_eq_cons '\x7b' '\x7d' level (memberChars (level + 1) ms)
    exact ⟨'\x7b', cs, by rw [chars, hcs], rfl, by decide⟩

/-- An item of a bracketed row is shorter than the row. -/
theorem length_lt_bracketed (opening closing : Char) (level : Nat) {items : List (List Char)}
    {item : List Char} (h : item ∈ items) :
    item.length < (bracketed opening closing level items).length := by
  -- an item stands in the joined lines, and the brackets add to them
  have hseparated : ∀ lines : List (List Char), ∀ line ∈ lines,
      line.length ≤ (separated lines).length := by
    intro lines
    induction lines with
    | nil => exact fun line hline => absurd hline List.not_mem_nil
    | cons first lines ih =>
      intro line hline
      cases lines with
      | nil =>
        rw [List.mem_singleton.1 hline]
        exact Nat.le_refl _
      | cons second lines =>
        rw [separated_cons _ (List.cons_ne_nil _ _), List.length_append, List.length_cons]
        rcases List.mem_cons.1 hline with rfl | hline
        · omega
        · have hrest := ih line hline
          omega
  have hne : items.isEmpty = false := by
    cases items with
    | nil => exact absurd h List.not_mem_nil
    | cons first items => rfl
  have hline := hseparated (items.map (newline (level + 1) ++ ·)) _ (List.mem_map.2 ⟨item, h, rfl⟩)
  rw [List.length_append] at hline
  rw [bracketed, hne, if_neg (by decide), List.length_append, List.length_append, List.length_cons]
  omega

theorem length_chars_lt_memberText (level : Nat) (m : String × Json) :
    (chars level m.2).length < (memberText level m).length := by
  simp only [memberText, List.length_append, List.length_cons]
  omega

/-- A member that is written is read back, if its value is. -/
theorem member?_memberText {level : Nat} {m : String × Json}
    {value? : List Char → Option (Json × List Char)}
    (hvalue : ∀ rest, value? ([' '] ++ (chars level m.2 ++ rest)) = some (m.2, rest))
    {blanks : List Char} (hblanks : ∀ c ∈ blanks, isBlank c = true) (rest : List Char) :
    member? value? (blanks ++ (memberText level m ++ rest)) = some (m, rest) := by
  have htext := text?_written m.1 (':' :: ([' '] ++ (chars level m.2 ++ rest)))
  have hmember : memberText level m ++ rest = '"' :: (m.1.toList.flatMap charText ++
      '"' :: ':' :: ([' '] ++ (chars level m.2 ++ rest))) := by
    simp [memberText, quote]
  rw [hmember, member?, skipBlanks_append hblanks, skipBlanks_cons (by decide)]
  simp only [htext, Option.bind_some]
  rw [skipBlanks_cons (by decide)]
  simp only [hvalue, Option.map_some]

/-- Induction on documents, where a collection comes after its parts. -/
@[elab_as_elim]
theorem parts_induction {motive : Json → Prop} (bool : ∀ b, motive (.bool b))
    (text : ∀ s, motive (.text s)) (list : ∀ js, (∀ j ∈ js, motive j) → motive (.list js))
    (object : ∀ ms, (∀ m ∈ ms, motive m.2) → motive (.object ms)) : ∀ j : Json, motive j
  | .bool b => bool b
  | .text s => text s
  | .list js => list js fun j _ => parts_induction bool text list object j
  | .object ms => object ms fun m _ => parts_induction bool text list object m.2
termination_by j => sizeOf j
decreasing_by
  · have hsize := List.sizeOf_lt_of_mem ‹j ∈ js›
    simp only [Json.list.sizeOf_spec]
    omega
  · have hsize := List.sizeOf_lt_of_mem ‹m ∈ ms›
    have hmember : sizeOf m = 1 + sizeOf m.1 + sizeOf m.2 := rfl
    simp only [Json.object.sizeOf_spec]
    omega

/-- A document that was written is read back, with blanks before it. -/
theorem value?_chars (j : Json) {level fuel : Nat} (hfuel : (chars level j).length ≤ fuel)
    {blanks : List Char} (hblanks : ∀ c ∈ blanks, isBlank c = true) (rest : List Char) :
    value? fuel (blanks ++ (chars level j ++ rest)) = some (j, rest) := by
  induction j using parts_induction generalizing level fuel blanks rest with
  | bool b =>
    cases fuel with
    | zero => cases b <;> exact absurd hfuel (Nat.not_succ_le_zero _)
    | succ fuel =>
      rw [value?, skipBlanks_append hblanks]
      cases b <;> rfl
  | text s =>
    cases fuel with
    | zero => exact absurd hfuel (Nat.not_succ_le_zero _)
    | succ fuel =>
      have hquote : chars level (.text s) ++ rest =
          '"' :: (s.toList.flatMap charText ++ '"' :: rest) := by
        simp [chars, quote]
      rw [value?, skipBlanks_append hblanks, hquote, skipBlanks_cons (by decide)]
      simp only [text?_written, Option.map_some]
  | list js ih =>
    rw [chars, itemChars_eq] at hfuel ⊢
    cases fuel with
    | zero => exact absurd hfuel (Nat.not_le_of_lt (length_bracketed_pos _ _ _ _))
    | succ fuel =>
      -- an item is shorter than the collection by a bracket at least, so one unit of fuel less
      -- is enough for it
      have hitems : ∀ j ∈ js, ∀ rest, value? fuel
          (newline (level + 1) ++ (chars (level + 1) j ++ rest)) = some (j, rest) := by
        intro j hj rest
        have hlength := length_lt_bracketed '[' ']' level
          (List.mem_map_of_mem (f := chars (level + 1)) hj)
        exact ih j hj (by omega) (fun _ => isBlank_of_mem_newline) rest
      obtain ⟨body, hbody, hread⟩ := collection?_bracketed '[' ']' hitems
        (fun j _ => exists_chars_eq_cons (level + 1) j) (by decide) (by decide)
      rw [value?, skipBlanks_append hblanks, hbody, List.cons_append, skipBlanks_cons (by decide)]
      simp only [hread, Option.map_some]
  | object ms ih =>
    rw [chars, memberChars_eq] at hfuel ⊢
    cases fuel with
    | zero => exact absurd hfuel (Nat.not_le_of_lt (length_bracketed_pos _ _ _ _))
    | succ fuel =>
      have hmembers : ∀ m ∈ ms, ∀ rest, member? (value? fuel)
          (newline (level + 1) ++ (memberText (level + 1) m ++ rest)) = some (m, rest) := by
        intro m hm rest
        have hlength := length_lt_bracketed '\x7b' '\x7d' level
          (List.mem_map_of_mem (f := memberText (level + 1)) hm)
        have hvalue := length_chars_lt_memberText (level + 1) m
        exact member?_memberText (ih m hm (by omega) (List.forall_mem_singleton.2 rfl))
          (fun _ => isBlank_of_mem_newline) rest
      obtain ⟨body, hbody, hread⟩ := collection?_bracketed '\x7b' '\x7d' hmembers
        (fun m _ => ⟨'"', _, rfl, rfl, by simp⟩) (by decide) (by decide)
      rw [value?, skipBlanks_append hblanks, hbody, List.cons_append, skipBlanks_cons (by decide)]
      simp only [hread, Option.map_some]

/-- **Documents are read back.** The text of a document reads as that document, with or without a
line feed behind it. -/
theorem read?_render (j : Json) : read? j.render = some j ∧ read? (j.render ++ "\n") = some j := by
  have hread (blanks : List Char) (h : skipBlanks blanks = []) :
      read? (String.ofList (chars 0 j ++ blanks)) = some j := by
    have hfuel : (chars 0 j).length ≤ (chars 0 j ++ blanks).length + 1 := by
      rw [List.length_append]
      omega
    have hvalue := value?_chars j hfuel (List.forall_mem_nil _) blanks
    rw [List.nil_append] at hvalue
    rw [read?, String.toList_ofList, hvalue, Option.bind_some, h]
    rfl
  constructor
  · have hnone := hread [] rfl
    rwa [List.append_nil] at hnone
  · rw [render, ← String.ofList_toList (s := "\n"), ← String.ofList_append]
    exact hread ['\n'] rfl

end Writing

end Verdict.Json

namespace Verdict

/-- A report, read back, is its document. -/
theorem Report.read?_json (today : Date) (rs : List RuleResult) :
    Json.read? (json today rs) = some (document today rs) :=
  (Json.read?_render _).1

end Verdict
