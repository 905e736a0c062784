import Verdict.Proofs.Report.Reading
/-!
# The grammar of JSON

What the texts of JSON mean, whoever reads them: a relation for all of JSON, with the numbers and
the `null` that no report holds. It has one case for each production of the grammar and says nothing
of how a text is gone through, so a reader that keeps to JSON finds one of the meanings that a text
has. A document that was written has but one (`means_render_iff`).

A production relates characters to what they write and to what follows it. Written characters are
told by all of their readings at once (`Writes`): whatever stands behind them, they are read as one
thing only, and exactly up to their end. This passes from the parts of a document to the whole.
-/

namespace Verdict.Json

/-- What a text of JSON means. A number is known by its characters. -/
inductive Meaning where
  /-- Nothing. -/
  | null
  /-- A truth value. -/
  | bool (value : Bool)
  /-- A number. -/
  | number (digits : List Char)
  /-- A text. -/
  | text (value : String)
  /-- Meanings in a row. -/
  | list (items : List Meaning)
  /-- Meanings under names. -/
  | object (members : List (String × Meaning))

/-! ## Productions -/

section Productions

open Text (isAsciiDigit)

/-- Digits, one or more. -/
def Digits (cs : List Char) : Prop := cs ≠ [] ∧ ∀ c ∈ cs, isAsciiDigit c = true

/-- An integer without a sign: no zero in front of other digits. -/
inductive Whole : List Char → Prop
  /-- Zero. -/
  | zero : Whole ['0']
  /-- Digits that do not begin with zero. -/
  | digits {c : Char} {cs : List Char} (hdigits : Digits (c :: cs)) (hc : c ≠ '0') : Whole (c :: cs)

/-- The digits behind a point, which may be missing. -/
inductive Fraction : List Char → Prop
  /-- No fraction. -/
  | none : Fraction []
  /-- A point and digits. -/
  | digits {cs : List Char} (h : Digits cs) : Fraction ('.' :: cs)

/-- A power of ten, which may be missing. -/
inductive Power : List Char → Prop
  /-- No power. -/
  | none : Power []
  /-- The mark of a power, a sign at will, and digits. -/
  | digits {mark : Char} {sign cs : List Char} (hmark : mark ∈ ['e', 'E'])
    (hsign : sign ∈ [[], ['+'], ['-']]) (h : Digits cs) : Power (mark :: (sign ++ cs))

/-- A number: a minus sign at will, an integer, a fraction and a power. -/
inductive Number : List Char → Prop
  /-- The parts one after the other. -/
  | parts {sign whole fraction power : List Char} (hsign : sign ∈ [[], ['-']])
    (hwhole : Whole whole) (hfraction : Fraction fraction) (hpower : Power power) :
    Number (sign ++ (whole ++ (fraction ++ power)))

/-- The units up to the quote that ends a text, and what follows it. -/
inductive Units : List Char → List Nat → List Char → Prop
  /-- The quote. -/
  | done {rest : List Char} : Units ('"' :: rest) [] rest
  /-- A unit and more of them. -/
  | unit {cs more rest : List Char} {u : Nat} {us : List Nat} (first : unit? cs = some (u, more))
    (others : Units more us rest) : Units cs (u :: us) rest

/-- The text up to the quote that ends it, and what follows it. Units that make no characters are no
text. -/
def Inner (cs : List Char) (s : String) (rest : List Char) : Prop :=
  ∃ us, Units cs us rest ∧ ofUnits? us = some s.toList

section Items

variable {α : Type}

/-- Something with blanks in front of it. -/
inductive Spaced (Item : List Char → α → List Char → Prop) : List Char → α → List Char → Prop
  /-- The blanks and the thing. -/
  | behind {blanks cs rest : List Char} {a : α} (hblanks : ∀ c ∈ blanks, isBlank c = true)
    (item : Item cs a rest) : Spaced Item (blanks ++ cs) a rest

/-- Items with commas between them, up to the bracket behind the last one. -/
inductive Row (closing : Char) (Item : List Char → α → List Char → Prop) :
    List Char → List α → List Char → Prop
  /-- The last item. -/
  | last {cs blanks rest : List Char} {a : α} (item : Item cs a (blanks ++ closing :: rest))
    (hblanks : ∀ c ∈ blanks, isBlank c = true) : Row closing Item cs [a] rest
  /-- An item and a comma before more items. -/
  | more {cs blanks next rest : List Char} {a : α} {as : List α}
    (item : Item cs a (blanks ++ ',' :: next)) (hblanks : ∀ c ∈ blanks, isBlank c = true)
    (others : Row closing Item next as rest) : Row closing Item cs (a :: as) rest

/-- What stands behind the bracket that opens a collection, up to the one that closes it. -/
inductive Collection (closing : Char) (Item : List Char → α → List Char → Prop) :
    List Char → List α → List Char → Prop
  /-- Nothing but blanks. -/
  | empty {blanks rest : List Char} (hblanks : ∀ c ∈ blanks, isBlank c = true) :
    Collection closing Item (blanks ++ closing :: rest) [] rest
  /-- Items. -/
  | items {cs rest : List Char} {as : List α} (row : Row closing Item cs as rest) :
    Collection closing Item cs as rest

/-- A name, a colon and what has the name. -/
inductive Member (Item : List Char → α → List Char → Prop) :
    List Char → String × α → List Char → Prop
  /-- The three one after the other. -/
  | named {cs blanks next rest : List Char} {name : String} {a : α}
    (hname : Inner cs name (blanks ++ ':' :: next)) (hblanks : ∀ c ∈ blanks, isBlank c = true)
    (item : Spaced Item next a rest) : Member Item ('"' :: cs) (name, a) rest

end Items

/-- What characters mean, and what follows. -/
inductive Value : List Char → Meaning → List Char → Prop
  /-- The word for nothing. -/
  | null {rest : List Char} : Value ('n' :: 'u' :: 'l' :: 'l' :: rest) .null rest
  /-- The word for what holds. -/
  | holds {rest : List Char} : Value ('t' :: 'r' :: 'u' :: 'e' :: rest) (.bool true) rest
  /-- The word for what does not hold. -/
  | fails {rest : List Char} : Value ('f' :: 'a' :: 'l' :: 's' :: 'e' :: rest) (.bool false) rest
  /-- A number. -/
  | number {digits rest : List Char} (h : Number digits) :
    Value (digits ++ rest) (.number digits) rest
  /-- A text. -/
  | text {cs rest : List Char} {s : String} (h : Inner cs s rest) : Value ('"' :: cs) (.text s) rest
  /-- A list. -/
  | list {cs rest : List Char} {items : List Meaning}
    (h : Collection ']' (Spaced Value) cs items rest) : Value ('[' :: cs) (.list items) rest
  /-- An object. -/
  | object {cs rest : List Char} {members : List (String × Meaning)}
    (h : Collection '\x7d' (Spaced (Member Value)) cs members rest) :
    Value ('\x7b' :: cs) (.object members) rest

/-- Whether a text means something, with blanks around it. -/
def Means (text : String) (m : Meaning) : Prop :=
  ∃ blanks, Spaced Value text.toList m blanks ∧ ∀ c ∈ blanks, isBlank c = true

end Productions

/-! ## Meanings of documents -/

mutual

/-- What a document means. -/
def meaning : Json → Meaning
  | .bool b => .bool b
  | .text s => .text s
  | .list js => .list (itemMeanings js)
  | .object ms => .object (memberMeanings ms)

/-- What each document of a list means. -/
def itemMeanings : List Json → List Meaning
  | [] => []
  | j :: js => meaning j :: itemMeanings js

/-- What each member of an object means. -/
def memberMeanings : List (String × Json) → List (String × Meaning)
  | [] => []
  | (name, j) :: ms => (name, meaning j) :: memberMeanings ms

end

theorem itemMeanings_eq (js : List Json) : itemMeanings js = js.map meaning := by
  induction js with
  | nil => rfl
  | cons j js ih => rw [itemMeanings, ih, List.map_cons]

theorem memberMeanings_eq (ms : List (String × Json)) :
    memberMeanings ms = ms.map fun m => (m.1, meaning m.2) := by
  induction ms with
  | nil => rfl
  | cons m ms ih => rw [memberMeanings, ih, List.map_cons]

/-! ## First characters -/

/-- The characters with which texts of a meaning begin. -/
inductive Opens : Char → Meaning → Prop
  | null : Opens 'n' .null
  | holds : Opens 't' (.bool true)
  | fails : Opens 'f' (.bool false)
  | number {c : Char} {digits : List Char} (h : c = '-' ∨ Text.isAsciiDigit c = true) :
    Opens c (.number digits)
  | text {s : String} : Opens '"' (.text s)
  | list {items : List Meaning} : Opens '[' (.list items)
  | object {members : List (String × Meaning)} : Opens '\x7b' (.object members)

theorem Number.exists_first {digits : List Char} (h : Number digits) :
    ∃ c cs, digits = c :: cs ∧ (c = '-' ∨ Text.isAsciiDigit c = true) := by
  obtain ⟨hsign, hwhole, -, -⟩ := h
  simp only [List.mem_cons, List.not_mem_nil, or_false] at hsign
  rcases hsign with rfl | rfl
  · cases hwhole with
    | zero => exact ⟨'0', _, rfl, .inr rfl⟩
    | digits hdigits hc => exact ⟨_, _, rfl, .inr (hdigits.2 _ List.mem_cons_self)⟩
  · exact ⟨'-', _, rfl, .inl rfl⟩

/-- A value begins with a character that says which kind it is of. -/
theorem Value.exists_opens {cs rest : List Char} {m : Meaning} (h : Value cs m rest) :
    ∃ c more, cs = c :: more ∧ Opens c m := by
  cases h with
  | null => exact ⟨_, _, rfl, .null⟩
  | holds => exact ⟨_, _, rfl, .holds⟩
  | fails => exact ⟨_, _, rfl, .fails⟩
  | number h =>
    obtain ⟨c, more, rfl, hc⟩ := h.exists_first
    exact ⟨c, _, rfl, .number hc⟩
  | text h => exact ⟨_, _, rfl, .text⟩
  | list h => exact ⟨_, _, rfl, .list⟩
  | object h => exact ⟨_, _, rfl, .object⟩

/-- Whether characters that write something never begin with a blank or a bracket. -/
def Outside {α : Type} (closing : Char) (Item : List Char → α → List Char → Prop) : Prop :=
  ∀ cs a rest, Item cs a rest → ∃ c more, cs = c :: more ∧ isBlank c = false ∧ c ≠ closing

/-- What begins a number is no blank and ends no list. -/
theorem Opens.of_number {c : Char} (h : c = '-' ∨ Text.isAsciiDigit c = true) :
    isBlank c = false ∧ c ≠ ']' := by
  rcases h with rfl | h
  · decide
  · have hrange : 48 ≤ c.toNat ∧ c.toNat ≤ 57 := by simpa [Text.isAsciiDigit] using h
    constructor
    · have hne {d : Char} (hd : d.toNat < 48) : c ≠ d := by
        rintro rfl
        omega
      simp [isBlank, hne]
    · rintro rfl
      exact absurd hrange (by decide)

theorem value_outside : Outside ']' Value := by
  intro cs m rest h
  obtain ⟨c, more, rfl, hopens⟩ := h.exists_opens
  refine ⟨c, more, rfl, ?_⟩
  cases hopens with
  | number hc => exact Opens.of_number hc
  | _ => decide

theorem member_outside {α : Type} {Item : List Char → α → List Char → Prop} :
    Outside '\x7d' (Member Item) := by
  rintro _ _ rest ⟨_, _, _⟩
  exact ⟨_, _, rfl, by decide⟩

/-! ## What is written -/

/-- Whether characters write one thing only, whatever stands behind them. -/
def Writes {α : Type} (Item : List Char → α → List Char → Prop) (cs : List Char) (a : α) : Prop :=
  ∀ rest b rest', Item (cs ++ rest) b rest' ↔ b = a ∧ rest' = rest

/-- Blanks are told from what stands behind them. -/
theorem cons_eq_of_blanks {blanks blanks' cs ds : List Char} {c d : Char}
    (hblanks : ∀ c ∈ blanks, isBlank c = true) (hblanks' : ∀ c ∈ blanks', isBlank c = true)
    (hc : isBlank c = false) (hd : isBlank d = false) (h : blanks ++ c :: cs = blanks' ++ d :: ds) :
    c = d ∧ cs = ds := by
  have hskip := congrArg skipBlanks h
  rw [skipBlanks_append hblanks, skipBlanks_append hblanks', skipBlanks_cons hc,
    skipBlanks_cons hd] at hskip
  exact List.cons.inj hskip

section Texts

/-- Units that are written and closed by a quote are read as themselves. -/
theorem writes_units {us : List Nat} (hus : ∀ u ∈ us, u < 0x10000) :
    Writes Units (us.flatMap unitText ++ ['"']) us := by
  induction us with
  | nil =>
    intro rest vs rest'
    constructor
    · intro h
      cases h with
      | done => exact ⟨rfl, rfl⟩
      | unit first => exact absurd first nofun
    · rintro ⟨rfl, rfl⟩
      exact .done
  | cons u us ih =>
    obtain ⟨hu, hmore⟩ := List.forall_mem_cons.1 hus
    intro rest vs rest'
    -- what is written of a unit is read as it, whatever follows, and never begins with a quote
    obtain ⟨hunit, hquote⟩ := unit?_unitText hu (us.flatMap unitText ++ ['"'] ++ rest)
    rw [List.flatMap_cons, List.append_assoc (unitText u), List.append_assoc (unitText u)]
    constructor
    · intro h
      generalize hcs : unitText u ++ (us.flatMap unitText ++ ['"'] ++ rest) = cs at h hunit hquote
      cases h with
      | done => exact absurd rfl hquote
      | unit first others =>
        obtain ⟨rfl, rfl⟩ := Prod.mk.inj (Option.some.inj (first.symm.trans hunit))
        obtain ⟨rfl, hrest⟩ := (ih hmore _ _ _).1 others
        exact ⟨rfl, hrest⟩
    · rintro ⟨rfl, rfl⟩
      exact .unit hunit ((ih hmore _ _ _).2 ⟨rfl, rfl⟩)

/-- A text that was written writes this text only. -/
theorem writes_text (s : String) : Writes Inner (s.toList.flatMap charText ++ ['"']) s := by
  obtain ⟨hunits, hlt⟩ := flatMap_charText_eq s
  intro rest r rest'
  rw [hunits]
  constructor
  · rintro ⟨us, hus, hr⟩
    obtain ⟨rfl, hrest⟩ := (writes_units hlt rest us rest').1 hus
    rw [ofUnits?_flatMap, Option.some.injEq, String.toList_inj] at hr
    exact ⟨hr.symm, hrest⟩
  · rintro ⟨rfl, rfl⟩
    exact ⟨_, (writes_units hlt _ _ _).2 ⟨rfl, rfl⟩, ofUnits?_flatMap _⟩

end Texts

section Items

variable {α β : Type} {closing : Char} {Item : List Char → α → List Char → Prop}
  {cs blanks : List Char} {a : α}

/-- Blanks in front of what is written change nothing. -/
theorem Writes.spaced (h : Writes Item cs a) (houtside : Outside closing Item)
    (hblanks : ∀ c ∈ blanks, isBlank c = true) : Writes (Spaced Item) (blanks ++ cs) a := by
  intro rest b rest'
  rw [List.append_assoc]
  constructor
  · intro hspaced
    generalize hds : blanks ++ (cs ++ rest) = ds at hspaced
    obtain ⟨hblanks', item⟩ := hspaced
    obtain ⟨c, more, hcs, hc, -⟩ := houtside _ _ _ ((h rest a rest).2 ⟨rfl, rfl⟩)
    obtain ⟨d, more', rfl, hd, -⟩ := houtside _ _ _ item
    rw [hcs] at hds
    obtain ⟨rfl, rfl⟩ := cons_eq_of_blanks hblanks hblanks' hc hd hds
    exact (h rest b rest').1 (hcs ▸ item)
  · rintro ⟨rfl, rfl⟩
    exact .behind hblanks ((h _ _ _).2 ⟨rfl, rfl⟩)

section Rows

variable (hclosing : isBlank closing = false) (hcomma : closing ≠ ',')
  (hblanks : ∀ c ∈ blanks, isBlank c = true) {as : List α} {next rest : List Char}

include hclosing hcomma

include hblanks in
/-- With the bracket behind an item, the row ends. -/
theorem row_append_closing_iff (h : Writes Item cs a) :
    Row closing Item (cs ++ (blanks ++ closing :: next)) as rest ↔ as = [a] ∧ rest = next := by
  constructor
  · intro hrow
    cases hrow with
    | last item hblanks' =>
      obtain ⟨rfl, hrest⟩ := (h _ _ _).1 item
      obtain ⟨-, hrest⟩ := cons_eq_of_blanks hblanks' hblanks hclosing hclosing hrest
      exact ⟨rfl, hrest⟩
    | more item hblanks' others =>
      obtain ⟨-, hrest⟩ := (h _ _ _).1 item
      exact absurd (cons_eq_of_blanks hblanks' hblanks rfl hclosing hrest).1.symm hcomma
  · rintro ⟨rfl, rfl⟩
    exact .last ((h _ _ _).2 ⟨rfl, rfl⟩) hblanks

/-- With a comma behind an item, the row goes on. -/
theorem row_append_comma_iff (h : Writes Item cs a) :
    Row closing Item (cs ++ ',' :: next) as rest ↔
      ∃ as', as = a :: as' ∧ Row closing Item next as' rest := by
  constructor
  · intro hrow
    cases hrow with
    | last item hblanks =>
      obtain ⟨-, hrest⟩ := (h _ _ _).1 item
      exact absurd (cons_eq_of_blanks hblanks (List.forall_mem_nil _) hclosing rfl hrest).1 hcomma
    | more item hblanks others =>
      obtain ⟨rfl, hrest⟩ := (h _ _ _).1 item
      obtain ⟨-, rfl⟩ := cons_eq_of_blanks hblanks (List.forall_mem_nil _) rfl rfl hrest
      exact ⟨_, rfl, others⟩
  · rintro ⟨as', rfl, others⟩
    have hnone : ∀ c ∈ ([] : List Char), isBlank c = true := List.forall_mem_nil _
    exact .more ((h _ _ _).2 ⟨rfl, rfl⟩) hnone others

include hblanks in
/-- A row of items that were written is read as these items. -/
theorem writes_row {value : β → α} {written : β → List Char} {bs : List β} (hne : bs ≠ [])
    (hitems : ∀ b ∈ bs, Writes Item (written b) (value b)) :
    Writes (Row closing Item) (separated (bs.map written) ++ (blanks ++ [closing]))
      (bs.map value) := by
  -- on the items: behind the last one stands the closing mark, behind the others a comma
  induction bs with
  | nil => exact absurd rfl hne
  | cons b bs ih =>
    obtain ⟨hb, hbs⟩ := List.forall_mem_cons.1 hitems
    intro rest as rest'
    cases bs with
    | nil =>
      have hend : separated [written b] ++ (blanks ++ [closing]) ++ rest =
          written b ++ (blanks ++ closing :: rest) := by simp [separated]
      rw [List.map_singleton, hend]
      exact row_append_closing_iff hclosing hcomma hblanks hb
    | cons d bs =>
      have hnext : separated ((b :: d :: bs).map written) ++ (blanks ++ [closing]) ++ rest =
          written b ++ ',' ::
            (separated ((d :: bs).map written) ++ (blanks ++ [closing]) ++ rest) := by
        have hne : (d :: bs).map written ≠ [] := List.cons_ne_nil _ _
        rw [List.map_cons, separated_cons _ hne]
        simp
      rw [hnext, row_append_comma_iff hclosing hcomma hb]
      simp only [ih (List.cons_ne_nil d bs) hbs rest _ rest']
      constructor
      · rintro ⟨as', rfl, rfl, hrest⟩
        exact ⟨rfl, hrest⟩
      · rintro ⟨rfl, hrest⟩
        exact ⟨_, rfl, rfl, hrest⟩

end Rows

/-- A row has an item at least. -/
theorem Row.exists_item {cs rest : List Char} {as : List α} (h : Row closing Item cs as rest) :
    ∃ a more, Item cs a more := by
  cases h with
  | last item _ => exact ⟨_, _, item⟩
  | more item _ _ => exact ⟨_, _, item⟩

/-- There are no items where only blanks stand in front of the bracket. -/
theorem not_row_of_closing (houtside : Outside closing Item) (hclosing : isBlank closing = false)
    (hblanks : ∀ c ∈ blanks, isBlank c = true) {as : List α} {next rest : List Char} :
    ¬ Row closing (Spaced Item) (blanks ++ closing :: next) as rest := by
  intro row
  obtain ⟨a, more, item⟩ := row.exists_item
  generalize hcs : blanks ++ closing :: next = cs at item
  obtain ⟨hblanks', item⟩ := item
  obtain ⟨c, more, rfl, hc, hne⟩ := houtside _ _ _ item
  exact hne (cons_eq_of_blanks hblanks hblanks' hclosing hc hcs).1.symm

/-- A collection that was written is read as its items, none of which looks like its end. -/
theorem writes_bracketed (opening closing : Char) (level : Nat) {value : β → α}
    {written : β → List Char} {bs : List β}
    (hitems : ∀ b ∈ bs, Writes Item (written b) (value b)) (houtside : Outside closing Item)
    (hclosing : isBlank closing = false) (hcomma : closing ≠ ',') :
    ∃ body, bracketed opening closing level (bs.map written) = opening :: body ∧
      Writes (Collection closing (Spaced Item)) body (bs.map value) := by
  cases bs with
  | nil =>
    refine ⟨[closing], rfl, fun rest as rest' => ⟨fun h => ?_, ?_⟩⟩
    · generalize hcs : [closing] ++ rest = cs at h
      cases h with
      | empty hblanks =>
        obtain ⟨-, hrest⟩ := cons_eq_of_blanks (List.forall_mem_nil _) hblanks hclosing hclosing hcs
        exact ⟨rfl, hrest.symm⟩
      | items row =>
        rw [← hcs] at row
        -- a row begins with an item, and no item begins with the closing mark
        exact absurd row (not_row_of_closing houtside hclosing (List.forall_mem_nil _))
    · rintro ⟨rfl, rfl⟩
      have hempty : Collection closing (Spaced Item) ([] ++ closing :: rest') [] rest' :=
        .empty (List.forall_mem_nil _)
      exact hempty
  | cons b bs =>
    let line (b : β) := newline (level + 1) ++ written b
    have hlines : ∀ d ∈ b :: bs, Writes (Spaced Item) (line d) (value d) :=
      fun d hd => (hitems d hd).spaced houtside fun _ => isBlank_of_mem_newline
    have hend : ∀ c ∈ newline level, isBlank c = true := fun _ => isBlank_of_mem_newline
    -- every item stands on a line of its own, behind blanks that the grammar skips
    have hrow := writes_row hclosing hcomma hend (List.cons_ne_nil b bs) hlines
    refine ⟨separated ((b :: bs).map line) ++ (newline level ++ [closing]), ?_, ?_⟩
    · rw [bracketed, if_neg (by simp), List.map_map, List.cons_append, List.cons_append,
        List.append_assoc]
      rfl
    · intro rest as rest'
      rw [← hrow rest as rest']
      refine ⟨fun h => ?_, .items⟩
      generalize hcs : separated ((b :: bs).map line) ++ (newline level ++ [closing]) ++ rest = cs
        at h
      cases h with
      | items row => exact row
      | empty hblanks =>
        have row := (hrow rest _ rest).2 ⟨rfl, rfl⟩
        rw [hcs] at row
        exact absurd row (not_row_of_closing houtside hclosing hblanks)

/-- A member that was written is read as this member. -/
theorem writes_member {name : String} (h : Writes Item cs a) (houtside : Outside closing Item) :
    Writes (Member Item) (quote name ++ ':' :: ' ' :: cs) (name, a) := by
  have hspaced : Writes (Spaced Item) ([' '] ++ cs) a :=
    h.spaced houtside (List.forall_mem_singleton.2 rfl)
  intro rest m rest'
  have hcs : quote name ++ ':' :: ' ' :: cs ++ rest =
      '"' :: (name.toList.flatMap charText ++ ['"'] ++ ':' :: ([' '] ++ cs ++ rest)) := by
    simp [quote]
  rw [hcs]
  constructor
  · intro hmember
    cases hmember with
    | named hname hblanks item =>
      obtain ⟨rfl, hnext⟩ := (writes_text _ _ _ _).1 hname
      obtain ⟨-, rfl⟩ := cons_eq_of_blanks hblanks (List.forall_mem_nil _) rfl rfl hnext
      obtain ⟨rfl, hrest⟩ := (hspaced _ _ _).1 item
      exact ⟨rfl, hrest⟩
  · rintro ⟨rfl, rfl⟩
    have hnone : ∀ c ∈ ([] : List Char), isBlank c = true := List.forall_mem_nil _
    exact .named ((writes_text _ _ _ _).2 ⟨rfl, rfl⟩) hnone ((hspaced _ _ _).2 ⟨rfl, rfl⟩)

end Items

/-! ## Documents -/

section Documents

variable {m : Meaning} {c : Char} {cs rest : List Char}

theorem opens_of_value (h : Value (c :: cs) m rest) : Opens c m := by
  obtain ⟨d, more, hcs, hopens⟩ := h.exists_opens
  cases hcs
  exact hopens

/-- What begins with a quote is a text. -/
theorem value_text_iff : Value ('"' :: cs) m rest ↔ ∃ s, m = .text s ∧ Inner cs s rest := by
  constructor
  · intro h
    cases opens_of_value h with
    | number hc => exact absurd hc (by decide)
    | text =>
      generalize hds : '"' :: cs = ds at h
      cases h with
      | text h =>
        cases hds
        exact ⟨_, rfl, h⟩
  · rintro ⟨s, rfl, h⟩
    exact .text h

/-- What begins with a bracket is a list. -/
theorem value_list_iff : Value ('[' :: cs) m rest ↔
    ∃ items, m = .list items ∧ Collection ']' (Spaced Value) cs items rest := by
  constructor
  · intro h
    cases opens_of_value h with
    | number hc => exact absurd hc (by decide)
    | list =>
      generalize hds : '[' :: cs = ds at h
      cases h with
      | list h =>
        cases hds
        exact ⟨_, rfl, h⟩
  · rintro ⟨items, rfl, h⟩
    exact .list h

/-- What begins with a brace is an object. -/
theorem value_object_iff : Value ('\x7b' :: cs) m rest ↔
    ∃ members, m = .object members ∧
      Collection '\x7d' (Spaced (Member Value)) cs members rest := by
  constructor
  · intro h
    cases opens_of_value h with
    | number hc => exact absurd hc (by decide)
    | object =>
      generalize hds : '\x7b' :: cs = ds at h
      cases h with
      | object h =>
        cases hds
        exact ⟨_, rfl, h⟩
  · rintro ⟨members, rfl, h⟩
    exact .object h

/-- The word `true` is the truth value and nothing else. -/
theorem writes_holds : Writes Value "true".toList (.bool true) := by
  intro rest m rest'
  constructor
  · intro h
    cases opens_of_value h with
    | number hc => exact absurd hc (by decide)
    | holds =>
      generalize hds : "true".toList ++ rest = ds at h
      cases h with
      | holds =>
        cases hds
        exact ⟨rfl, rfl⟩
  · rintro ⟨rfl, rfl⟩
    exact .holds

/-- The word `false` is the truth value and nothing else. -/
theorem writes_fails : Writes Value "false".toList (.bool false) := by
  intro rest m rest'
  constructor
  · intro h
    cases opens_of_value h with
    | number hc => exact absurd hc (by decide)
    | fails =>
      generalize hds : "false".toList ++ rest = ds at h
      cases h with
      | fails =>
        cases hds
        exact ⟨rfl, rfl⟩
  · rintro ⟨rfl, rfl⟩
    exact .fails

/-- What is known by its first character is written by that character and its inside. -/
theorem Writes.opened {α β : Type} {opening : Char} {Item : List Char → α → List Char → Prop}
    {Part : List Char → β → List Char → Prop} {kind : β → α} {body : List Char} {b : β}
    (h : Writes Part body b)
    (hopening : ∀ {a : α} {cs rest : List Char},
      Item (opening :: cs) a rest ↔ ∃ b, a = kind b ∧ Part cs b rest) :
    Writes Item (opening :: body) (kind b) := by
  intro rest a rest'
  rw [List.cons_append, hopening]
  constructor
  · rintro ⟨b', rfl, hpart⟩
    obtain ⟨rfl, hrest⟩ := (h _ _ _).1 hpart
    exact ⟨rfl, hrest⟩
  · rintro ⟨rfl, rfl⟩
    exact ⟨b, rfl, (h _ _ _).2 ⟨rfl, rfl⟩⟩

/-- A document that was written is read as this document. -/
theorem writes_chars (j : Json) (level : Nat) : Writes Value (chars level j) j.meaning := by
  induction j using parts_induction generalizing level with
  | bool b =>
    cases b with
    | false => exact writes_fails
    | true => exact writes_holds
  | text s => exact (writes_text s).opened value_text_iff
  | list js ih =>
    obtain ⟨body, hbody, hwrites⟩ := writes_bracketed '[' ']' level
      (fun j hj => ih j hj (level + 1)) value_outside (by decide) (by decide)
    rw [chars, itemChars_eq, hbody, meaning, itemMeanings_eq]
    exact hwrites.opened value_list_iff
  | object ms ih =>
    have hmembers : ∀ m ∈ ms, Writes (Member Value) (memberText (level + 1) m)
        (m.1, m.2.meaning) := fun m hm => writes_member (ih m hm (level + 1)) value_outside
    obtain ⟨body, hbody, hwrites⟩ := writes_bracketed '\x7b' '\x7d' level hmembers
      member_outside (by decide) (by decide)
    rw [chars, memberChars_eq, hbody, meaning, memberMeanings_eq]
    exact hwrites.opened value_object_iff

/-- **A document that was written means itself.** The text of a document means the document and
nothing else. -/
theorem means_render_iff (j : Json) (m : Meaning) : Means j.render m ↔ m = j.meaning := by
  have hspaced : Writes (Spaced Value) ([] ++ chars 0 j) j.meaning :=
    (writes_chars j 0).spaced value_outside (List.forall_mem_nil _)
  have hwritten : ∀ rest, Spaced Value j.render.toList m rest ↔ m = j.meaning ∧ rest = [] := by
    intro rest
    have hiff := hspaced [] m rest
    rwa [List.nil_append, List.append_nil, ← String.toList_ofList (l := chars 0 j)] at hiff
  simp only [Means, hwritten]
  constructor
  · rintro ⟨blanks, ⟨hm, -⟩, -⟩
    exact hm
  · rintro rfl
    exact ⟨[], ⟨rfl, rfl⟩, List.forall_mem_nil _⟩

end Documents

end Verdict.Json
