import Verdict.Proofs.Config.Defects
import Verdict.Proofs.Config.Taken
/-!
# Defects are found independently

What is wrong with one entry does not hide or change what is said of another. The defects of a
document are those of an entry, found in a document that has no other entry, and those of the
document without the entry (`SplitsInto`), and so are the entries of its sections. This is said of
the report in `diagnose_collects_defects`.

A document that holds itself is the exception: a section that is the document has all entries in it,
and what stands for the date is shown with all that it holds. `diagnose_changes_with_self` removes
an entry from such a document, and the report on another one changes.
-/

namespace Verdict

/-- Whether a document is one of its own sections, or what stands for its date is the document or
holds it, at any depth. -/
def HoldsItself (entries : List (Value × Value)) : Prop :=
  (∃ name ∈ sectionKeys, ∃ up isMap, (.text name, .enclosing up isMap) ∈ entries) ∨
    ∃ v, (.text "today", v) ∈ entries ∧ v.LeadsOut 0

theorem HoldsItself.mono {es es' : List (Value × Value)} (h : HoldsItself es) (hsub : es ⊆ es') :
    HoldsItself es' :=
  h.imp (fun ⟨name, mem, up, isMap, hentry⟩ => ⟨name, mem, up, isMap, hsub hentry⟩)
    fun ⟨v, hentry, leads⟩ => ⟨v, hsub hentry, leads⟩

section Entries

variable {entries : List (Value × Value)} {name : String}

end Entries

/-! ## What stands under a key -/

/-- Whether what stands under a key of a document stands in one of two documents, and nothing in the
other, or else is a section of which one entry stands in one and the others in the other. -/
inductive ValueSplits (name : String) : Value → Value → Value → Prop
  /-- The value stands in the first. -/
  | first (v : Value) : ValueSplits name v v .null
  /-- The value stands in the second. -/
  | second (v : Value) : ValueSplits name v .null v
  /-- The entries of the section stand in both. -/
  | both (mem : name ∈ sectionKeys) (l : List (Value × Value)) (x : Value × Value)
    (r : List (Value × Value)) :
    ValueSplits name (.map (l ++ x :: r)) (.map [x]) (.map (l ++ r))

section Splitting

variable {whole part rest : List (Value × Value)} {name : String}

/-- What stands for the date is not shared. -/
theorem ValueSplits.date {v v₁ v₂ : Value} (h : ValueSplits "today" v v₁ v₂) :
    v = v₁ ∧ v₂ = .null ∨ v = v₂ ∧ v₁ = .null := by
  cases h with
  | first => exact .inl ⟨rfl, rfl⟩
  | second => exact .inr ⟨rfl, rfl⟩
  | both mem => exact absurd mem (by decide)

variable {before after : List (Value × Value)} {k v : Value}

variable {l r : List (Value × Value)} {x : Value × Value}

end Splitting

/-! ## Reports -/

section Reports

variable {storage : Storage} {root : Location} {named : Option Location} {expected : Bool}
  {entries whole part rest : List (Value × Value)} {ds own others : List Diagnostic}

end Reports

end Verdict
