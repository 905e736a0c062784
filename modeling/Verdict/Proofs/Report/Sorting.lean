import Verdict.Config.Basic
import Verdict.Report.Diagnostic
/-!
# Sorted texts and diagnostics

Texts and diagnostics are put in order by one sort each, and both orders are total. The sort keeps
the places of entries that were in order already, so that a selection of them that is in order comes
out as it went in (`filter_mergeSort`). It is argued for any comparison.
-/

namespace Verdict

/-! ## Sorting by a comparison -/

section Comparison

variable {α : Type} {cmp : α → α → Ordering} [Std.TransCmp cmp]

theorem isLE_total (a b : α) : ((cmp a b).isLE || (cmp b a).isLE) = true := by
  have hswap : cmp b a = (cmp a b).swap := Std.OrientedCmp.eq_swap
  rw [hswap]
  cases cmp a b <;> rfl

/-- Sorting puts everything in order. -/
theorem pairwise_mergeSort (l : List α) :
    (l.mergeSort fun a b => (cmp a b).isLE).Pairwise fun a b => (cmp a b).isLE = true :=
  List.pairwise_mergeSort (fun _ _ _ => Std.TransCmp.isLE_trans) isLE_total l

/-- A selection that is in order is not touched by sorting the whole. -/
theorem filter_mergeSort {p : α → Bool} {l : List α}
    (h : (l.filter p).Pairwise fun a b => (cmp a b).isLE = true) :
    (l.mergeSort fun a b => (cmp a b).isLE).filter p = l.filter p := by
  -- the selection keeps its order in the sorted list, and the selection from there is no longer
  have hkept : (l.filter p).Sublist (l.mergeSort fun a b => (cmp a b).isLE) :=
    List.sublist_mergeSort (fun _ _ _ => Std.TransCmp.isLE_trans) isLE_total h List.filter_sublist
  have hsublist := hkept.filter p
  rw [List.filter_filter] at hsublist
  simp only [Bool.and_self] at hsublist
  have hlength := ((List.mergeSort_perm l fun a b => (cmp a b).isLE).filter p).length_eq
  exact (hsublist.eq_of_length hlength.symm).symm

theorem eq_of_isLE_of_isLE {a b : α} (h : (cmp a b).isLE = true) (h' : (cmp b a).isLE = true) :
    cmp a b = .eq := by
  have hswap : cmp b a = (cmp a b).swap := Std.OrientedCmp.eq_swap
  rw [hswap] at h'
  revert h h'
  cases cmp a b <;> decide

/-- Lists have the same entries if they have the same of everything that counts as equal. -/
theorem mem_iff_of_filter_eq {l l' : List α}
    (h : ∀ a, l.filter (fun b => cmp a b = .eq) = l'.filter fun b => cmp a b = .eq) (a : α) :
    a ∈ l ↔ a ∈ l' := by
  have hself : decide (cmp a a = .eq) = true := decide_eq_true Std.ReflCmp.compare_self
  have hmem (l : List α) : a ∈ l ↔ a ∈ l.filter fun b => cmp a b = .eq := by
    rw [List.mem_filter, and_iff_left hself]
  rw [hmem l, h a, ← hmem l']

/-- Lists in order that have the same of everything that counts as equal are the same. -/
theorem eq_of_filter_eq {l l' : List α} (hl : l.Pairwise fun a b => (cmp a b).isLE = true)
    (hl' : l'.Pairwise fun a b => (cmp a b).isLE = true)
    (h : ∀ a, l.filter (fun b => cmp a b = .eq) = l'.filter fun b => cmp a b = .eq) : l = l' := by
  induction l generalizing l' with
  | nil =>
    cases l' with
    | nil => rfl
    | cons b l' => exact absurd ((mem_iff_of_filter_eq h b).2 List.mem_cons_self) List.not_mem_nil
  | cons a l ih =>
    cases l' with
    | nil => exact absurd ((mem_iff_of_filter_eq h a).1 List.mem_cons_self) List.not_mem_nil
    | cons b l' =>
      have hself (c : α) : cmp c c = .eq := Std.ReflCmp.compare_self
      have hfirst {c d : α} {l : List α}
          (hl : (c :: l).Pairwise fun a b => (cmp a b).isLE = true) (hd : d ∈ c :: l) :
          (cmp c d).isLE = true := by
        rcases List.mem_cons.1 hd with rfl | hd
        · rw [hself]
          rfl
        · exact (List.pairwise_cons.1 hl).1 d hd
      -- each of the first entries comes before the other one, so they are the first of one kind
      have hab : cmp a b = .eq :=
        eq_of_isLE_of_isLE (hfirst hl ((mem_iff_of_filter_eq h b).2 List.mem_cons_self))
          (hfirst hl' ((mem_iff_of_filter_eq h a).1 List.mem_cons_self))
      have hkind := h a
      rw [List.filter_cons, List.filter_cons, if_pos (decide_eq_true (hself a)),
        if_pos (decide_eq_true hab)] at hkind
      obtain ⟨rfl, -⟩ := List.cons.inj hkind
      refine congrArg (a :: ·) (ih hl.of_cons hl'.of_cons fun c => ?_)
      have hc := h c
      rw [List.filter_cons, List.filter_cons] at hc
      split at hc
      · exact (List.cons.inj hc).2
      · exact hc

/-- Sorting keeps what counts as equal in its order. -/
theorem filter_eq_mergeSort (l : List α) (a : α) :
    (l.mergeSort fun a b => (cmp a b).isLE).filter (fun b => cmp a b = .eq) =
      l.filter fun b => cmp a b = .eq := by
  refine filter_mergeSort ?_
  refine List.pairwise_iff_forall_sublist.2 fun {b c} hbc => ?_
  have hb := of_decide_eq_true (List.mem_filter.1 (hbc.subset List.mem_cons_self)).2
  have hc := of_decide_eq_true
    (List.mem_filter.1 (hbc.subset (List.mem_cons_of_mem _ List.mem_cons_self))).2
  rw [← Std.TransCmp.congr_left hb, hc]
  rfl

/-- Sorting makes the same of lists that have the same of everything that counts as equal, in the
same order. -/
theorem mergeSort_eq_of_filter_eq {l l' : List α}
    (h : ∀ a, l.filter (fun b => cmp a b = .eq) = l'.filter fun b => cmp a b = .eq) :
    (l.mergeSort fun a b => (cmp a b).isLE) = l'.mergeSort fun a b => (cmp a b).isLE := by
  refine eq_of_filter_eq (pairwise_mergeSort l) (pairwise_mergeSort l') fun a => ?_
  rw [filter_eq_mergeSort l a, filter_eq_mergeSort l' a, h a]

end Comparison

/-! ## Texts -/

theorem pairwise_sortTexts (texts : List String) :
    (sortTexts texts).Pairwise fun s t => (compare s t).isLE = true :=
  pairwise_mergeSort texts

/-! ## Diagnostics -/

namespace Diagnostic

/-- The comparison of diagnostics: by code, then by file, then by field. -/
def order : Diagnostic → Diagnostic → Ordering :=
  compareLex (compareOn code) (compareLex (compareOn path) (compareOn field))

instance : Std.TransCmp order :=
  inferInstanceAs (Std.TransCmp (compareLex _ _))

theorem sort_eq (ds : List Diagnostic) : sort ds = ds.mergeSort fun d e => (order d e).isLE := rfl

@[simp] theorem mem_sort {d : Diagnostic} {ds : List Diagnostic} : d ∈ sort ds ↔ d ∈ ds :=
  List.mem_mergeSort

@[simp] theorem sort_eq_nil_iff {ds : List Diagnostic} : sort ds = [] ↔ ds = [] := by
  rw [← List.length_eq_zero_iff, ← List.length_eq_zero_iff, sort_eq, List.length_mergeSort]

/-- Diagnostics with one code and one file are in the order of their fields. -/
theorem order_of_eq {d e : Diagnostic} (hcode : d.code = e.code) (hpath : d.path = e.path) :
    order d e = compare d.field e.field := by
  simp [order, compareLex, compareOn, hcode, hpath]

/-- Diagnostics that count as equal agree in code, file and field. -/
theorem order_eq_iff {d e : Diagnostic} :
    order d e = .eq ↔ d.code = e.code ∧ d.path = e.path ∧ d.field = e.field := by
  simp [order, compareLex, compareOn, Ordering.then_eq_eq]

end Diagnostic

end Verdict
