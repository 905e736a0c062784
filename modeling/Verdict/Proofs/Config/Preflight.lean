import Mathlib.Data.Prod.Lex
import Mathlib.Data.String.Basic
import Verdict.Proofs.Config.Agreement
/-!
# Diagnostics in their order

Diagnostics are sorted when a configuration is diagnosed, once more by the preflight, and again when
they are printed. The order is that of their places, which are code, file and field by code points.
It leaves open how diagnostics of one place follow each other, and the sort keeps those as they were
found. So what is sorted is not changed by being sorted again, and the three sorts are one.
-/

namespace Verdict

/-- The code points of a text. -/
def codePoints (s : String) : List Nat := s.toList.map Char.toNat

theorem strictMono_codePoints : StrictMono codePoints :=
  fun _ _ h => List.map_lt (fun _ _ hlt => hlt) (String.lt_iff_toList_lt.1 h)

namespace Diagnostic

/-- The place of a diagnostic: by its code, then by its file, then by its field. -/
def place (d : Diagnostic) : List Nat ×ₗ List Nat ×ₗ List Nat :=
  toLex (codePoints d.code, toLex (codePoints d.path, codePoints d.field))

variable {d e : Diagnostic} {ds : List Diagnostic}

theorem isLE_order_iff : (order d e).isLE = true ↔ d.place ≤ e.place := by
  have hfield : (compare d.field e.field).isLE = true ↔ d.field ≤ e.field := by
    rw [Ordering.isLE_iff_ne_gt, ← compare_le_iff_le]
  simp only [order, compareLex, compareOn, Ordering.isLE_then_iff_or, compare_lt_iff_lt,
    compare_eq_iff_eq, hfield, place, Prod.Lex.toLex_le_toLex, strictMono_codePoints.lt_iff_lt,
    strictMono_codePoints.le_iff_le, strictMono_codePoints.injective.eq_iff]

theorem sort_perm (ds : List Diagnostic) : (sort ds).Perm ds := List.mergeSort_perm ds le

theorem pairwise_sort (ds : List Diagnostic) :
    (sort ds).Pairwise fun d e => d.place ≤ e.place :=
  (pairwise_mergeSort ds).imp isLE_order_iff.1

/-- Diagnostics of one place stay in the order in which they were found. -/
theorem filter_sort (ds : List Diagnostic) (code path field : String) :
    (sort ds).filter (fun d => d.code = code ∧ d.path = path ∧ d.field = field) =
      ds.filter fun d => d.code = code ∧ d.path = path ∧ d.field = field := by
  have hplace (d : Diagnostic) : (d.code = code ∧ d.path = path ∧ d.field = field) ↔
      order ⟨code, path, field, "", ""⟩ d = .eq := by
    rw [order_eq_iff, eq_comm, @eq_comm _ d.path, @eq_comm _ d.field]
  simp only [hplace]
  exact filter_eq_mergeSort ds _

/-- What is in order is not touched by sorting. -/
theorem sort_of_pairwise (h : ds.Pairwise fun d e => d.place ≤ e.place) : sort ds = ds :=
  List.mergeSort_of_pairwise (h.imp isLE_order_iff.2)

theorem sort_sort (ds : List Diagnostic) : sort (sort ds) = sort ds :=
  sort_of_pairwise (pairwise_sort ds)

end Diagnostic

section Storages

variable {storage : Storage} {root : Location} {named : Option Location} {expected : Bool}
  {ds : List Diagnostic}

/-- A diagnosis lists its diagnostics in their order. -/
theorem sort_of_diagnose (h : diagnose storage root named expected = .ok ds) :
    Diagnostic.sort ds = ds := by
  cases hentry : storage (configLocation root named) with
  | missing =>
    simp only [diagnose, hentry] at h
    cases h
    -- of a missing file there is one diagnostic or none
    split
    · exact List.mergeSort_singleton _
    · exact List.mergeSort_nil
  | directory | failing f =>
    simp only [diagnose, hentry] at h
    cases h
  | file document =>
    obtain ⟨fs, -, rfl⟩ := (diagnose_of_file hentry).1 h
    exact Diagnostic.sort_sort _

theorem preflight_of_directory (h : storage root = .directory) :
    preflight storage root named = diagnose storage root named named.isSome := by
  unfold preflight
  rw [h]
  cases hdiagnose : diagnose storage root named named.isSome with
  | error f => rfl
  | ok ds => exact congrArg Except.ok (sort_of_diagnose hdiagnose)

/-- Where no directory stands, there is one thing to be listed. -/
theorem eq_of_preflight_of_ne_directory (hroot : storage root ≠ .directory)
    (h : preflight storage root named = .ok ds) :
    ds = [⟨"CFG007", root.text, "", "root directory does not exist: " ++ root.text, ""⟩] := by
  unfold preflight at h
  split at h
  · next hdirectory => exact absurd hdirectory hroot
  · cases h
  · cases h
    rfl

/-- A document of one rule has the findings for the rule. -/
theorem diagnose_one_rule {name rule : String} (h : storage (configLocation root named) =
      .file (.ok (.map [(.text "rules", .map [(.text name, .text rule)])]))) :
    diagnose storage root named expected = .ok (Diagnostic.sort
      ((ruleFindings (.text name, .text rule)).map
        (Finding.diagnostic (configLocation root named).text))) := by
  have hunknown : unknownKeys ["rules"] = [] := by simp [unknownKeys, sortTexts, configKeys]
  have hfindings : entryFindings [(.text "rules", .map [(.text name, .text rule)])] = .ok _ :=
    entryFindings_eq_ok_iff.2 ⟨["rules"], [], [], [], [], rfl, rfl, rfl, rfl, rfl, rfl⟩
  have hentries : sectionEntries [(.text "rules", .map [(.text name, .text rule)])] "rules" =
      [(.text name, .text rule)] := rfl
  rw [hunknown, hentries, List.flatMap_singleton] at hfindings
  exact (diagnose_of_file h).2 ⟨_, hfindings, rfl⟩

/-- **Sorting once is enough.** Sorted diagnostics are the same diagnostics in the order of their
places, those of one place as they were found, and sorting them again changes nothing. So for a root
directory the preflight is the diagnosis that expects a file if one is named, and its diagnostics
are printed in the order in which it lists them. -/
theorem sorting_is_settled :
    (∀ ds, (Diagnostic.sort ds).Perm ds ∧
      ((Diagnostic.sort ds).Pairwise fun d e => d.place ≤ e.place) ∧
      (∀ code path field, (Diagnostic.sort ds).filter
          (fun d => d.code = code ∧ d.path = path ∧ d.field = field) =
        ds.filter fun d => d.code = code ∧ d.path = path ∧ d.field = field) ∧
      Diagnostic.sort (Diagnostic.sort ds) = Diagnostic.sort ds) ∧
    ∀ (storage : Storage) (root : Location) (named : Option Location),
      storage root = .directory →
      preflight storage root named = diagnose storage root named named.isSome ∧
      ∀ ds, preflight storage root named = .ok ds →
        Diagnostic.format ds = "\n".intercalate (ds.map Diagnostic.line) := by
  refine ⟨fun ds => ?_, fun storage root named hroot => ?_⟩
  · exact ⟨Diagnostic.sort_perm ds, Diagnostic.pairwise_sort ds, Diagnostic.filter_sort ds,
      Diagnostic.sort_sort ds⟩
  · have hpreflight : preflight storage root named = diagnose storage root named named.isSome :=
      preflight_of_directory hroot
    refine ⟨hpreflight, fun ds h => ?_⟩
    rw [hpreflight] at h
    rw [Diagnostic.format, sort_of_diagnose h]

/-- Two operands of one rule that name no predicate are reported as they stand in the rule. -/
theorem sorting_is_settled_for_operands :
    let storage : Storage := fun l =>
      if l = .top then .directory
      else .file (.ok (.map [(.text "rules", .map [(.text "r", .text "b:x && a:y")])]))
    ∃ ds, preflight storage .top none = .ok ds ∧ Diagnostic.sort (Diagnostic.sort ds) = ds ∧
      preflight storage .top none = diagnose storage .top none false ∧
      Diagnostic.format ds =
        "[RULE001] /criteria.yaml:rules.r unknown predicate 'b'\n" ++
          "[RULE001] /criteria.yaml:rules.r unknown predicate 'a'" := by
  intro storage
  have hrule : ruleFindings (.text "r", .text "b:x && a:y") =
      [⟨"RULE001", "rules.r", "unknown predicate 'b'", ""⟩,
        ⟨"RULE001", "rules.r", "unknown predicate 'a'", ""⟩] := by decide +kernel
  have hdiagnose : diagnose storage .top none false = .ok
      [⟨"RULE001", "/criteria.yaml", "rules.r", "unknown predicate 'b'", ""⟩,
        ⟨"RULE001", "/criteria.yaml", "rules.r", "unknown predicate 'a'", ""⟩] := by
    rw [diagnose_one_rule (if_neg (by decide)), hrule]
    exact congrArg Except.ok (List.mergeSort_of_pairwise (by decide +kernel))
  obtain ⟨hsorted, hpreflight⟩ := sorting_is_settled
  obtain ⟨hpreflight, hprinted⟩ := hpreflight storage .top none (if_pos rfl)
  have hlisted := hpreflight.trans hdiagnose
  refine ⟨_, hlisted, ?_, hpreflight, ?_⟩
  · rw [(hsorted _).2.2.2, sort_of_diagnose hdiagnose]
  · rw [hprinted _ hlisted]
    decide +kernel

end Storages

end Verdict
