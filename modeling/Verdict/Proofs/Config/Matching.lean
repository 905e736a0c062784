import Mathlib.Data.List.Perm.Subperm
import Mathlib.Data.List.Lattice
import Verdict.Config.Suggestion
/-!
# What two texts have in common

The matching size of two texts comes out of a search that goes by places: the longest run that both
texts have in common, then the same with what stands before it in both and with what stands behind.
`Matching` says what the search finds without its places, and `matching_iff` that it finds this and
nothing else.

The runs that are found make up a text that can be had from either of the two by leaving characters
out (`exists_common_sublist`). That bounds the matching size by both lengths, and by the number of
characters that the texts share, each counted as often as it stands in both.
-/

namespace Verdict

/-! ## Common runs -/

/-- Whether a run stands in two texts, behind `p` in the first and behind `q` in the second. -/
def HasRun (as bs p run q : List Char) : Prop := p ++ run <+: as ∧ q ++ run <+: bs

/-- Whether a run that two texts have in common is the one to be taken: no other is longer, and none
that is as long stands before it in the first text, or in the same place there and before it in the
second. -/
structure IsLongestRun (as bs p run q : List Char) : Prop where
  /-- The run stands in both texts. -/
  common : HasRun as bs p run q
  /-- Every other one is shorter, or as long and further on. -/
  first {p' run' q' : List Char} (other : HasRun as bs p' run' q') :
    run'.length < run.length ∨ run'.length = run.length ∧
      (p.length < p'.length ∨ p.length = p'.length ∧ q.length ≤ q'.length)

/-- Whether two texts match to a size: nothing if they have no character in common, and else the
length of the longest common run and the sizes of what stands before it and behind it. -/
inductive Matching : List Char → List Char → Nat → Prop
  /-- There is no character in common. -/
  | apart {as bs : List Char} (disjoint : as.Disjoint bs) : Matching as bs 0
  /-- The longest common run divides both texts. -/
  | around {p run q p' q' : List Char} {before behind : Nat}
    (longest : IsLongestRun (p ++ run ++ p') (q ++ run ++ q') p run q) (nonempty : run ≠ [])
    (left : Matching p q before) (right : Matching p' q' behind) :
    Matching (p ++ run ++ p') (q ++ run ++ q') (before + run.length + behind)

section Runs

variable {as bs p run q : List Char} {r s : Run}

/-- The longest common beginning is as long as the longest run that both texts begin with. -/
theorem le_commonPrefixLength_iff {n : Nat} :
    n ≤ commonPrefixLength as bs ↔ ∃ run, run.length = n ∧ run <+: as ∧ run <+: bs := by
  induction as generalizing bs n with
  | nil => simp [commonPrefixLength, eq_comm]
  | cons a as ih =>
    cases bs with
    | nil => simp [commonPrefixLength, eq_comm]
    | cons b bs =>
      rw [commonPrefixLength]
      cases n with
      | zero => simp
      | succ n =>
        split
        · next hab =>
          rw [Nat.add_le_add_iff_right, ih]
          constructor
          · rintro ⟨run, hlength, ha, hb⟩
            -- a run of the tails is lengthened by the common first character
            exact ⟨a :: run, by simp [hlength], List.cons_prefix_cons.2 ⟨rfl, ha⟩,
              List.cons_prefix_cons.2 ⟨hab, hb⟩⟩
          · rintro ⟨run, hlength, ha, hb⟩
            cases run with
            | nil => cases hlength
            | cons c run =>
              exact ⟨run, Nat.succ.inj hlength, (List.cons_prefix_cons.1 ha).2,
                (List.cons_prefix_cons.1 hb).2⟩
        · next hab =>
          refine iff_of_false (by omega) ?_
          rintro ⟨run, hlength, ha, hb⟩
          cases run with
          | nil => cases hlength
          | cons c run =>
            exact hab ((List.cons_prefix_cons.1 ha).1.symm.trans (List.cons_prefix_cons.1 hb).1)

theorem append_prefix_iff : p ++ run <+: as ↔ p <+: as ∧ run <+: as.drop p.length := by
  constructor
  · rintro ⟨t, rfl⟩
    exact ⟨⟨run ++ t, by simp⟩, ⟨t, by simp⟩⟩
  · rintro ⟨⟨t, rfl⟩, h⟩
    rw [List.drop_left] at h
    exact List.prefix_append_right_inj p |>.2 h

/-! ## Places -/

/-- The common runs of two texts by their places, each as long as it goes. -/
def runs (as bs : List Char) : List Run :=
  (List.range as.length).flatMap fun i => (List.range bs.length).map fun j =>
    ⟨i, j, commonPrefixLength (as.drop i) (bs.drop j)⟩

/-- Whether a run starts no further on than another one: in the first text, or at the same place
there and in the second. -/
def Run.Before (r s : Run) : Prop := r.left < s.left ∨ r.left = s.left ∧ r.right ≤ s.right

/-- Whether a run is to be taken rather than another one. -/
def Run.Leads (r s : Run) : Prop := s.size < r.size ∨ s.size = r.size ∧ r.Before s

theorem Run.leads_self (r : Run) : r.Leads r := .inr ⟨rfl, .inr ⟨rfl, Nat.le_refl _⟩⟩

theorem Run.Leads.trans {t : Run} (h : r.Leads s) (h' : s.Leads t) : r.Leads t := by
  unfold Run.Leads Run.Before at *
  omega

theorem Run.longer_cases (r s : Run) : r.longer s = r ∨ r.longer s = s := by
  unfold longer
  split
  · exact .inr rfl
  · exact .inl rfl

theorem Run.leads_longer (h : r.Before s) : (r.longer s).Leads r ∧ (r.longer s).Leads s := by
  unfold longer
  split
  · next hsize => exact ⟨.inl hsize, s.leads_self⟩
  · next hsize =>
    refine ⟨r.leads_self, ?_⟩
    rcases Nat.lt_or_eq_of_le (Nat.le_of_not_lt hsize) with hlt | heq
    · exact .inl hlt
    · exact .inr ⟨heq, h⟩

/-- Of runs in the order of their places the longest is kept, and the first of these. -/
theorem leads_foldl {rs : List Run} (h : (r :: rs).Pairwise Run.Before) :
    rs.foldl Run.longer r ∈ r :: rs ∧ ∀ s ∈ r :: rs, (rs.foldl Run.longer r).Leads s := by
  induction rs generalizing r with
  | nil => exact ⟨List.mem_singleton_self r, List.forall_mem_singleton.2 r.leads_self⟩
  | cons s rs ih =>
    obtain ⟨hr, hs, hrs⟩ : (∀ t ∈ s :: rs, r.Before t) ∧ (∀ t ∈ rs, s.Before t) ∧
        rs.Pairwise Run.Before := by simpa using h
    obtain ⟨hleadsr, hleadss⟩ := Run.leads_longer (hr s List.mem_cons_self)
    -- the run that is kept of two comes before all others, as both did
    have hkept : (r.longer s :: rs).Pairwise Run.Before := by
      refine List.pairwise_cons.2 ⟨fun t ht => ?_, hrs⟩
      rcases r.longer_cases s with hlonger | hlonger
      · rw [hlonger]
        exact hr t (List.mem_cons_of_mem s ht)
      · rw [hlonger]
        exact hs t ht
    obtain ⟨hmem, hleads⟩ := ih hkept
    rw [List.foldl_cons]
    have hfirst := hleads _ List.mem_cons_self
    refine ⟨?_, List.forall_mem_cons.2 ⟨hfirst.trans hleadsr, List.forall_mem_cons.2
      ⟨hfirst.trans hleadss, fun t ht => hleads t (List.mem_cons_of_mem _ ht)⟩⟩⟩
    rcases List.mem_cons.1 hmem with heq | hmem
    · rw [heq]
      rcases r.longer_cases s with hlonger | hlonger <;> simp [hlonger]
    · exact List.mem_cons_of_mem r (List.mem_cons_of_mem s hmem)

theorem mem_runs_iff : r ∈ runs as bs ↔ r.left < as.length ∧ r.right < bs.length ∧
    r.size = commonPrefixLength (as.drop r.left) (bs.drop r.right) := by
  obtain ⟨i, j, n⟩ := r
  simp only [runs, List.mem_flatMap, List.mem_range, List.mem_map, Run.mk.injEq]
  constructor
  · rintro ⟨i', hi, j', hj, rfl, rfl, rfl⟩
    exact ⟨hi, hj, rfl⟩
  · rintro ⟨hi, hj, rfl⟩
    exact ⟨i, hi, j, hj, rfl, rfl, rfl⟩

theorem pairwise_runs (as bs : List Char) : (runs as bs).Pairwise Run.Before := by
  refine List.pairwise_flatMap.2 ⟨fun i _ => ?_, ?_⟩
  · rw [List.pairwise_map]
    exact List.pairwise_lt_range.imp fun hlt => .inr ⟨rfl, Nat.le_of_lt hlt⟩
  · refine List.pairwise_lt_range.imp fun hlt r hr s hs => ?_
    obtain ⟨j, -, rfl⟩ := List.mem_map.1 hr
    obtain ⟨j', -, rfl⟩ := List.mem_map.1 hs
    exact .inl hlt

/-- The run that the search takes is one of the common runs, or empty, and leads all of them. -/
theorem leads_longestRun (as bs : List Char) :
    (longestRun as bs = ⟨0, 0, 0⟩ ∨ longestRun as bs ∈ runs as bs) ∧
      ∀ s ∈ runs as bs, (longestRun as bs).Leads s := by
  have hfold : longestRun as bs = (runs as bs).foldl Run.longer ⟨0, 0, 0⟩ := by
    rw [longestRun, runs, List.foldl_flatMap]
    simp only [List.foldl_map]
  have hfirst : ∀ s ∈ runs as bs, Run.Before ⟨0, 0, 0⟩ s := by
    intro s _
    rcases Nat.eq_zero_or_pos s.left with hleft | hleft
    · exact .inr ⟨hleft.symm, Nat.zero_le _⟩
    · exact .inl hleft
  obtain ⟨hmem, hleads⟩ := leads_foldl (List.pairwise_cons.2 ⟨hfirst, pairwise_runs as bs⟩)
  rw [← hfold] at hmem hleads
  exact ⟨List.mem_cons.1 hmem, (List.forall_mem_cons.1 hleads).2⟩

/-! ## Places of common runs -/

/-- Every run that both texts have is part of one that the search comes to. -/
theorem exists_mem_runs (h : HasRun as bs p run q) (hne : run ≠ []) :
    ∃ s ∈ runs as bs, s.left = p.length ∧ s.right = q.length ∧ run.length ≤ s.size := by
  obtain ⟨hp, hrunp⟩ := append_prefix_iff.1 h.1
  obtain ⟨hq, hrunq⟩ := append_prefix_iff.1 h.2
  have hlength : 0 < run.length := List.length_pos_iff.2 hne
  have hleft : p.length < as.length := by
    have hle := h.1.length_le
    rw [List.length_append] at hle
    omega
  have hright : q.length < bs.length := by
    have hle := h.2.length_le
    rw [List.length_append] at hle
    omega
  exact ⟨⟨p.length, q.length, _⟩, mem_runs_iff.2 ⟨hleft, hright, rfl⟩, rfl, rfl,
    le_commonPrefixLength_iff.2 ⟨run, rfl, hrunp, hrunq⟩⟩

/-- The run that the search takes is the one to be taken. -/
theorem exists_isLongestRun (h : 0 < (longestRun as bs).size) :
    ∃ p run q, IsLongestRun as bs p run q ∧
      longestRun as bs = ⟨p.length, q.length, run.length⟩ := by
  -- the scan keeps a run that no other one leads, by its length and then by its place
  obtain ⟨hmem, hleads⟩ := leads_longestRun as bs
  generalize longestRun as bs = r at h hmem hleads ⊢
  have hmem : r ∈ runs as bs := by
    refine hmem.resolve_left ?_
    rintro rfl
    exact Nat.lt_irrefl 0 h
  obtain ⟨hleft, hright, hsize⟩ := mem_runs_iff.1 hmem
  obtain ⟨run, hrun, hrunp, hrunq⟩ := le_commonPrefixLength_iff.1 (Nat.le_of_eq hsize)
  have hp : (as.take r.left).length = r.left := List.length_take_of_le (Nat.le_of_lt hleft)
  have hq : (bs.take r.right).length = r.right := List.length_take_of_le (Nat.le_of_lt hright)
  refine ⟨as.take r.left, run, bs.take r.right, ⟨⟨?_, ?_⟩, ?_⟩, by rw [hp, hq, hrun]⟩
  · exact append_prefix_iff.2 ⟨List.take_prefix _ _, by rwa [hp]⟩
  · exact append_prefix_iff.2 ⟨List.take_prefix _ _, by rwa [hq]⟩
  · intro p' run' q' hother
    rcases eq_or_ne run' [] with rfl | hne
    · exact .inl (by rwa [hrun])
    · obtain ⟨s, hs, hsleft, hsright, hssize⟩ := exists_mem_runs hother hne
      have hlead := hleads s hs
      unfold Run.Leads Run.Before at hlead
      rw [hp, hq, hrun, ← hsleft, ← hsright]
      omega

/-- There is but one run to be taken. -/
theorem longestRun_eq (h : IsLongestRun as bs p run q) (hne : run ≠ []) :
    longestRun as bs = ⟨p.length, q.length, run.length⟩ := by
  have hlength : 0 < run.length := List.length_pos_iff.2 hne
  obtain ⟨s, hs, -, -, hssize⟩ := exists_mem_runs h.common hne
  have hpos : 0 < (longestRun as bs).size := by
    have hlead := (leads_longestRun as bs).2 s hs
    unfold Run.Leads at hlead
    omega
  obtain ⟨p', run', q', hlongest, heq⟩ := exists_isLongestRun hpos
  have hfirst := h.first hlongest.common
  have hfirst' := hlongest.first h.common
  rw [heq, Run.mk.injEq]
  omega

/-! ## The search -/

/-- Texts without a character in common have no common run. -/
theorem disjoint_iff : (longestRun as bs).size = 0 ↔ as.Disjoint bs := by
  constructor
  · intro h c hca hcb
    obtain ⟨p, p', rfl⟩ := List.append_of_mem hca
    obtain ⟨q, q', rfl⟩ := List.append_of_mem hcb
    have hrun : HasRun (p ++ c :: p') (q ++ c :: q') p [c] q := ⟨⟨p', by simp⟩, ⟨q', by simp⟩⟩
    obtain ⟨s, hs, -, -, hsize⟩ := exists_mem_runs hrun (List.cons_ne_nil c [])
    have hlead := (leads_longestRun _ _).2 s hs
    unfold Run.Leads at hlead
    rw [List.length_singleton] at hsize
    omega
  · intro h
    refine Nat.eq_zero_of_not_pos fun hpos => ?_
    obtain ⟨p, run, q, hlongest, heq⟩ := exists_isLongestRun hpos
    rw [heq] at hpos
    obtain ⟨c, hc⟩ := List.exists_mem_of_length_pos hpos
    exact h (hlongest.common.1.subset (List.mem_append_right p hc))
      (hlongest.common.2.subset (List.mem_append_right q hc))

theorem matchingSize_of_disjoint (h : as.Disjoint bs) : matchingSize as bs = 0 := by
  have hsize := disjoint_iff.2 h
  rw [matchingSize]
  simp [hsize]

/-- The search goes on with what stands before the longest common run and with what stands behind
it. -/
theorem matchingSize_append {p' q' : List Char}
    (h : IsLongestRun (p ++ run ++ p') (q ++ run ++ q') p run q) (hne : run ≠ []) :
    matchingSize (p ++ run ++ p') (q ++ run ++ q') =
      matchingSize p q + run.length + matchingSize p' q' := by
  have hlength : 0 < run.length := List.length_pos_iff.2 hne
  have hinside : p.length < (p ++ run ++ p').length := by
    rw [List.length_append, List.length_append]
    omega
  rw [matchingSize, longestRun_eq h hne]
  simp only [hlength, hinside, and_self, if_true]
  simp

/-- What the search finds is a matching. -/
theorem matching_matchingSize (as bs : List Char) : Matching as bs (matchingSize as bs) := by
  -- what stands before a run and behind it is shorter than the whole
  induction hn : as.length using Nat.strongRecOn generalizing as bs with
  | ind n ih =>
    rcases Nat.eq_zero_or_pos (longestRun as bs).size with hsize | hsize
    · have hdisjoint := disjoint_iff.1 hsize
      rw [matchingSize_of_disjoint hdisjoint]
      exact .apart hdisjoint
    · obtain ⟨p, run, q, hlongest, heq⟩ := exists_isLongestRun hsize
      obtain ⟨⟨p', rfl⟩, ⟨q', rfl⟩⟩ := hlongest.common
      have hlength : 0 < run.length := by rwa [heq] at hsize
      have hne : run ≠ [] := List.length_pos_iff.1 hlength
      rw [List.length_append, List.length_append] at hn
      rw [matchingSize_append hlongest hne]
      exact .around hlongest hne (ih p.length (by omega) p q rfl)
        (ih p'.length (by omega) p' q' rfl)

end Runs

section Sizes

variable {as bs : List Char} {m : Nat}

/-- **The matching size.** Two texts match to the size that the search finds, and to no other. -/
theorem matching_iff : Matching as bs m ↔ m = matchingSize as bs := by
  constructor
  · intro h
    induction h with
    | apart disjoint => rw [matchingSize_of_disjoint disjoint]
    | around longest nonempty _ _ ihleft ihright =>
      rw [matchingSize_append longest nonempty, ihleft, ihright]
  · rintro rfl
    exact matching_matchingSize as bs

/-- Which text is searched for the earliest run makes a difference. -/
example : matchingSize "tide".toList "diet".toList = 1 ∧
    matchingSize "diet".toList "tide".toList = 2 := by decide +kernel

/-- The runs that two texts have in common make up a text that can be had from both by leaving
characters out. -/
theorem exists_common_sublist (h : Matching as bs m) :
    ∃ common : List Char, common.Sublist as ∧ common.Sublist bs ∧ common.length = m := by
  induction h with
  | apart _ => exact ⟨[], List.nil_sublist _, List.nil_sublist _, rfl⟩
  | @around p run q p' q' before behind _ _ _ _ ihleft ihright =>
    obtain ⟨l, hlp, hlq, hl⟩ := ihleft
    obtain ⟨r, hrp, hrq, hr⟩ := ihright
    refine ⟨l ++ run ++ r, ?_, ?_, ?_⟩
    · exact (hlp.append (List.Sublist.refl run)).append hrp
    · exact (hlq.append (List.Sublist.refl run)).append hrq
    · rw [List.length_append, List.length_append, hl, hr]

/-- Texts match to no more than the length of either. -/
theorem matchingSize_le_length (as bs : List Char) :
    matchingSize as bs ≤ as.length ∧ matchingSize as bs ≤ bs.length := by
  obtain ⟨common, has, hbs, hlength⟩ := exists_common_sublist (matching_matchingSize as bs)
  rw [← hlength]
  exact ⟨has.length_le, hbs.length_le⟩

/-- Texts match to no more than the number of characters that they share, each counted as often as
it stands in both. -/
theorem matchingSize_le_bagInter (as bs : List Char) :
    matchingSize as bs ≤ (as.bagInter bs).length := by
  obtain ⟨common, has, hbs, hlength⟩ := exists_common_sublist (matching_matchingSize as bs)
  rw [← hlength]
  refine List.Subperm.length_le (List.subperm_ext_iff.2 fun c _ => ?_)
  rw [List.count_bagInter]
  exact Nat.le_min.2 ⟨has.count_le c, hbs.count_le c⟩

/-- A text matches itself to its length. -/
@[simp] theorem matchingSize_self (as : List Char) : matchingSize as as = as.length := by
  rcases eq_or_ne as [] with rfl | hne
  · exact matchingSize_of_disjoint (List.disjoint_nil_left [])
  · have hlongest : IsLongestRun ([] ++ as ++ []) ([] ++ as ++ []) [] as [] := by
      refine ⟨⟨⟨[], rfl⟩, ⟨[], rfl⟩⟩, fun {p' run' q'} hother => ?_⟩
      have hle := hother.1.length_le
      simp only [List.nil_append, List.append_nil, List.length_append] at hle
      simp only [List.length_nil]
      omega
    have hself := matchingSize_append hlongest hne
    rw [matchingSize_of_disjoint (List.disjoint_nil_left [])] at hself
    simpa using hself

/-- Only a text itself is matched to the lengths of both. -/
theorem eq_of_matchingSize (has : matchingSize as bs = as.length)
    (hbs : matchingSize as bs = bs.length) : as = bs := by
  obtain ⟨common, hcas, hcbs, hlength⟩ := exists_common_sublist (matching_matchingSize as bs)
  rw [← hcas.eq_of_length (hlength.trans has), hcbs.eq_of_length (hlength.trans hbs)]

end Sizes

end Verdict
