import TemplateLayout.Alignment.Hunks
import TemplateLayout.Proofs.LongestRuns

/-! # Changes between two sequences
The edits of an alignment keep the common runs and change what stands between them. Where nothing
changes the runs leave nothing between them, so they are the whole of both sequences, which are then
equal; and the alignment of a sequence with itself is one run. Joining runs, trimming context and
making groups neither loses nor adds a change, so a unified diff is empty exactly if its two sides
are equal.

* `Alignment.changes` — the edits that change something;
* `Alignment.eq_of_changes_editsFrom`, `Alignment.changes_edits_eq_nil_iff` — changes and equality;
* `Alignment.hunks_eq_nil_iff` — hunks hold the changes;
* `Alignment.unified_eq_nil_iff` — when a diff is empty.
-/

namespace TemplateLayout.Alignment

variable {n m i j : Nat} {e : Edit} {es : List Edit}

/-! ## The changes among edits -/

/-- The edits that **change** something. -/
def changes (es : List Edit) : List Edit := es.filter fun e => e.kind = .change

@[simp] theorem changes_append (es fs : List Edit) : changes (es ++ fs) = changes es ++ changes fs :=
  List.filter_append ..

theorem changes_cons_keep (he : e.kind = .keep) (es : List Edit) :
    changes (e :: es) = changes es := by
  rw [changes, List.filter_cons_of_neg (by simp [he])]
  rfl

theorem changes_cons (e : Edit) (es : List Edit) : changes (e :: es) = changes [e] ++ changes es :=
  changes_append [e] es

@[simp] theorem changes_gap (i n j m : Nat) : changes (gap i n j m) = gap i n j m := by
  unfold gap
  split <;> rfl

theorem gap_eq_nil_iff : gap i n j m = [] ↔ n ≤ i ∧ m ≤ j := by
  unfold gap
  split
  · next h =>
    rw [Bool.or_eq_true, decide_eq_true_eq, decide_eq_true_eq] at h
    simp only [List.cons_ne_nil, false_iff]
    omega
  · next h =>
    rw [Bool.or_eq_true, decide_eq_true_eq, decide_eq_true_eq] at h
    simp only [true_iff]
    omega

/-! ## Edits between runs -/

/-- A run cuts the edits into those before it and those behind it. -/
theorem editsFrom_append (n m i j : Nat) (rs : List Run) (r : Run) (rs' : List Run) :
    editsFrom n m i j (rs ++ r :: rs') =
      editsFrom r.left r.right i j rs ++
        ⟨.keep, r.left, r.left + r.size, r.right, r.right + r.size⟩ ::
          editsFrom n m (r.left + r.size) (r.right + r.size) rs' := by
  induction rs generalizing i j with
  | nil => rfl
  | cons q rs ih => simp only [List.cons_append, editsFrom, ih, List.append_assoc]

theorem changes_editsFrom_cons (n m i j : Nat) (r : Run) (rs : List Run) :
    changes (editsFrom n m i j (r :: rs)) =
      gap i r.left j r.right ++
        changes (editsFrom n m (r.left + r.size) (r.right + r.size) rs) := by
  rw [editsFrom, changes_append, changes_gap, changes_cons_keep rfl]

/-- Runs that touch have no change between them, so joining them loses none. -/
theorem changes_attach (n m i j : Nat) (r : Run) (rs : List Run) :
    changes (editsFrom n m i j (attach r rs)) = changes (editsFrom n m i j (r :: rs)) := by
  cases rs with
  | nil => rfl
  | cons s rest =>
    rw [attach]
    split
    · next htouch =>
      rw [Bool.and_eq_true, decide_eq_true_eq, decide_eq_true_eq] at htouch
      obtain ⟨hleft, hright⟩ := htouch
      have hgap : gap (r.left + r.size) s.left (r.right + r.size) s.right = [] :=
        gap_eq_nil_iff.2 ⟨Nat.le_of_eq hleft.symm, Nat.le_of_eq hright.symm⟩
      rw [changes_editsFrom_cons, changes_editsFrom_cons, changes_editsFrom_cons, hgap,
        List.nil_append, ← hleft, ← hright, Nat.add_assoc, Nat.add_assoc]
    · rfl

theorem changes_foldr_attach (n m i j : Nat) (rs : List Run) :
    changes (editsFrom n m i j (rs.foldr attach [])) = changes (editsFrom n m i j rs) := by
  induction rs generalizing i j with
  | nil => rfl
  | cons r rs ih =>
    rw [List.foldr_cons, changes_attach, changes_editsFrom_cons, changes_editsFrom_cons, ih]

/-! ## Changes and equality -/

section

variable {α : Type} [DecidableEq α]

/-- **Where the runs leave nothing to change, the two parts are equal.** -/
theorem eq_of_changes_editsFrom (left : List α) (right : List (α × Bool)) (i j : Nat)
    (h : changes (editsFrom (i + left.length) (j + right.length) i j
      (runsFrom left right i j)) = []) :
    left = right.map Prod.fst := by
  fun_induction runsFrom left right i j with
  | case1 left right i j run hrun ihBefore ihAfter =>
    have hcommon : Common left (right.map Prod.fst) run := common_longest left right
    clear_value run
    obtain ⟨w, hl, hr, hllen, hrlen, hw⟩ := hcommon.exists_parts
    rw [← List.map_take, ← List.map_drop] at hr
    rw [← List.map_take, List.length_map] at hrlen
    -- The ends of both sequences, counted over the part before the run, the run and the rest.
    have hlend := congrArg List.length hl
    have hrend := congrArg List.length hr
    simp only [List.length_append, List.length_map, hllen, hrlen, hw] at hlend hrend
    rw [editsFrom_append, changes_append, changes_cons_keep rfl, List.append_eq_nil_iff] at h
    have hbefore := ihBefore (by rw [hllen, hrlen]; exact h.1)
    have hafter := ihAfter (by
      rw [Nat.add_assoc i, Nat.add_assoc i, Nat.add_assoc j, Nat.add_assoc j, ← hlend, ← hrend,
        ← Nat.add_assoc i, ← Nat.add_assoc j]
      exact h.2)
    calc left
        = left.take run.left ++ w ++ left.drop (run.left + run.size) := hl
      _ = (right.take run.right).map Prod.fst ++ w ++
            (right.drop (run.right + run.size)).map Prod.fst := by rw [hbefore, hafter]
      _ = right.map Prod.fst := hr.symm
  | case2 left right i j run hrun =>
    rw [editsFrom, changes_gap, gap_eq_nil_iff] at h
    have hleft : left = [] := List.eq_nil_of_length_eq_zero (by omega)
    have hright : right = [] := List.eq_nil_of_length_eq_zero (by omega)
    rw [hleft, hright, List.map_nil]

theorem runsFrom_nil (right : List (α × Bool)) (i j : Nat) : runsFrom [] right i j = [] := by
  rw [runsFrom, if_neg]
  exact fun h => absurd h.1 (Nat.not_lt_zero _)

/-- **Exactly between equal sequences nothing changes.** -/
theorem changes_edits_eq_nil_iff {left right : List α} :
    changes (edits left right) = [] ↔ left = right := by
  rw [edits, runs, changes_foldr_attach]
  constructor
  · intro h
    have heq := eq_of_changes_editsFrom left (index right) 0 0
    rw [index, map_fst_map, List.length_map, Nat.zero_add, Nat.zero_add] at heq
    exact heq h
  · rintro rfl
    rw [runsFrom, longest_index]
    simp only [List.take_zero, runsFrom_nil, Nat.zero_add, List.drop_length, List.nil_append]
    split
    · rw [changes_editsFrom_cons, editsFrom, changes_gap, List.append_eq_nil_iff, gap_eq_nil_iff,
        gap_eq_nil_iff]
      simp
    · next hempty =>
      rw [editsFrom, changes_gap, gap_eq_nil_iff]
      omega

end

/-! ## Hunks -/

@[simp] theorem changes_trimFirst (n : Nat) (es : List Edit) :
    changes (trimFirst n es) = changes es := by
  cases es with
  | nil => rfl
  | cons e es =>
    rw [trimFirst]
    split
    · next he => rw [changes_cons_keep he, changes_cons_keep (e := e.lastLines n) he]
    · rfl

@[simp] theorem changes_trimLast (n : Nat) (es : List Edit) :
    changes (trimLast n es) = changes es := by
  fun_induction trimLast n es with
  | case1 => rfl
  | case2 e =>
    split
    · next he => rw [changes_cons_keep he, changes_cons_keep (e := e.firstLines n) he]
    · rfl
  | case3 e es _ ih => rw [changes_cons, ih, ← changes_cons]

/-- Groups hold all changes, each of them once. -/
theorem changes_splitGroups (n : Nat) (es : List Edit) :
    changes ((splitGroups n es).1 ++ (splitGroups n es).2.flatten) = changes es := by
  induction es with
  | nil => rfl
  | cons e es ih =>
    rw [splitGroups]
    generalize splitGroups n es = parts at *
    obtain ⟨group, groups⟩ := parts
    simp only
    split
    · next h =>
      -- A stretch that is cut in two is no change, and neither are its two ends.
      rw [Bool.and_eq_true, decide_eq_true_eq] at h
      rw [List.singleton_append, List.flatten_cons, List.cons_append,
        changes_cons_keep (e := e.firstLines n) h.1, changes_cons_keep (e := e.lastLines n) h.1,
        ih, changes_cons_keep h.1]
    · rw [List.cons_append, changes_cons, ih, ← changes_cons]

/-- Exactly in a group without a change nothing is one. -/
theorem changes_flatten_eq_nil_iff (groups : List (List Edit)) :
    changes groups.flatten = [] ↔ groups.filter (fun g => g.any fun e => e.kind = .change) = [] := by
  simp [changes]

/-- **There are hunks exactly if there are changes.** -/
theorem hunks_eq_nil_iff : hunks n es = [] ↔ changes es = [] := by
  rw [← changes_trimFirst n es, ← changes_trimLast n, ← changes_splitGroups n, ← List.flatten_cons,
    changes_flatten_eq_nil_iff, hunks]

/-- **A unified diff is empty exactly if its two sides are equal.** -/
theorem unified_eq_nil_iff (left right : List Text) (leftName rightName : Text) :
    unified left right leftName rightName = [] ↔ left = right := by
  refine Iff.trans ?_ changes_edits_eq_nil_iff
  rw [← hunks_eq_nil_iff (n := 3), unified]
  cases hunks 3 (edits left right) with
  | nil => exact iff_of_true rfl rfl
  | cons hunk hs => exact iff_of_false (List.cons_ne_nil _ _) (List.cons_ne_nil _ _)

end TemplateLayout.Alignment
