import TemplateLayout.Alignment.Runs

/-! # The longest run
A row of the search holds, for each entry on the right, the length of the longest common ending there
whose entries may all start a run. So the search finds a longest run, and of several the first on the
left and then on the right. Between a sequence and itself that one lies on the diagonal, and it is
drawn out to the whole sequence.

* `Alignment.Ending`, `Alignment.isRow_nextRow` — common endings, and what a row says of them;
* `Alignment.isFirst_longestIndexed` — the search finds the first of the longest runs;
* `Alignment.common_longest` — the run that is drawn out is a common one;
* `Alignment.longest_index` — a sequence and itself.
-/

namespace TemplateLayout.Alignment

variable {α β γ : Type} {left p w u : List α} {right q : List (α × Bool)} {row : List Nat}
  {r s best : Run} {i j n : Nat} {x y : α} {starts : Bool}

/-- An invariant of a walk along a list with its positions, told by the part behind the walk. -/
theorem foldl_zipIdx_induction {l : List γ} {f : β → γ × Nat → β} (I : List γ → β → Prop) {b : β}
    (hnil : I [] b)
    (hstep : ∀ p x q b, l = p ++ x :: q → I p b → I (p ++ [x]) (f b (x, p.length))) :
    I l (l.zipIdx.foldl f b) := by
  suffices hrest : ∀ (q p : List γ) (b : β), l = p ++ q → I p b →
      I l ((q.zipIdx p.length).foldl f b) from hrest l [] b rfl hnil
  intro q
  induction q with
  | nil =>
    rintro p b rfl hp
    rwa [List.append_nil]
  | cons x q ih =>
    rintro p b hl hp
    have hp' := ih (p ++ [x]) (f b (x, p.length)) (by simp [hl]) (hstep p x q b hl hp)
    rwa [List.length_append, List.length_singleton] at hp'

/-! ## Common endings -/

/-- A **common ending** of two sequences whose entries may all start a run. -/
def Ending (p : List α) (q : List (α × Bool)) (w : List α) : Prop :=
  w <:+ p ∧ w.map (fun x => (x, true)) <:+ q

theorem ending_nil (p : List α) (q : List (α × Bool)) : Ending p q [] :=
  ⟨List.nil_suffix, List.nil_suffix⟩

/-- One entry more on both sides draws an ending out, or leaves none. -/
theorem ending_concat_iff :
    Ending (p ++ [x]) (q ++ [(y, starts)]) w ↔
      w = [] ∨ ∃ w', w = w' ++ [x] ∧ x = y ∧ starts = true ∧ Ending p q w' := by
  constructor
  · rintro ⟨hp, hq⟩
    rcases List.suffix_concat_iff.1 hp with rfl | ⟨w', rfl, hp'⟩
    · exact .inl rfl
    · rw [List.map_append, List.map_singleton, List.suffix_concat_iff] at hq
      rcases hq with hq | ⟨t, ht, hq'⟩
      · exact absurd hq (by simp)
      · obtain ⟨rfl, hlast⟩ := List.append_inj' ht rfl
        obtain ⟨rfl, rfl⟩ := Prod.mk.inj (List.singleton_inj.1 hlast)
        exact .inr ⟨w', rfl, rfl, rfl, hp', hq'⟩
  · rintro (rfl | ⟨w', rfl, rfl, rfl, hp', hq'⟩)
    · exact ending_nil _ _
    · rw [Ending, List.map_append, List.map_singleton, List.suffix_concat_iff,
        List.suffix_concat_iff]
      exact ⟨.inr ⟨w', rfl, hp'⟩, .inr ⟨_, rfl, hq'⟩⟩

/-- The **longest** common endings have `n` entries. -/
def LongestEnding (p : List α) (q : List (α × Bool)) (n : Nat) : Prop :=
  (∃ w, Ending p q w ∧ w.length = n) ∧ ∀ w, Ending p q w → w.length ≤ n

theorem longestEnding_zero (h : ∀ w, Ending p q w → w = []) : LongestEnding p q 0 := by
  refine ⟨⟨[], ending_nil p q, rfl⟩, fun w hw => ?_⟩
  rw [h w hw]
  exact Nat.le_refl 0

/-- The length of the longest endings after one entry more on both sides. -/
theorem LongestEnding.concat [DecidableEq α] (h : LongestEnding p q n) :
    LongestEnding (p ++ [x]) (q ++ [(y, starts)]) (if x = y && starts then n + 1 else 0) := by
  obtain ⟨⟨w, hw, hwn⟩, hmax⟩ := h
  split
  · next hxy =>
    rw [Bool.and_eq_true, decide_eq_true_eq] at hxy
    obtain ⟨rfl, rfl⟩ := hxy
    refine ⟨⟨w ++ [x], ending_concat_iff.2 (.inr ⟨w, rfl, rfl, rfl, hw⟩), by simp [hwn]⟩, ?_⟩
    intro v hv
    rcases ending_concat_iff.1 hv with rfl | ⟨v', rfl, -, -, hv'⟩
    · exact Nat.zero_le _
    · rw [List.length_append]
      exact Nat.succ_le_succ (hmax v' hv')
  · next hxy =>
    refine longestEnding_zero fun v hv => ?_
    rcases ending_concat_iff.1 hv with rfl | ⟨v', rfl, rfl, rfl, -⟩
    · rfl
    · exact absurd hxy (by simp)

/-! ## Rows -/

/-- A **row** holds for each entry on the right the length of the longest endings there; a zero
before it stands for the start of the right-hand side. -/
structure IsRow (p : List α) (right : List (α × Bool)) (row : List Nat) : Prop where
  /-- There is a length for each entry. -/
  length_eq : row.length = right.length
  /-- Each length is that of the longest endings. -/
  longest : ∀ j n, (0 :: row)[j]? = some n → LongestEnding p (right.take j) n

theorem isRow_replicate (right : List (α × Bool)) :
    IsRow ([] : List α) right (List.replicate right.length 0) := by
  refine ⟨List.length_replicate, fun j n hn => ?_⟩
  rw [← List.replicate_succ, List.getElem?_replicate] at hn
  split at hn
  · obtain rfl := Option.some.inj hn
    exact longestEnding_zero fun w hw => List.suffix_nil.1 hw.1
  · cases hn

/-- **The next row** is the row after one entry more on the left. -/
theorem isRow_nextRow [DecidableEq α] (h : IsRow p right row) (x : α) :
    IsRow (p ++ [x]) right (nextRow x right row) := by
  refine ⟨by simp [nextRow, h.length_eq], fun j n hn => ?_⟩
  cases j with
  | zero =>
    obtain rfl := Option.some.inj hn
    exact longestEnding_zero fun w hw => List.map_eq_nil_iff.1 (List.suffix_nil.1 hw.2)
  | succ j =>
    rw [List.getElem?_cons_succ, nextRow, List.getElem?_zipWith_eq_some] at hn
    obtain ⟨⟨y, starts⟩, m, hy, hm, rfl⟩ := hn
    rw [List.take_add_one, hy]
    exact (h.longest j m hm).concat

/-! ## The first of the longest runs -/

/-- A run of two sequences whose entries may all **start** one. -/
structure Startable (left : List α) (right : List (α × Bool)) (r : Run) : Prop where
  /-- The run lies on the left. -/
  left_le : r.left + r.size ≤ left.length
  /-- The run lies on the right. -/
  right_le : r.right + r.size ≤ right.length
  /-- Its entries are a common ending of what stands before its ends. -/
  ending : ∃ w, Ending (left.take (r.left + r.size)) (right.take (r.right + r.size)) w ∧
    w.length = r.size

/-- A run **precedes** another if it is longer, or is as long and starts no later on the left and
then on the right. -/
def Precedes (r s : Run) : Prop :=
  s.size < r.size ∨
    s.size = r.size ∧ (r.left < s.left ∨ r.left = s.left ∧ r.right ≤ s.right)

/-- The **first** of some runs. -/
structure IsFirst (S : Run → Prop) (r : Run) : Prop where
  /-- It is one of them. -/
  mem : S r
  /-- It precedes each of them. -/
  precedes : ∀ s, S s → Precedes r s

/-- Runs that end with the entry `i` on the left or before it; those that end with that entry end
before the entry `j` on the right. -/
def Seen (i j : Nat) (r : Run) : Prop :=
  r.left + r.size ≤ i ∨ r.left + r.size = i + 1 ∧ r.right + r.size ≤ j

theorem startable_empty (left : List α) (right : List (α × Bool)) :
    Startable left right ⟨0, 0, 0⟩ :=
  ⟨Nat.zero_le _, Nat.zero_le _, [], ending_nil _ _, rfl⟩

/-- A run that ends at two entries is no longer than the longest ending there. -/
theorem Startable.size_le (h : Startable left right r)
    (hn : LongestEnding (left.take (i + 1)) (right.take (j + 1)) n)
    (hi : r.left + r.size = i + 1) (hj : r.right + r.size = j + 1) : r.size ≤ n := by
  obtain ⟨w, hw, hsize⟩ := h.ending
  rw [hi, hj] at hw
  rw [← hsize]
  exact hn.2 w hw

/-- The longest ending at two entries makes a run. -/
theorem LongestEnding.startable (h : LongestEnding (left.take (i + 1)) (right.take (j + 1)) n)
    (hi : i < left.length) (hj : j < right.length) :
    n ≤ i + 1 ∧ n ≤ j + 1 ∧ Startable left right ⟨i + 1 - n, j + 1 - n, n⟩ := by
  obtain ⟨⟨w, hw, hsize⟩, -⟩ := h
  have hleft := hw.1.length_le
  have hright := hw.2.length_le
  rw [List.length_take, hsize] at hleft
  rw [List.length_map, List.length_take, hsize] at hright
  have hni : i + 1 - n + n = i + 1 := by omega
  have hnj : j + 1 - n + n = j + 1 := by omega
  refine ⟨by omega, by omega, ⟨?_, ?_, w, ?_, hsize⟩⟩
  · rw [hni]
    exact hi
  · rw [hnj]
    exact hj
  · rw [hni, hnj]
    exact hw

/-- What precedes the empty run at the starts precedes every empty run. -/
theorem Precedes.of_empty (h : Precedes r ⟨0, 0, 0⟩) (hs : s.size = 0) : Precedes r s := by
  unfold Precedes at *
  simp only at h
  omega

/-- **One step of the search**: the longest ending at two entries makes a run that is kept where it
is longer. -/
theorem IsFirst.step (h : IsFirst (fun r => Startable left right r ∧ Seen i j r) best)
    (hn : LongestEnding (left.take (i + 1)) (right.take (j + 1)) n) (hi : i < left.length)
    (hj : j < right.length) :
    IsFirst (fun r => Startable left right r ∧ Seen i (j + 1) r)
      (if best.size < n then ⟨i + 1 - n, j + 1 - n, n⟩ else best) := by
  obtain ⟨⟨hbest, hseen⟩, hfirst⟩ := h
  obtain ⟨hni, hnj, hrun⟩ := hn.startable hi hj
  -- A run that was not seen before ends at the two entries, so it is no longer than `n`.
  have hnew : ∀ s, Startable left right s → Seen i (j + 1) s → ¬Seen i j s →
      s.size ≤ n ∧ s.left + s.size = i + 1 ∧ s.right + s.size = j + 1 := by
    intro s hs hsj hsn
    unfold Seen at hsj hsn
    have hleft : s.left + s.size = i + 1 := by omega
    have hright : s.right + s.size = j + 1 := by omega
    exact ⟨hs.size_le hn hleft hright, hleft, hright⟩
  split
  · next hlt =>
    refine ⟨⟨hrun, ?_⟩, ?_⟩
    · unfold Seen
      simp only
      omega
    · rintro s ⟨hs, hsj⟩
      by_cases hsn : Seen i j s
      · have hbefore := hfirst s ⟨hs, hsn⟩
        unfold Precedes at *
        simp only
        omega
      · have hends := hnew s hs hsj hsn
        unfold Precedes
        simp only
        omega
  · next hle =>
    refine ⟨⟨hbest, ?_⟩, ?_⟩
    · unfold Seen at *
      omega
    · rintro s ⟨hs, hsj⟩
      by_cases hsn : Seen i j s
      · exact hfirst s ⟨hs, hsn⟩
      · -- The run that was found before ends earlier, so of two as long it starts earlier.
        have hends := hnew s hs hsj hsn
        unfold Seen at hseen
        unfold Precedes
        omega

/-- A whole row is looked through. -/
theorem isFirst_longestOfRow
    (h : IsFirst (fun r => Startable left right r ∧ r.left + r.size ≤ i) best)
    (hrow : IsRow (left.take (i + 1)) right row) (hi : i < left.length) :
    IsFirst (fun r => Startable left right r ∧ r.left + r.size ≤ i + 1)
      (longestOfRow i row best) := by
  have hseen : IsFirst (fun r => Startable left right r ∧ Seen i row.length r)
      (longestOfRow i row best) := by
    refine foldl_zipIdx_induction
      (fun ns b => IsFirst (fun r => Startable left right r ∧ Seen i ns.length r) b) ?_ ?_
    · refine ⟨⟨h.mem.1, .inl h.mem.2⟩, ?_⟩
      rintro s ⟨hs, hsi | ⟨hleft, hright⟩⟩
      · exact h.precedes s ⟨hs, hsi⟩
      · -- A run that has ended before the first entry on the right is empty.
        have hempty : s.size = 0 := by
          rw [List.length_nil] at hright
          omega
        exact (h.precedes _ ⟨startable_empty left right, Nat.zero_le _⟩).of_empty hempty
    · intro ns n ns' b hns hb
      have hn : (0 :: row)[ns.length + 1]? = some n := by simp [hns]
      have hj : ns.length < right.length := by
        rw [← hrow.length_eq, hns]
        simp
      rw [List.length_append, List.length_singleton]
      exact hb.step (hrow.longest _ _ hn) hi hj
  have hiff : ∀ r, Startable left right r → (Seen i row.length r ↔ r.left + r.size ≤ i + 1) := by
    intro r hr
    have hright := hr.right_le
    rw [hrow.length_eq, Seen]
    omega
  obtain ⟨⟨hs, hsi⟩, hfirst⟩ := hseen
  exact ⟨⟨hs, (hiff _ hs).1 hsi⟩, fun s ⟨hs', hsi'⟩ => hfirst s ⟨hs', (hiff s hs').2 hsi'⟩⟩

/-- **The search finds the first of the longest runs** whose entries may all start one. -/
theorem isFirst_longestIndexed [DecidableEq α] (left : List α) (right : List (α × Bool)) :
    IsFirst (Startable left right) (longestIndexed left right) := by
  have hwalk := foldl_zipIdx_induction (l := left)
    (f := fun (st : List Nat × Run) (xi : α × Nat) =>
      (nextRow xi.1 right st.1, longestOfRow xi.2 (nextRow xi.1 right st.1) st.2))
    (b := (List.replicate right.length 0, ⟨0, 0, 0⟩))
    (fun p st => IsRow p right st.1 ∧
      IsFirst (fun r => Startable left right r ∧ r.left + r.size ≤ p.length) st.2) ?_ ?_
  · obtain ⟨-, ⟨hs, -⟩, hfirst⟩ := hwalk
    exact ⟨hs, fun s hs' => hfirst s ⟨hs', hs'.left_le⟩⟩
  · refine ⟨isRow_replicate right, ⟨startable_empty left right, Nat.zero_le _⟩, ?_⟩
    rintro s ⟨-, hs⟩
    rw [List.length_nil] at hs
    unfold Precedes
    simp only
    omega
  · rintro p x q ⟨row, best⟩ hleft ⟨hrow, hbest⟩
    have hrow' := isRow_nextRow hrow x
    refine ⟨hrow', ?_⟩
    rw [List.length_append, List.length_singleton]
    refine isFirst_longestOfRow hbest ?_ ?_
    · rw [hleft, List.append_cons, List.take_left' (by simp)]
      exact hrow'
    · rw [hleft]
      simp

/-! ## Common runs -/

/-- A **common run** of two sequences: the same entries stand on both sides. -/
def Common (left right : List α) (r : Run) : Prop :=
  ∃ a w b c d, left = a ++ w ++ b ∧ right = c ++ w ++ d ∧
    a.length = r.left ∧ c.length = r.right ∧ w.length = r.size

/-- The parts before a common run, its entries and the parts behind it. -/
theorem Common.exists_parts {v : List α} (h : Common u v r) :
    ∃ w, u = u.take r.left ++ w ++ u.drop (r.left + r.size) ∧
      v = v.take r.right ++ w ++ v.drop (r.right + r.size) ∧
      (u.take r.left).length = r.left ∧ (v.take r.right).length = r.right ∧ w.length = r.size := by
  obtain ⟨a, w, b, c, d, rfl, rfl, ha, hc, hw⟩ := h
  refine ⟨w, ?_, ?_, ?_, ?_, hw⟩
  · rw [List.drop_left' (by rw [List.length_append, ha, hw]), List.append_assoc,
      List.take_left' ha, List.append_assoc]
  · rw [List.drop_left' (by rw [List.length_append, hc, hw]), List.append_assoc,
      List.take_left' hc, List.append_assoc]
  · rw [List.append_assoc, List.take_left' ha, ha]
  · rw [List.append_assoc, List.take_left' hc, hc]

/-- A sequence is cut before and behind an ending of its first entries. -/
theorem exists_cut (h : w <:+ u.take (n + w.length)) (hn : n + w.length ≤ u.length) :
    ∃ a b, u = a ++ w ++ b ∧ a.length = n := by
  obtain ⟨a, ha⟩ := h
  refine ⟨a, u.drop (n + w.length), by rw [ha, List.take_append_drop], ?_⟩
  have hlen := congrArg List.length ha
  rw [List.length_append, List.length_take, Nat.min_eq_left hn] at hlen
  omega

/-- Entries that are paired with answers are the same entries. -/
theorem map_fst_map (f : α → Bool) (u : List α) :
    (u.map fun x => (x, f x)).map Prod.fst = u := by
  rw [List.map_map]
  exact List.map_id u

theorem Startable.common (h : Startable left right r) : Common left (right.map Prod.fst) r := by
  obtain ⟨hleft, hright, w, ⟨hp, hq⟩, hw⟩ := h
  rw [← hw] at hp hq hleft hright
  obtain ⟨a, b, hab, ha⟩ := exists_cut hp hleft
  have hq' : w <:+ (right.map Prod.fst).take (r.right + w.length) := by
    have hfst := hq.map Prod.fst
    rwa [map_fst_map (fun _ => true), List.map_take] at hfst
  obtain ⟨c, d, hcd, hc⟩ := exists_cut hq' (by rwa [List.length_map])
  exact ⟨a, w, b, c, d, hab, hcd, ha, hc, hw⟩

variable [DecidableEq α]

/-- Two sequences **start** alike with as many entries as are counted. -/
theorem exists_commonStart (xs : List α) (ys : List (α × Bool)) :
    ∃ u xs' ys', xs = u ++ xs' ∧ ys.map Prod.fst = u ++ ys' ∧ u.length = commonStart xs ys := by
  fun_induction commonStart xs ys with
  | case1 xs x starts ys ih =>
    obtain ⟨u, xs', ys', rfl, hys, hu⟩ := ih
    exact ⟨x :: u, xs', ys', rfl, by simp [hys], by simp [hu]⟩
  | case2 => exact ⟨[], _, _, rfl, rfl, rfl⟩
  | case3 => exact ⟨[], _, _, rfl, rfl, rfl⟩

/-- **The run that is drawn out is a common run.** -/
theorem common_longest (left : List α) (right : List (α × Bool)) :
    Common left (right.map Prod.fst) (longest left right) := by
  obtain ⟨w, hl, hr, hllen, hrlen, hw⟩ :=
    (isFirst_longestIndexed left right).mem.common.exists_parts
  rw [longest]
  generalize longestIndexed left right = core at *
  obtain ⟨u, a, c, hua, huc, hu⟩ :=
    exists_commonStart (left.take core.left).reverse (right.take core.right).reverse
  obtain ⟨v, b, d, hvb, hvd, hv⟩ :=
    exists_commonStart (left.drop (core.left + core.size)) (right.drop (core.right + core.size))
  rw [List.reverse_eq_append_iff] at hua
  rw [List.map_reverse, List.map_take, List.reverse_eq_append_iff] at huc
  rw [List.map_drop] at hvd
  rw [hua, hvb] at hl
  rw [huc, hvd] at hr
  rw [hua, List.length_append, List.length_reverse, List.length_reverse] at hllen
  rw [huc, List.length_append, List.length_reverse, List.length_reverse] at hrlen
  refine ⟨a.reverse, u.reverse ++ w ++ v, b, c.reverse, d, ?_, ?_, ?_, ?_, ?_⟩
  · simpa only [List.append_assoc] using hl
  · simpa only [List.append_assoc] using hr
  · simp only [List.length_reverse]
    omega
  · simp only [List.length_reverse]
    omega
  · simp only [List.length_append, List.length_reverse]
    omega

/-! ## A sequence and itself -/

section

omit [DecidableEq α]

variable {f : α → Bool}

/-- A common ending with entries that `f` answers for. -/
theorem ending_map_iff :
    Ending p (u.map fun x => (x, f x)) w ↔ w <:+ p ∧ w <:+ u ∧ ∀ x ∈ w, f x = true := by
  constructor
  · rintro ⟨hp, t, ht⟩
    obtain ⟨u₁, u₂, rfl, -, hu₂⟩ := List.map_eq_append_iff.1 ht.symm
    obtain rfl : u₂ = w := by
      have hfst := congrArg (List.map Prod.fst) hu₂
      rwa [map_fst_map, map_fst_map (fun _ => true)] at hfst
    exact ⟨hp, List.suffix_append _ _,
      fun x hx => (Prod.mk.inj (List.map_inj_left.1 hu₂ x hx)).2⟩
  · rintro ⟨hp, hu, hf⟩
    refine ⟨hp, ?_⟩
    rw [List.map_congr_left fun x hx => by rw [← hf x hx]]
    exact hu.map _

/-- Both sides of a run in a sequence and itself make a run with themselves. -/
theorem Startable.diagonal (h : Startable u (u.map fun x => (x, f x)) r) :
    Startable u (u.map fun x => (x, f x)) ⟨r.left, r.left, r.size⟩ ∧
      Startable u (u.map fun x => (x, f x)) ⟨r.right, r.right, r.size⟩ := by
  obtain ⟨hleft, hright, w, hw, hsize⟩ := h
  rw [← List.map_take, ending_map_iff] at hw
  obtain ⟨hp, hq, hf⟩ := hw
  rw [List.length_map] at hright
  constructor
  · refine ⟨hleft, by rwa [List.length_map], w, ?_, hsize⟩
    rw [← List.map_take, ending_map_iff]
    exact ⟨hp, hp, hf⟩
  · refine ⟨hright, by rwa [List.length_map], w, ?_, hsize⟩
    rw [← List.map_take, ending_map_iff]
    exact ⟨hq, hq, hf⟩

/-- The first of the longest runs of a sequence and itself lies on the diagonal. -/
theorem IsFirst.left_eq_right (h : IsFirst (Startable u (u.map fun x => (x, f x))) r) :
    r.left = r.right := by
  obtain ⟨hleft, hright⟩ := h.mem.diagonal
  have hle := h.precedes _ hleft
  have hge := h.precedes _ hright
  unfold Precedes at hle hge
  simp only at hle hge
  omega

end

theorem commonStart_map (f : α → Bool) (xs : List α) :
    commonStart xs (xs.map fun x => (x, f x)) = xs.length := by
  induction xs with
  | nil => rfl
  | cons x xs ih => rw [List.map_cons, commonStart, if_pos rfl, ih, List.length_cons]

/-- **The longest run of a sequence and itself** is the whole sequence. -/
theorem longest_index (entries : List α) :
    longest entries (index entries) = ⟨0, 0, entries.length⟩ := by
  have hfirst := isFirst_longestIndexed entries (index entries)
  have hdiag : (longestIndexed entries (index entries)).left = _ := hfirst.left_eq_right
  have hle := hfirst.mem.left_le
  rw [longest]
  generalize longestIndexed entries (index entries) = core at *
  rw [← hdiag, index, ← List.map_take, ← List.map_drop, ← List.map_reverse, commonStart_map,
    commonStart_map, List.length_reverse, List.length_take, List.length_drop]
  rw [Run.mk.injEq]
  omega

end TemplateLayout.Alignment
