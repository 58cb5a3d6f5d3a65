import Mathlib.Data.List.Chain
import TemplateLayout.Diagnostic.Snippet

/-! # The window of a snippet
A snippet shows the lines of a source whose numbers are near that of the line in error, and it shows
each of them once, in order. The line in error and the number of lines around it may be any whole
numbers, so a bound of the window may lie before the source or behind its end. The lines are those
that are found by going from one bound to the other, both kept within the source, and every position
on the way is one of the source.

* `Snippet.getElem?_window` — the lines of a window, one by one;
* `Snippet.mem_window_iff`, `Snippet.exists_mem_window_iff` — which lines are shown, and when the
  line in error is one of them;
* `Snippet.isChain_window` — they are shown in order and without gaps;
* `Snippet.positions`, `Snippet.lineAt?` — the positions between the bounds, and what stands there;
* `Snippet.mapM_lineAt?_positions` — a line stands at each of them;
* `Snippet.lines_ofSource` — what a snippet shows.
-/

namespace TemplateLayout.Snippet

open Text

variable {source content : Text} {errorLine context n : Int} {i : Nat}

/-! ## Line by line -/

/-- **The lines of a window** are those of the source, from the first that is not left out to the
last that is near enough. -/
theorem getElem?_window (source : Text) (errorLine context : Int) (i : Nat) :
    (window source errorLine context)[i]? =
      if (errorLine - 1 - context).toNat + i < (errorLine + context).toNat then
        (splitLines source)[(errorLine - 1 - context).toNat + i]?.map
          ((((errorLine - 1 - context).toNat + i : Nat) : Int) + 1, ·)
      else none := by
  simp only [window, List.getElem?_drop, List.getElem?_take, List.getElem?_map,
    List.getElem?_zipIdx, Nat.zero_add, Option.map_map]
  rfl

/-- A line that is shown has its number and its place in the source. -/
theorem getElem?_window_eq_some_iff :
    (window source errorLine context)[i]? = some (n, content) ↔
      n = ((errorLine - 1 - context).toNat : Int) + i + 1 ∧ n ≤ errorLine + context ∧
        (splitLines source)[(errorLine - 1 - context).toNat + i]? = some content := by
  rw [getElem?_window]
  constructor
  · intro h
    split at h
    · next hlt =>
      obtain ⟨content', hcontent, heq⟩ := Option.map_eq_some_iff.1 h
      obtain ⟨rfl, rfl⟩ := Prod.mk.inj heq
      exact ⟨by omega, by omega, hcontent⟩
    · cases h
  · rintro ⟨rfl, hle, hcontent⟩
    rw [if_pos (by omega), hcontent, Option.map_some, Int.natCast_add]

/-- **A snippet shows** the lines of the source whose numbers are near enough. -/
theorem mem_window_iff :
    (n, content) ∈ window source errorLine context ↔
      ∃ k : Nat, n = k + 1 ∧ (splitLines source)[k]? = some content ∧
        errorLine - context ≤ n ∧ n ≤ errorLine + context := by
  rw [List.mem_iff_getElem?]
  constructor
  · rintro ⟨i, hi⟩
    obtain ⟨hn, hle, hcontent⟩ := getElem?_window_eq_some_iff.1 hi
    exact ⟨_, by omega, hcontent, by omega, hle⟩
  · rintro ⟨k, hn, hcontent, hlow, hhigh⟩
    refine ⟨k - (errorLine - 1 - context).toNat, getElem?_window_eq_some_iff.2 ⟨?_, hhigh, ?_⟩⟩
    · omega
    · rwa [Nat.add_sub_cancel' (by omega)]

/-- The same, with the distance from the line in error. -/
theorem mem_window_iff_natAbs :
    (n, content) ∈ window source errorLine context ↔
      (1 ≤ n ∧ n ≤ (splitLines source).length) ∧ (n - errorLine).natAbs ≤ context ∧
        (splitLines source)[(n - 1).toNat]? = some content := by
  rw [mem_window_iff]
  constructor
  · rintro ⟨k, rfl, hcontent, hlow, hhigh⟩
    obtain ⟨hk, -⟩ := List.getElem?_eq_some_iff.1 hcontent
    refine ⟨by omega, by omega, ?_⟩
    rwa [Int.add_sub_cancel, Int.toNat_natCast]
  · rintro ⟨hn, hnear, hcontent⟩
    exact ⟨(n - 1).toNat, by omega, hcontent, by omega, by omega⟩

/-- **The line in error is shown** if there is such a line, unless not even that one is near
enough. -/
theorem exists_mem_window_iff :
    (∃ content, (errorLine, content) ∈ window source errorLine context) ↔
      (1 ≤ errorLine ∧ errorLine ≤ (splitLines source).length) ∧ 0 ≤ context := by
  simp only [mem_window_iff_natAbs, Int.sub_self, Int.natAbs_zero]
  constructor
  · rintro ⟨content, hline, hcontext, -⟩
    exact ⟨hline, hcontext⟩
  · rintro ⟨hline, hcontext⟩
    have hlt : (errorLine - 1).toNat < (splitLines source).length := by omega
    exact ⟨_, hline, hcontext, List.getElem?_eq_getElem hlt⟩

/-- **Each line that is shown is the next one** of the source behind the line before it. -/
theorem isChain_window (source : Text) (errorLine context : Int) :
    (window source errorLine context).IsChain fun l m => m.1 = l.1 + 1 := by
  rw [List.isChain_iff_getElem]
  intro i hi
  have hnumber (j : Nat) (hj : j < (window source errorLine context).length) :
      (window source errorLine context)[j].1 = ((errorLine - 1 - context).toNat : Int) + j + 1 :=
    (getElem?_window_eq_some_iff.1 (List.getElem?_eq_getElem hj)).1
  rw [hnumber i (Nat.lt_of_succ_lt hi), hnumber (i + 1) hi]
  omega

/-! ## Position by position -/

/-- The **positions** of a window among `length` lines, counted from zero: from the first of them
or from zero, whichever is later, up to the last of them or to the end, whichever is earlier. -/
def positions (length : Nat) (errorLine context : Int) : List Int :=
  let first := max 0 (errorLine - 1 - context)
  let stop := min (length : Int) (errorLine + context)
  (List.range (stop - first).toNat).map fun i : Nat => first + i

/-- The line **at a position**, with its number. A position below zero is none of the lines. -/
def lineAt? (lines : List Text) : Int → Option (Int × Text)
  | .ofNat i => lines[i]?.map ((i : Int) + 1, ·)
  | .negSucc _ => none

/-- What stands at the positions of a window are its lines. -/
theorem map_lineAt?_positions (source : Text) (errorLine context : Int) :
    (positions (splitLines source).length errorLine context).map (lineAt? (splitLines source)) =
      (window source errorLine context).map some := by
  refine List.ext_getElem? fun i => ?_
  rw [List.getElem?_map, List.getElem?_map, positions, List.getElem?_map, getElem?_window]
  by_cases hi : i < (min ((splitLines source).length : Int) (errorLine + context) -
      max 0 (errorLine - 1 - context)).toNat
  · have hposition : max 0 (errorLine - 1 - context) + (i : Int) =
        Int.ofNat ((errorLine - 1 - context).toNat + i) := by
      rw [Int.ofNat_eq_natCast]
      omega
    have hline : (errorLine - 1 - context).toNat + i < (splitLines source).length := by omega
    rw [List.getElem?_range hi, if_pos (by omega), List.getElem?_eq_getElem hline,
      Option.map_some, Option.map_some, hposition, lineAt?, List.getElem?_eq_getElem hline]
    rfl
  · -- Behind the last position there is no more line, or none that is near enough.
    rw [List.getElem?_eq_none (by rw [List.length_range]; omega)]
    split
    · rw [List.getElem?_eq_none (by omega)]
      rfl
    · rfl

/-- **A line stands at every position of a window.** Reading one after the other never fails, and
what is read is the window. -/
theorem mapM_lineAt?_positions (source : Text) (errorLine context : Int) :
    (positions (splitLines source).length errorLine context).mapM (lineAt? (splitLines source)) =
      some (window source errorLine context) := by
  have hmap := congrArg (List.mapM id) (map_lineAt?_positions source errorLine context)
  rw [List.mapM_map, List.mapM_map] at hmap
  calc (positions (splitLines source).length errorLine context).mapM (lineAt? (splitLines source))
      = (window source errorLine context).mapM (fun line => (pure (id line) : Option _)) := hmap
    _ = some (window source errorLine context) := by
      rw [List.mapM_pure, List.map_id]
      rfl

/-! ## Snippets -/

/-- **What a snippet shows**, whatever the line in error and the number of lines around it. It shows
the lines of the source whose numbers are at most `context` away from that of the line in error,
each behind the one before it. They are found by reading the source at the positions between the
bounds, none of which is out of range. The line in error is shown if the source has such a line and
`context` is not negative, and not else. -/
theorem lines_ofSource (source : Text) (errorLine context : Int) (column : Option Int) :
    let lines := splitLines source
    let shown := (ofSource source errorLine context column).lines
    (∀ k content, (k, content) ∈ shown ↔
      (1 ≤ k ∧ k ≤ lines.length) ∧ (k - errorLine).natAbs ≤ context ∧
        lines[(k - 1).toNat]? = some content) ∧
    (shown.IsChain fun l m => m.1 = l.1 + 1) ∧
    (positions lines.length errorLine context).mapM (lineAt? lines) = some shown ∧
    ((∃ content, (errorLine, content) ∈ shown) ↔
      (1 ≤ errorLine ∧ errorLine ≤ lines.length) ∧ 0 ≤ context) := by
  exact ⟨fun _ _ => mem_window_iff_natAbs, isChain_window source errorLine context,
    mapM_lineAt?_positions source errorLine context, exists_mem_window_iff⟩

/-- Before the first line there is none, and what is around it begins with the first. -/
example : (ofSource "a\nb\nc".toText (-1) 3 none).lines = [(1, "a".toText), (2, "b".toText)] := by
  decide

end TemplateLayout.Snippet
