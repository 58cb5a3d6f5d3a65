import TemplateLayout.Value.Reader

/-! # Where reading stops
A reader takes parts from the start of a text. What it leaves is an end of that text, and so is the
place that a failure names; the text is therefore the part before the place and the part from it on.

* `Taken.Stays` — an answer that leaves, or fails at, an end of a text;
* `Value.stays_takeValue` — values, items and fields are read within the text;
* `ReadError.before_append_rest` — the text before and behind the place of a failure.
-/

namespace TemplateLayout

variable {s t u r start : Text} {α β : Type} {e : ReadError}

/-! ## Answers within a text -/

/-- An answer **stays in** the text `u` if what is left is an end of `u`, or the place of the failure
begins one. -/
def Taken.Stays (u : Text) : Except ReadError (Taken s α) → Prop
  | .ok x => x.rest <:+ u
  | .error e => e.rest <:+ u

open Taken

theorem Taken.Stays.bind {x : Except ReadError (Taken s α)}
    {f : Taken s α → Except ReadError (Taken t β)} (hx : Stays u x)
    (hf : ∀ y, y.rest <:+ u → Stays u (f y)) : Stays u (x >>= f) := by
  cases x with
  | ok y => exact hf y hx
  | error e => exact hx

/-- Without its first character an end of a text is an end of it. -/
theorem Text.suffix_tail {c : CodePoint} (h : c :: r <:+ u) : r <:+ u :=
  (List.suffix_cons c r).trans h

namespace Value

open Text

theorem skipBlanks_suffix (h : s <:+ u) : skipBlanks s <:+ u := (List.dropWhile_suffix _).trans h

/-- What follows the first character behind some blanks is an end of the text. -/
theorem suffix_of_skipBlanks {c : CodePoint} (hs : skipBlanks s = c :: r) (h : s <:+ u) :
    r <:+ u := by
  have hsuf := skipBlanks_suffix h
  rw [hs] at hsuf
  exact suffix_tail hsuf

/-! ## Strings -/

/-- An escape fails at a `u` of the text. -/
theorem suffix_of_unicodeEscape (he : unicodeEscape r = .error e) : e.rest <:+ .char 'u' :: r := by
  unfold unicodeEscape at he
  split at he
  · obtain rfl := Except.error.inj he
    exact List.suffix_rfl
  · split at he
    · next r' hdrop =>
      -- The second escape of a pair stands four digits further on.
      have hsuf : .char 'u' :: r' <:+ r := by
        have hr := List.drop_suffix 4 r
        rw [hdrop] at hr
        exact suffix_tail hr
      split at he
      · split at he
        · obtain rfl := Except.error.inj he
          exact hsuf.trans (List.suffix_cons _ _)
        · split at he <;> exact absurd he (by simp [pure, Except.pure])
      · exact absurd he (by simp [pure, Except.pure])
    · exact absurd he (by simp [pure, Except.pure])

theorem stays_takeString (hstart : start <:+ u) (hs : s <:+ u) :
    Stays u (takeString start s) := by
  induction s using takeString.induct with
  | case1 => rw [takeString]; exact hstart
  | case2 r => rw [takeString]; exact suffix_tail hs
  | case3 => rw [takeString]; exact hstart
  | case4 r ih =>
    rw [takeString]
    have hu : .char 'u' :: r <:+ u := suffix_tail hs
    cases he : unicodeEscape r with
    | error e => exact (suffix_of_unicodeEscape he).trans hu
    | ok cn =>
      have hdrop : r.drop cn.2 <:+ u := (List.drop_suffix _ _).trans (suffix_tail hu)
      exact (ih cn.2 hdrop).bind fun y hy => hy
  | case5 e r hne hnone =>
    rw [takeString]
    · simp only [hnone]
      exact hs
    · exact hne
  | case6 e r hne c hsome ih =>
    rw [takeString]
    · simp only [hsome]
      exact (ih (suffix_tail (suffix_tail hs))).bind fun y hy => hy
    · exact hne
  | case7 c r h1 h2 h3 h4 hlt =>
    rw [takeString, if_pos hlt]
    · exact hs
    all_goals assumption
  | case8 c r h1 h2 h3 h4 hlt ih =>
    rw [takeString, if_neg hlt]
    · exact (ih (suffix_tail hs)).bind fun y hy => hy
    all_goals assumption

/-! ## Values -/

theorem stays_takeScalar (hs : s <:+ u) : Stays u (takeScalar s) := by
  unfold takeScalar
  extract_lets found
  clear_value found
  split
  · split
    · exact (List.drop_suffix _ _).trans hs
    · exact hs
  · exact hs

/-- **Values, fields and items are read within the text.** -/
theorem stays_take :
    (∀ s u : Text, s <:+ u → Stays u (takeValue s)) ∧
      (∀ s u : Text, s <:+ u → Stays u (takeFields s)) ∧
      ∀ s u : Text, s <:+ u → Stays u (takeItems s) := by
  refine takeValue.mutual_induct (fun s => ∀ u, s <:+ u → Stays u (takeValue s))
    (fun s => ∀ u, s <:+ u → Stays u (takeFields s))
    (fun s => ∀ u, s <:+ u → Stays u (takeItems s))
    ?string ?emptyList ?list ?emptyMapping ?mapping ?scalar ?fields ?noField ?items
  case string =>
    intro r u hs
    rw [takeValue]
    exact (stays_takeString hs (suffix_tail hs)).bind fun y hy => hy
  case emptyList =>
    intro r r' hr u hs
    rw [takeValue]
    split
    · next r'' hr' => exact suffix_of_skipBlanks hr' (suffix_tail hs)
    · next hne => exact absurd hr (hne r')
  case list =>
    intro r hne ih u hs
    rw [takeValue]
    split
    · next r' hr' => exact absurd hr' (hne r')
    · exact (ih u (skipBlanks_suffix (suffix_tail hs))).bind fun y hy => hy
  case emptyMapping =>
    intro r r' hr u hs
    rw [takeValue]
    split
    · next r'' hr' => exact suffix_of_skipBlanks hr' (suffix_tail hs)
    · next hne => exact absurd hr (hne r')
  case mapping =>
    intro r hne ih u hs
    rw [takeValue]
    split
    · next r' hr' => exact absurd hr' (hne r')
    · exact (ih u (skipBlanks_suffix (suffix_tail hs))).bind fun y hy => hy
  case scalar =>
    intro s h1 h2 h3 u hs
    rw [takeValue]
    · exact stays_takeScalar hs
    all_goals assumption
  case fields =>
    intro s ihValue ihFields u hs
    rw [takeFields]
    refine (stays_takeString hs (suffix_tail hs)).bind fun name hname => ?_
    split
    · next r hr =>
      have hr' := suffix_of_skipBlanks hr hname
      refine (ihValue name r hr u (skipBlanks_suffix hr')).bind fun t ht => ?_
      split
      · next r' hd => exact suffix_of_skipBlanks hd ht
      · next r' hd =>
        have hd' := suffix_of_skipBlanks hd ht
        exact (ihFields name r hr t r' hd u (skipBlanks_suffix hd')).bind fun y hy => hy
      · exact skipBlanks_suffix ht
    · exact skipBlanks_suffix hname
  case noField =>
    intro s hne u hs
    rw [takeFields]
    · exact hs
    · exact hne
  case items =>
    intro s ihValue ihItems u hs
    rw [takeItems]
    refine (ihValue u hs).bind fun t ht => ?_
    split
    · next r hr => exact suffix_of_skipBlanks hr ht
    · next r hr =>
      have hr' := suffix_of_skipBlanks hr ht
      exact (ihItems t r hr u (skipBlanks_suffix hr')).bind fun y hy => hy
    · exact skipBlanks_suffix ht

/-- **A text that cannot be read has an end from the place of the failure on.** -/
theorem suffix_of_read (h : read s = .error e) : e.rest <:+ s := by
  unfold read at h
  split at h
  · obtain rfl := Except.error.inj h
    exact List.suffix_rfl
  · have hstays := stays_take.1 _ s (skipBlanks_suffix List.suffix_rfl)
    cases ht : takeValue (skipBlanks s) with
    | error e' =>
      rw [ht] at h hstays
      obtain rfl := Except.error.inj h
      exact hstays
    | ok t =>
      rw [ht] at h hstays
      simp only [bind, Except.bind] at h
      split at h
      · exact absurd h (by simp [pure, Except.pure])
      · obtain rfl := Except.error.inj h
        exact skipBlanks_suffix hstays

end Value

/-- The text before the place of a failure, and the text from there on. -/
theorem ReadError.before_append_rest (h : e.rest <:+ s) : e.before s ++ e.rest = s := by
  obtain ⟨a, rfl⟩ := h
  simp [before]

end TemplateLayout
