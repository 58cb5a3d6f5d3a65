import TemplateLayout.Text.Lines

/-! # Laws of lines
Every text is some lines, each with the break that ends it, and a last part without a break. A text
that goes on behind it has the same lines, and the last part begins its next line. Counting line
feeds finds the number of these lines just where no line ends in any other way.

* `Text.Unbroken` — texts without a line break;
* `Text.Lined` — lines with their breaks, and a last part; `Text.exists_lined` — every text has them;
* `Text.Lined.splitLines_append` — the lines of a text that goes on;
* `Text.onlyLineFeeds` — whether every break is a line feed, alone or behind a carriage return;
* `Text.Lined.count_lineFeed_eq_iff` — when counting line feeds counts the lines.
-/

namespace TemplateLayout.Text

variable {s t u l m : Text} {ls ms : List Text} {c : CodePoint}

/-! ## Breaks -/

/-- A text is **unbroken** if it holds no line break. -/
def Unbroken (s : Text) : Prop := ∀ c ∈ s, isLineBreak c = false

theorem isLineBreak_carriageReturn : isLineBreak (.char '\r') = true := by decide

theorem Unbroken.lineFeed_notMem (h : Unbroken s) : .char '\n' ∉ s :=
  fun hmem => absurd (h _ hmem) (by decide)

/-- What is no break is no carriage return. -/
theorem ne_carriageReturn (hc : isLineBreak c = false) : c ≠ .char '\r' := by
  rintro rfl
  exact absurd hc (by decide)

theorem splitLines_pair (s : Text) :
    splitLines (.char '\r' :: .char '\n' :: s) = [] :: splitLines s := by
  rw [splitLines]

/-- A break ends a line, also a carriage return that no line feed follows. -/
theorem splitLines_break (hc : isLineBreak c = true)
    (hs : c = .char '\r' → s.head? ≠ some (.char '\n')) :
    splitLines (c :: s) = [] :: splitLines s := by
  rw [splitLines, if_pos hc]
  rintro r rfl rfl
  exact hs rfl rfl

/-- Any other character begins the first line. -/
theorem splitLines_cons (hc : isLineBreak c = false) (s : Text) :
    splitLines (c :: s) = consChar c (splitLines s) := by
  rw [splitLines, if_neg (by rw [hc]; exact Bool.false_ne_true)]
  rintro r rfl
  exact absurd rfl (ne_carriageReturn hc)

/-- Only the empty text has no line. -/
theorem splitLines_eq_nil_iff : splitLines s = [] ↔ s = [] := by
  fun_cases splitLines s with
  | case1 => simp
  | case2 => simp
  | case3 => simp
  | case4 c s _ _ => cases splitLines s <;> simp [consChar]

/-- A line holds characters of its text only. -/
theorem mem_of_mem_splitLines (hl : l ∈ splitLines s) (hc : c ∈ l) : c ∈ s := by
  fun_induction splitLines s generalizing l with
  | case1 => simp at hl
  | case2 r ih =>
    rcases List.mem_cons.1 hl with rfl | hl
    · simp at hc
    · exact List.mem_cons_of_mem _ (List.mem_cons_of_mem _ (ih hl hc))
  | case3 d r _ hd ih =>
    rcases List.mem_cons.1 hl with rfl | hl
    · simp at hc
    · exact List.mem_cons_of_mem _ (ih hl hc)
  | case4 d r _ hd ih =>
    -- The character goes to the front of the first line behind it, or is a line by itself.
    cases hr : splitLines r with
    | nil =>
      rw [hr, consChar, List.mem_singleton] at hl
      rw [hl, List.mem_singleton] at hc
      exact hc ▸ List.mem_cons_self
    | cons l₁ ls =>
      rw [hr, consChar] at hl
      rcases List.mem_cons.1 hl with rfl | hl
      · rcases List.mem_cons.1 hc with rfl | hc
        · exact List.mem_cons_self
        · exact List.mem_cons_of_mem _ (ih (hr ▸ List.mem_cons_self) hc)
      · exact List.mem_cons_of_mem _ (ih (hr ▸ List.mem_cons_of_mem _ hl) hc)

/-- An unbroken text lengthens the first line of what follows it. -/
theorem splitLines_append_of_cons (hl : Unbroken l) (ht : splitLines t = m :: ms) :
    splitLines (l ++ t) = (l ++ m) :: ms := by
  induction l with
  | nil => exact ht
  | cons c l ih =>
    have ih := ih fun d hd => hl d (List.mem_cons_of_mem _ hd)
    rw [List.cons_append, splitLines_cons (hl c List.mem_cons_self), ih]
    rfl

/-- An unbroken text and a character that is no break stand in the first line. -/
theorem exists_splitLines_append (hl : Unbroken l) (hc : isLineBreak c = false) (t : Text) :
    ∃ m ms, splitLines (l ++ c :: t) = (l ++ c :: m) :: ms := by
  have hcons : ∃ m ms, splitLines (c :: t) = (c :: m) :: ms := by
    rw [splitLines_cons hc]
    cases splitLines t with
    | nil => exact ⟨[], [], rfl⟩
    | cons m ms => exact ⟨m, ms, rfl⟩
  obtain ⟨m, ms, ht⟩ := hcons
  exact ⟨m, ms, splitLines_append_of_cons hl ht⟩

/-! ## Lines and a last part -/

/-- The text `s` is the **lines** `ls`, each with a break behind it, and a last part `u`. -/
inductive Lined : Text → List Text → Text → Prop where
  /-- There is only the last part. -/
  | last {u : Text} (hu : Unbroken u) : Lined u [] u
  /-- A line that one character ends. -/
  | line {l s u : Text} {ls : List Text} {d : CodePoint} (hl : Unbroken l)
      (hd : isLineBreak d = true) (hs : d = .char '\r' → s.head? ≠ some (.char '\n'))
      (h : Lined s ls u) : Lined (l ++ d :: s) (l :: ls) u
  /-- A line that a carriage return and a line feed end. -/
  | pair {l s u : Text} {ls : List Text} (hl : Unbroken l) (h : Lined s ls u) :
      Lined (l ++ .char '\r' :: .char '\n' :: s) (l :: ls) u

/-- A character that is no break may stand before a text. -/
theorem Lined.exists_cons (h : Lined s ls u) (hc : isLineBreak c = false) :
    ∃ ls' u', Lined (c :: s) ls' u' := by
  have hcons {l : Text} (hl : Unbroken l) : Unbroken (c :: l) := by
    intro d hd
    rcases List.mem_cons.1 hd with rfl | hd
    · exact hc
    · exact hl d hd
  cases h with
  | last hu => exact ⟨[], c :: s, .last (hcons hu)⟩
  | line hl hd hs h => exact ⟨_, u, .line (hcons hl) hd hs h⟩
  | pair hl h => exact ⟨_, u, .pair (hcons hl) h⟩

/-- **Every text is lines and a last part.** -/
theorem exists_lined (s : Text) : ∃ ls u, Lined s ls u := by
  have hnil : Unbroken [] := fun c hc => absurd hc List.not_mem_nil
  fun_induction splitLines s with
  | case1 => exact ⟨[], [], .last hnil⟩
  | case2 s ih =>
    obtain ⟨ls, u, h⟩ := ih
    exact ⟨[] :: ls, u, .pair hnil h⟩
  | case3 c s hpair hc ih =>
    obtain ⟨ls, u, h⟩ := ih
    refine ⟨[] :: ls, u, .line hnil hc (fun hcr hhead => ?_) h⟩
    obtain ⟨r, hr⟩ := List.head?_eq_some_iff.1 hhead
    exact hpair r hcr hr
  | case4 c s hpair hc ih =>
    obtain ⟨ls, u, h⟩ := ih
    exact h.exists_cons (eq_false_of_ne_true hc)

/-- **The lines of a text that goes on** are its lines and those that begin with its last part. -/
theorem Lined.splitLines_append (h : Lined s ls u) (ht : t.head? ≠ some (.char '\n')) :
    splitLines (s ++ t) = ls ++ splitLines (u ++ t) := by
  induction h with
  | last hu => rfl
  | @line l s u ls d hl hd hs h ih =>
    have hs' : d = .char '\r' → (s ++ t).head? ≠ some (.char '\n') := by
      intro hcr
      cases s with
      | nil => exact ht
      | cons c s => exact hs hcr
    rw [List.append_assoc, List.cons_append, splitLines_append_of_cons hl (splitLines_break hd hs'),
      ih, List.append_nil, List.cons_append]
  | pair hl h ih =>
    rw [List.append_assoc, List.cons_append, List.cons_append,
      splitLines_append_of_cons hl (splitLines_pair _), ih, List.append_nil, List.cons_append]

/-- Each of the lines stands in the text with a break behind it. -/
theorem Lined.exists_break (h : Lined s ls u) {k : Nat} (hk : ls[k]? = some l) :
    ∃ a d b, s = a ++ l ++ d :: b ∧ isLineBreak d = true := by
  induction h generalizing k with
  | last hu => simp at hk
  | @line l' s u ls d hl hd hs h ih =>
    cases k with
    | zero =>
      obtain rfl : l' = l := Option.some.inj hk
      exact ⟨[], d, s, rfl, hd⟩
    | succ k =>
      obtain ⟨a, d', b, rfl, hd'⟩ := ih hk
      exact ⟨l' ++ d :: a, d', b, by simp, hd'⟩
  | @pair l' s u ls hl h ih =>
    cases k with
    | zero =>
      obtain rfl : l' = l := Option.some.inj hk
      exact ⟨[], .char '\r', .char '\n' :: s, rfl, isLineBreak_carriageReturn⟩
    | succ k =>
      obtain ⟨a, d', b, rfl, hd'⟩ := ih hk
      exact ⟨l' ++ .char '\r' :: .char '\n' :: a, d', b, by simp, hd'⟩

/-- The last part is unbroken. -/
theorem Lined.unbroken (h : Lined s ls u) : Unbroken u := by
  induction h with
  | last hu => exact hu
  | line _ _ _ _ ih => exact ih
  | pair _ _ ih => exact ih

/-! ## Counting line feeds -/

/-- Whether **every break is a line feed**, alone or behind a carriage return. -/
def onlyLineFeeds : Text → Bool
  | [] => true
  | .char '\r' :: .char '\n' :: s => onlyLineFeeds s
  | c :: s => (c == .char '\n' || !isLineBreak c) && onlyLineFeeds s

theorem onlyLineFeeds_cons (hs : c = .char '\r' → s.head? ≠ some (.char '\n')) :
    onlyLineFeeds (c :: s) = ((c == .char '\n' || !isLineBreak c) && onlyLineFeeds s) := by
  rw [onlyLineFeeds]
  rintro r rfl rfl
  exact hs rfl rfl

theorem onlyLineFeeds_append (hl : Unbroken l) (s : Text) :
    onlyLineFeeds (l ++ s) = onlyLineFeeds s := by
  induction l with
  | nil => rfl
  | cons c l ih =>
    have hc := hl c List.mem_cons_self
    rw [List.cons_append, onlyLineFeeds_cons fun hcr => absurd hcr (ne_carriageReturn hc), hc,
      Bool.not_false, Bool.or_true, Bool.true_and, ih fun d hd => hl d (List.mem_cons_of_mem _ hd)]

/-- Every line feed ends a line. -/
theorem Lined.count_lineFeed_le (h : Lined s ls u) : s.count (.char '\n') ≤ ls.length := by
  induction h with
  | last hu => rw [List.count_eq_zero_of_not_mem hu.lineFeed_notMem]; exact Nat.zero_le _
  | @line l s u ls d hl hd hs h ih =>
    rw [List.count_append, List.count_eq_zero_of_not_mem hl.lineFeed_notMem, List.count_cons,
      List.length_cons]
    split <;> omega
  | pair hl h ih =>
    rw [List.count_append, List.count_eq_zero_of_not_mem hl.lineFeed_notMem,
      List.count_cons_of_ne (by simp), List.count_cons_self, List.length_cons]
    omega

/-- **Counting line feeds counts the lines** exactly if nothing else ends a line. -/
theorem Lined.count_lineFeed_eq_iff (h : Lined s ls u) :
    s.count (.char '\n') = ls.length ↔ onlyLineFeeds s = true := by
  induction h with
  | @last u hu =>
    have honly := onlyLineFeeds_append hu []
    rw [List.append_nil] at honly
    rw [List.count_eq_zero_of_not_mem hu.lineFeed_notMem, honly]
    simp [onlyLineFeeds]
  | @line l s u ls d hl hd hs h ih =>
    rw [List.count_append, List.count_eq_zero_of_not_mem hl.lineFeed_notMem, List.count_cons,
      List.length_cons, onlyLineFeeds_append hl, onlyLineFeeds_cons hs, hd, Bool.not_true,
      Bool.or_false, Bool.and_eq_true, ← ih]
    -- Where the break is no line feed, one line more is ended than line feeds are counted.
    have hle := h.count_lineFeed_le
    cases hlf : d == .char '\n' with
    | true => simp
    | false =>
      simp only [Bool.false_eq_true, if_false, false_and, iff_false]
      omega
  | pair hl h ih =>
    rw [List.count_append, List.count_eq_zero_of_not_mem hl.lineFeed_notMem,
      List.count_cons_of_ne (by simp), List.count_cons_self, List.length_cons,
      onlyLineFeeds_append hl, onlyLineFeeds, ← ih]
    omega

/-- What stands before the last line feed is not looked at. -/
theorem takeWhile_append_lineFeed (s t : Text) :
    (s ++ .char '\n' :: t).takeWhile (· != .char '\n') = s.takeWhile (· != .char '\n') := by
  induction s with
  | nil => rfl
  | cons c s ih => rw [List.cons_append, List.takeWhile_cons, List.takeWhile_cons, ih]

/-- Behind the last line feed stands the last part, where nothing else ends a line. -/
theorem Lined.takeWhile_reverse (h : Lined s ls u) (hs : onlyLineFeeds s = true) :
    s.reverse.takeWhile (· != .char '\n') = u.reverse := by
  induction h with
  | @last u hu =>
    have hne : ∀ c ∈ u.reverse, (c != .char '\n') = true := by
      intro c hc
      rw [bne_iff_ne]
      rintro rfl
      exact hu.lineFeed_notMem (List.mem_reverse.1 hc)
    rw [← List.append_nil u.reverse, List.takeWhile_append_of_pos hne, List.takeWhile_nil]
  | @line l s u ls d hl hd hcr h ih =>
    rw [onlyLineFeeds_append hl, onlyLineFeeds_cons hcr, hd, Bool.not_true, Bool.or_false,
      Bool.and_eq_true, beq_iff_eq] at hs
    obtain ⟨rfl, hs⟩ := hs
    rw [List.reverse_append, List.reverse_cons, List.append_assoc, List.singleton_append,
      takeWhile_append_lineFeed, ih hs]
  | pair hl h ih =>
    rw [onlyLineFeeds_append hl, onlyLineFeeds] at hs
    rw [List.reverse_append, List.reverse_cons, List.reverse_cons, List.append_assoc,
      List.append_assoc, List.singleton_append, takeWhile_append_lineFeed, ih hs]

end TemplateLayout.Text
