import TemplateLayout.Text.Blank

/-! # Laws of blanks
Trimming and collapsing change nothing but blanks, and collapsing changes no place where two other
characters touch. The second law is stated through `Text.squash`, which works from the left and
keeps a space at an end; on a trimmed text it is collapsing.

* `Text.startsBlank`, `Text.endsBlank` — whether a text has a blank at an end;
* `Text.visible` — a text without its blanks;
* `Text.squash` — a text with one space for each run of blanks;
* `Text.words_append_blank` — a blank divides the words before it from those after it;
* `Text.collapse_eq_squash` — collapsing a trimmed text.
-/

namespace TemplateLayout.Text

variable {s t b : Text} {c : CodePoint}

/-! ## Some characters -/

theorem isBlank_space : isBlank (.char ' ') = true := by decide

theorem isBlank_lineFeed : isBlank (.char '\n') = true := by decide

theorem isBlank_openBrace : isBlank (.char '{') = false := by decide

theorem isBlank_closeBrace : isBlank (.char '}') = false := by decide

/-! ## Ends of a text -/

/-- Whether a text begins with a blank. -/
def startsBlank (s : Text) : Bool := s.head?.any isBlank

/-- Whether a text ends with a blank. -/
def endsBlank (s : Text) : Bool := s.getLast?.any isBlank

@[simp] theorem startsBlank_nil : startsBlank [] = false := rfl

@[simp] theorem startsBlank_cons (c : CodePoint) (s : Text) :
    startsBlank (c :: s) = isBlank c := rfl

@[simp] theorem endsBlank_append_singleton (s : Text) (c : CodePoint) :
    endsBlank (s ++ [c]) = isBlank c := by
  simp [endsBlank]

/-- Only the last character counts for the end of a text. -/
@[simp] theorem endsBlank_cons_cons (c d : CodePoint) (s : Text) :
    endsBlank (c :: d :: s) = endsBlank (d :: s) := by
  simp [endsBlank]

@[simp] theorem endsBlank_reverse (s : Text) : endsBlank s.reverse = startsBlank s := by
  simp [endsBlank, startsBlank]

/-- The start of a text that is not empty does not depend on what follows it. -/
theorem startsBlank_append (hs : s ≠ []) (t : Text) :
    startsBlank (s ++ t) = startsBlank s := by
  cases s with
  | nil => exact absurd rfl hs
  | cons c s => rfl

/-- The end of a text that is not empty does not depend on what stands before it. -/
theorem endsBlank_append (ht : t ≠ []) (s : Text) : endsBlank (s ++ t) = endsBlank t := by
  rw [endsBlank, endsBlank, List.getLast?_append, List.getLast?_eq_some_getLast ht,
    Option.some_or]

@[simp] theorem allBlank_nil : allBlank [] = true := rfl

@[simp] theorem allBlank_cons (c : CodePoint) (s : Text) :
    allBlank (c :: s) = (isBlank c && allBlank s) := rfl

@[simp] theorem allBlank_append (s t : Text) :
    allBlank (s ++ t) = (allBlank s && allBlank t) :=
  List.all_append

/-- Blanks at the start of a text show unless there are none. -/
theorem startsBlank_of_allBlank (hb : allBlank b = true) (hne : b ≠ []) :
    startsBlank b = true := by
  cases b with
  | nil => exact absurd rfl hne
  | cons c b => exact (Bool.and_eq_true_iff.1 hb).1

/-! ## Visible characters -/

/-- The **visible part** of a text: all of it but the blanks. -/
def visible (s : Text) : Text := s.filter fun c => !isBlank c

@[simp] theorem visible_nil : visible [] = [] := rfl

@[simp] theorem visible_append (s t : Text) : visible (s ++ t) = visible s ++ visible t :=
  List.filter_append ..

theorem visible_cons (c : CodePoint) (s : Text) :
    visible (c :: s) = if isBlank c then visible s else c :: visible s := by
  cases h : isBlank c <;> simp [visible, h]

/-- A blank is not visible. -/
theorem visible_cons_blank (hc : isBlank c = true) (s : Text) : visible (c :: s) = visible s := by
  rw [visible_cons, if_pos hc]

/-- Nothing of a text is visible exactly if it is blank. -/
theorem visible_eq_nil_iff : visible s = [] ↔ allBlank s = true := by
  simp [visible, allBlank]

theorem visible_of_allBlank (hs : allBlank s = true) : visible s = [] :=
  visible_eq_nil_iff.2 hs

/-! ## Trimming -/

/-- Blanks at the front are trimmed. -/
theorem trimLeft_append (hb : allBlank b = true) (s : Text) : trimLeft (b ++ s) = trimLeft s := by
  induction b with
  | nil => rfl
  | cons c b ih =>
    obtain ⟨hc, hb⟩ := Bool.and_eq_true_iff.1 hb
    rw [List.cons_append, trimLeft, List.dropWhile_cons_of_pos hc]
    exact ih hb

/-- Nothing is trimmed where a text does not begin with a blank. -/
theorem trimLeft_eq_self (hs : startsBlank s = false) : trimLeft s = s := by
  cases s with
  | nil => rfl
  | cons c s => exact List.dropWhile_cons_of_neg (by simpa using hs)

/-- What is trimmed from the front is blank, and what is left does not begin with a blank. -/
theorem exists_trimLeft (s : Text) :
    ∃ b, allBlank b = true ∧ s = b ++ trimLeft s ∧ startsBlank (trimLeft s) = false := by
  induction s with
  | nil => exact ⟨[], rfl, rfl, rfl⟩
  | cons c s ih =>
    by_cases hc : isBlank c = true
    · obtain ⟨b, hb, hs, hstart⟩ := ih
      have htrim : trimLeft (c :: s) = trimLeft s := List.dropWhile_cons_of_pos hc
      refine ⟨c :: b, ?_, ?_, ?_⟩
      · rw [allBlank_cons, hc, hb, Bool.and_self]
      · rw [htrim, List.cons_append, ← hs]
      · rw [htrim]
        exact hstart
    · have htrim : trimLeft (c :: s) = c :: s := List.dropWhile_cons_of_neg hc
      refine ⟨[], rfl, htrim.symm, ?_⟩
      rw [htrim, startsBlank_cons]
      exact eq_false_of_ne_true hc

/-- Trimming the end of a text is trimming the start of its reverse. -/
theorem trimRight_eq_reverse (s : Text) : trimRight s = (trimLeft s.reverse).reverse := rfl

/-- Blanks at the back are trimmed. -/
theorem trimRight_append (hb : allBlank b = true) (s : Text) :
    trimRight (s ++ b) = trimRight s := by
  have hrev : allBlank b.reverse = true := by rwa [allBlank, List.all_reverse]
  rw [trimRight_eq_reverse, List.reverse_append, trimLeft_append hrev, trimRight_eq_reverse]

/-- Nothing is trimmed where a text does not end with a blank. -/
theorem trimRight_eq_self (hs : endsBlank s = false) : trimRight s = s := by
  have hrev : startsBlank s.reverse = false := by
    rwa [← endsBlank_reverse, List.reverse_reverse]
  rw [trimRight_eq_reverse, trimLeft_eq_self hrev, List.reverse_reverse]

/-- What is trimmed from the back is blank, and what is left does not end with a blank. -/
theorem exists_trimRight (s : Text) :
    ∃ b, allBlank b = true ∧ s = trimRight s ++ b ∧ endsBlank (trimRight s) = false := by
  obtain ⟨b, hb, hs, hstart⟩ := exists_trimLeft s.reverse
  refine ⟨b.reverse, ?_, ?_, ?_⟩
  · rwa [allBlank, List.all_reverse]
  · rw [trimRight_eq_reverse, ← List.reverse_append, ← hs, List.reverse_reverse]
  · rwa [trimRight_eq_reverse, endsBlank_reverse]

/-- Trimming the end of a text leaves its start, unless nothing is left. -/
theorem startsBlank_trimRight (hs : startsBlank s = false) : startsBlank (trimRight s) = false := by
  obtain ⟨b, -, hsb, -⟩ := exists_trimRight s
  by_cases hne : trimRight s = []
  · rw [hne, startsBlank_nil]
  · rw [← startsBlank_append hne b, ← hsb]
    exact hs

/-- **A text falls into three parts**: blanks, the trimmed text, blanks. -/
theorem exists_trim (s : Text) :
    ∃ b b', allBlank b = true ∧ allBlank b' = true ∧ s = b ++ trim s ++ b' := by
  obtain ⟨b, hb, hs, -⟩ := exists_trimLeft s
  obtain ⟨b', hb', hs', -⟩ := exists_trimRight (trimLeft s)
  exact ⟨b, b', hb, hb', by rw [trim, List.append_assoc, ← hs', ← hs]⟩

@[simp] theorem startsBlank_trim (s : Text) : startsBlank (trim s) = false := by
  obtain ⟨-, -, -, hstart⟩ := exists_trimLeft s
  exact startsBlank_trimRight hstart

@[simp] theorem endsBlank_trim (s : Text) : endsBlank (trim s) = false := by
  obtain ⟨-, -, -, hend⟩ := exists_trimRight (trimLeft s)
  exact hend

/-- Only a text with a blank at an end changes when it is trimmed. -/
theorem trim_eq_self (hstart : startsBlank s = false) (hend : endsBlank s = false) :
    trim s = s := by
  rw [trim, trimLeft_eq_self hstart, trimRight_eq_self hend]

/-- Blanks before a text and after it are trimmed. -/
theorem trim_append_append {b' : Text} (hb : allBlank b = true) (hb' : allBlank b' = true)
    (s : Text) : trim (b ++ s ++ b') = trim s := by
  obtain ⟨b₀, hb₀, hs, -⟩ := exists_trimLeft s
  rw [trim, List.append_assoc, trimLeft_append hb]
  by_cases hne : trimLeft s = []
  · -- A blank text: all three parts go.
    have hall : allBlank (s ++ b') = true := by
      rw [allBlank_append, hs, hne, List.append_nil, hb₀, hb', Bool.and_self]
    have hnil := trimLeft_append hall []
    rw [List.append_nil] at hnil
    rw [hnil, trim, hne]
    rfl
  · have hstart : startsBlank (trimLeft s ++ b') = false := by
      rw [startsBlank_append hne]
      exact (exists_trimLeft s).choose_spec.2.2
    have hleft : trimLeft (s ++ b') = trimLeft s ++ b' := by
      conv => lhs; rw [hs]
      rw [List.append_assoc, trimLeft_append hb₀, trimLeft_eq_self hstart]
    rw [hleft, trimRight_append hb', trim]

/-- Blanks before a text are trimmed. -/
theorem trim_append_left (hb : allBlank b = true) (s : Text) : trim (b ++ s) = trim s := by
  have h := trim_append_append hb allBlank_nil s
  rwa [List.append_nil] at h

/-- Blanks after a text are trimmed. -/
theorem trim_append_right (hb : allBlank b = true) (s : Text) : trim (s ++ b) = trim s := by
  have h := trim_append_append allBlank_nil hb s
  rwa [List.nil_append] at h

/-- Trimming takes away nothing visible. -/
@[simp] theorem visible_trim (s : Text) : visible (trim s) = visible s := by
  obtain ⟨b, b', hb, hb', hs⟩ := exists_trim s
  conv => rhs; rw [hs]
  rw [visible_append, visible_append, visible_of_allBlank hb, visible_of_allBlank hb',
    List.nil_append, List.append_nil]

/-- A text is trimmed to nothing exactly if it is blank. -/
theorem trim_eq_nil_iff : trim s = [] ↔ allBlank s = true := by
  constructor
  · intro h
    rw [← visible_eq_nil_iff, ← visible_trim, h, visible_nil]
  · intro h
    have := trim_append_left h []
    rwa [List.append_nil, trim_nil] at this

/-- Between two parts, what has no blank at its ends is kept when the whole is trimmed. -/
theorem trim_append_of_visible (hs : s ≠ []) (hstart : startsBlank s = false)
    (hend : endsBlank s = false) (a b : Text) :
    trim (a ++ (s ++ b)) = trimLeft a ++ (s ++ trimRight b) := by
  obtain ⟨a', ha', ha, hastart⟩ := exists_trimLeft a
  obtain ⟨b', hb', hb, hbend⟩ := exists_trimRight b
  have hparts : a ++ (s ++ b) = a' ++ (trimLeft a ++ (s ++ trimRight b)) ++ b' := by
    conv => lhs; rw [ha, hb]
    simp only [List.append_assoc]
  have hleft : startsBlank (trimLeft a ++ (s ++ trimRight b)) = false := by
    by_cases hne : trimLeft a = []
    · rw [hne, List.nil_append, startsBlank_append hs, hstart]
    · rw [startsBlank_append hne, hastart]
  have hright : endsBlank (trimLeft a ++ (s ++ trimRight b)) = false := by
    rw [endsBlank_append (by simp [hs])]
    by_cases hne : trimRight b = []
    · rw [hne, List.append_nil, hend]
    · rw [endsBlank_append hne, hbend]
  rw [hparts, trim_append_append ha' hb', trim_eq_self hleft hright]

/-! ## Words -/

theorem words_eq_consRun (s : Text) : words s = consRun (splitRuns s).1 (splitRuns s).2 := rfl

theorem consRun_append (run : Text) (rest ws : List Text) :
    consRun run (rest ++ ws) = consRun run rest ++ ws := by
  unfold consRun
  split <;> rfl

/-- A word put first is there only if it is not empty. -/
theorem mem_consRun {run w : Text} {rest : List Text} (h : w ∈ consRun run rest) :
    w = run ∧ run ≠ [] ∨ w ∈ rest := by
  unfold consRun at h
  split at h
  · exact .inr h
  · next hne =>
    rcases List.mem_cons.1 h with rfl | h
    · exact .inl ⟨rfl, by simpa using hne⟩
    · exact .inr h

theorem flatten_consRun (run : Text) (rest : List Text) :
    (consRun run rest).flatten = run ++ rest.flatten := by
  unfold consRun
  split <;> simp_all

/-- A blank ends the run before it; what follows it are words of their own. -/
theorem splitRuns_append_blank (hc : isBlank c = true) (s t : Text) :
    splitRuns (s ++ c :: t) = ((splitRuns s).1, (splitRuns s).2 ++ words t) := by
  induction s with
  | nil => simp [splitRuns, hc, words]
  | cons d s ih =>
    rw [List.cons_append, splitRuns, splitRuns, ih]
    by_cases hd : isBlank d = true
    · simp only [hd, if_true, consRun_append]
    · simp [hd]

/-- **A blank divides words**: those before it and those after it are the words of the text. -/
theorem words_append_blank (hc : isBlank c = true) (s t : Text) :
    words (s ++ c :: t) = words s ++ words t := by
  rw [words_eq_consRun, splitRuns_append_blank hc, consRun_append, ← words_eq_consRun]

@[simp] theorem words_nil : words [] = [] := rfl

/-- A blank at the front belongs to no word. -/
theorem words_cons_blank (hc : isBlank c = true) (s : Text) : words (c :: s) = words s :=
  words_append_blank hc [] s

/-- Blanks before a text belong to no word. -/
theorem words_append_left (hb : allBlank b = true) (s : Text) : words (b ++ s) = words s := by
  induction b with
  | nil => rfl
  | cons c b ih =>
    obtain ⟨hc, hb⟩ := Bool.and_eq_true_iff.1 hb
    rw [List.cons_append, words_cons_blank hc, ih hb]

/-- Blanks after a text belong to no word. -/
theorem words_append_right (hb : allBlank b = true) (s : Text) : words (s ++ b) = words s := by
  cases b with
  | nil => rw [List.append_nil]
  | cons c b =>
    obtain ⟨hc, hb⟩ := Bool.and_eq_true_iff.1 hb
    have hnil := words_append_left hb []
    rw [List.append_nil] at hnil
    rw [words_append_blank hc, hnil, words_nil, List.append_nil]

/-- Trimming keeps the words. -/
@[simp] theorem words_trim (s : Text) : words (trim s) = words s := by
  obtain ⟨b, b', hb, hb', hs⟩ := exists_trim s
  conv => rhs; rw [hs]
  rw [words_append_right hb', words_append_left hb]

/-- The runs of a text hold its visible characters in order. -/
theorem splitRuns_flatten (s : Text) :
    (splitRuns s).1 ++ (splitRuns s).2.flatten = visible s := by
  induction s with
  | nil => rfl
  | cons c s ih =>
    rw [splitRuns, visible_cons, ← ih]
    by_cases hc : isBlank c = true
    · simp only [hc, if_true, flatten_consRun, List.nil_append]
    · simp [hc]

/-- **The words of a text are its visible characters**, in order. -/
theorem flatten_words (s : Text) : (words s).flatten = visible s := by
  rw [words_eq_consRun, flatten_consRun, splitRuns_flatten]

/-- What `splitRuns` gives holds no blank, and none of the runs after the first is empty. -/
theorem splitRuns_spec (s : Text) :
    (∀ c ∈ (splitRuns s).1, isBlank c = false) ∧
      ∀ w ∈ (splitRuns s).2, w ≠ [] ∧ ∀ c ∈ w, isBlank c = false := by
  induction s with
  | nil => simp [splitRuns]
  | cons c s ih =>
    obtain ⟨hrun, hrest⟩ := ih
    rw [splitRuns]
    by_cases hc : isBlank c = true
    · simp only [hc, if_true]
      refine ⟨by simp, ?_⟩
      intro w hw
      rcases mem_consRun hw with ⟨rfl, hne⟩ | hw
      · exact ⟨hne, hrun⟩
      · exact hrest w hw
    · simp only [hc, Bool.false_eq_true, if_false, List.mem_cons]
      refine ⟨?_, hrest⟩
      rintro d (rfl | hd)
      · exact eq_false_of_ne_true hc
      · exact hrun d hd

/-- A word is not empty and holds no blank. -/
theorem mem_words {w : Text} (h : w ∈ words s) : w ≠ [] ∧ ∀ c ∈ w, isBlank c = false := by
  obtain ⟨hrun, hrest⟩ := splitRuns_spec s
  rcases mem_consRun h with ⟨rfl, hne⟩ | h
  · exact ⟨hne, hrun⟩
  · exact hrest w h

/-- A text without blanks is one run. -/
theorem splitRuns_of_no_blank (h : ∀ c ∈ s, isBlank c = false) : splitRuns s = (s, []) := by
  induction s with
  | nil => rfl
  | cons c s ih =>
    rw [splitRuns, ih fun d hd => h d (List.mem_cons_of_mem _ hd)]
    simp [h c List.mem_cons_self]

/-- A text without blanks that is not empty is one word. -/
theorem words_of_no_blank (hne : s ≠ []) (h : ∀ c ∈ s, isBlank c = false) : words s = [s] := by
  simp [words, splitRuns_of_no_blank h, consRun, hne]

/-- A visible character in front lengthens the first word where it touches one, and is a word of
its own elsewhere. -/
theorem length_words_cons (hc : isBlank c = false) (s : Text) :
    (words (c :: s)).length = (words s).length + if s.head?.all isBlank then 1 else 0 := by
  have hcons : splitRuns (c :: s) = (c :: (splitRuns s).1, (splitRuns s).2) := by
    rw [splitRuns]
    simp [hc]
  rw [words_eq_consRun, words_eq_consRun, hcons]
  cases s with
  | nil => rfl
  | cons d s =>
    rw [splitRuns]
    cases hd : isBlank d with
    | false => simp [consRun, hd]
    | true => simp [consRun, hd]

/-- Where two texts touch without a blank, a word of each becomes one. -/
theorem length_words_append (hs : s ≠ []) (ht : t ≠ []) (hend : endsBlank s = false)
    (hstart : startsBlank t = false) :
    (words (s ++ t)).length + 1 = (words s).length + (words t).length := by
  induction s with
  | nil => exact absurd rfl hs
  | cons c s ih =>
    cases s with
    | nil =>
      have hc : isBlank c = false := hend
      rw [List.singleton_append, length_words_cons hc, length_words_cons hc]
      cases t with
      | nil => exact absurd rfl ht
      | cons d t =>
        have hd : isBlank d = false := hstart
        simp [hd]
        omega
    | cons d s =>
      rw [endsBlank_cons_cons] at hend
      have ih := ih (by simp) hend
      cases hc : isBlank c with
      | true => rw [List.cons_append, words_cons_blank hc, words_cons_blank hc, ih]
      | false =>
        have hhead : (d :: s ++ t).head? = (d :: s).head? := rfl
        rw [List.cons_append, length_words_cons hc, length_words_cons hc, hhead]
        omega

/-! ## Collapsing -/

/-- One space between words, written from the left. -/
theorem intercalate_cons (w : Text) (ws : List Text) :
    [CodePoint.char ' '].intercalate (w :: ws) = w ++ ws.flatMap (.char ' ' :: ·) := by
  induction ws generalizing w with
  | nil => simp
  | cons v ws ih => rw [List.intercalate_cons_cons, ih]; simp

/-- Words written with a space between them are read back. -/
theorem words_intercalate {ws : List Text}
    (h : ∀ w ∈ ws, w ≠ [] ∧ ∀ c ∈ w, isBlank c = false) :
    words ([.char ' '].intercalate ws) = ws := by
  induction ws with
  | nil => rfl
  | cons w ws ih =>
    obtain ⟨hne, hw⟩ := h w List.mem_cons_self
    have ih := ih fun v hv => h v (List.mem_cons_of_mem _ hv)
    cases ws with
    | nil => rw [List.intercalate_singleton, words_of_no_blank hne hw]
    | cons v ws =>
      rw [List.intercalate_cons_cons, List.append_assoc, List.singleton_append,
        words_append_blank isBlank_space, ih, words_of_no_blank hne hw]
      rfl

/-- Collapsing keeps the words. -/
@[simp] theorem words_collapse (s : Text) : words (collapse s) = words s :=
  words_intercalate fun _ hw => mem_words hw

/-- Collapsing takes away nothing visible. -/
@[simp] theorem visible_collapse (s : Text) : visible (collapse s) = visible s := by
  rw [← flatten_words, words_collapse, flatten_words]

/-- **Texts collapse alike exactly if they have the same words.** -/
theorem collapse_eq_collapse_iff : collapse s = collapse t ↔ words s = words t := by
  constructor
  · intro h
    rw [← words_collapse, h, words_collapse]
  · intro h
    rw [collapse, h, collapse]

@[simp] theorem collapse_collapse (s : Text) : collapse (collapse s) = collapse s :=
  collapse_eq_collapse_iff.2 (words_collapse s)

@[simp] theorem collapse_trim (s : Text) : collapse (trim s) = collapse s :=
  collapse_eq_collapse_iff.2 (words_trim s)

/-! ## Squashing -/

/-- **Squashing** writes one space for each run of blanks, those at the two ends included. -/
def squash : Text → Text
  | [] => []
  | c :: s =>
    if isBlank c then if startsBlank s then squash s else .char ' ' :: squash s
    else c :: squash s

@[simp] theorem squash_nil : squash [] = [] := rfl

theorem squash_cons_visible (hc : isBlank c = false) (s : Text) :
    squash (c :: s) = c :: squash s := by
  rw [squash, if_neg (by rw [hc]; exact Bool.false_ne_true)]

theorem squash_cons_blank (hc : isBlank c = true) (hs : startsBlank s = false) :
    squash (c :: s) = .char ' ' :: squash s := by
  rw [squash, if_pos hc, if_neg (by rw [hs]; exact Bool.false_ne_true)]

theorem squash_cons_blank_blank (hc : isBlank c = true) (hs : startsBlank s = true) :
    squash (c :: s) = squash s := by
  rw [squash, if_pos hc, if_pos hs]

@[simp] theorem startsBlank_squash (s : Text) : startsBlank (squash s) = startsBlank s := by
  induction s with
  | nil => rfl
  | cons c s ih =>
    cases hc : isBlank c with
    | false => rw [squash_cons_visible hc]; rfl
    | true =>
      cases hs : startsBlank s with
      | false => rw [squash_cons_blank hc hs, startsBlank_cons, startsBlank_cons, hc]; rfl
      | true => rw [squash_cons_blank_blank hc hs, ih, hs, startsBlank_cons, hc]

theorem squash_eq_nil_iff : squash s = [] ↔ s = [] := by
  induction s with
  | nil => simp
  | cons c s ih =>
    rw [squash]
    split
    · split
      · next hs =>
        have hne : s ≠ [] := by
          rintro rfl
          exact absurd hs (by decide)
        simp [ih, hne]
      · simp
    · simp

@[simp] theorem endsBlank_squash (s : Text) : endsBlank (squash s) = endsBlank s := by
  induction s with
  | nil => rfl
  | cons c s ih =>
    cases s with
    | nil =>
      cases hc : isBlank c with
      | false => rw [squash_cons_visible hc]; rfl
      | true =>
        rw [squash_cons_blank hc startsBlank_nil]
        exact hc.symm
    | cons d s =>
      have hne : squash (d :: s) ≠ [] := fun h => absurd (squash_eq_nil_iff.1 h) (by simp)
      have hcons (x : CodePoint) : endsBlank (x :: squash (d :: s)) = endsBlank (d :: s) := by
        rw [← ih, ← List.singleton_append, endsBlank_append hne]
      rw [endsBlank_cons_cons, squash]
      split
      · split
        · exact ih
        · exact hcons _
      · exact hcons _

/-- Squashing keeps the first character unless it is a blank. -/
theorem head?_squash_eq_some_iff (hc : isBlank c = false) :
    (squash s).head? = some c ↔ s.head? = some c := by
  cases s with
  | nil => simp
  | cons d s =>
    cases hd : isBlank d with
    | false => rw [squash_cons_visible hd]; rfl
    | true =>
      constructor
      · intro h
        have hstart : startsBlank (squash (d :: s)) = true := by
          rw [startsBlank_squash, startsBlank_cons, hd]
        rw [startsBlank, h, Option.any_some, hc] at hstart
        exact absurd hstart Bool.false_ne_true
      · rintro ⟨rfl⟩
        rw [hc] at hd
        exact absurd hd Bool.false_ne_true

/-- Squashing takes away nothing visible. -/
@[simp] theorem visible_squash (s : Text) : visible (squash s) = visible s := by
  induction s with
  | nil => rfl
  | cons c s ih =>
    cases hc : isBlank c with
    | false => rw [squash_cons_visible hc, visible_cons, visible_cons, ih]
    | true =>
      cases hs : startsBlank s with
      | false =>
        rw [squash_cons_blank hc hs, visible_cons_blank isBlank_space, visible_cons_blank hc, ih]
      | true => rw [squash_cons_blank_blank hc hs, visible_cons_blank hc, ih]

/-- Squashing keeps the runs. -/
theorem splitRuns_squash (s : Text) : splitRuns (squash s) = splitRuns s := by
  induction s with
  | nil => rfl
  | cons c s ih =>
    cases hc : isBlank c with
    | false => rw [squash_cons_visible hc, splitRuns, splitRuns, ih]
    | true =>
      cases hs : startsBlank s with
      | false =>
        rw [squash_cons_blank hc hs, splitRuns, splitRuns, ih, hc]
        rfl
      | true =>
        rw [squash_cons_blank_blank hc hs, ih]
        cases s with
        | nil => exact absurd hs Bool.false_ne_true
        | cons d s =>
          have hd : isBlank d = true := hs
          simp [splitRuns, hc, hd, consRun]

/-- Squashing keeps the words. -/
@[simp] theorem words_squash (s : Text) : words (squash s) = words s := by
  rw [words_eq_consRun, splitRuns_squash, ← words_eq_consRun]

/-- Squashing goes part by part where the second part does not begin with a blank. -/
theorem squash_append (ht : startsBlank t = false) (s : Text) :
    squash (s ++ t) = squash s ++ squash t := by
  induction s with
  | nil => rfl
  | cons c s ih =>
    have hst : startsBlank (s ++ t) = startsBlank s := by
      cases s with
      | nil => exact ht
      | cons d s => rfl
    rw [List.cons_append, squash, squash, hst, ih]
    split
    · split <;> rfl
    · rfl

/-- Squashing goes part by part where the first part does not end with a blank. -/
theorem squash_append_of_endsBlank (hs : endsBlank s = false) (t : Text) :
    squash (s ++ t) = squash s ++ squash t := by
  induction s with
  | nil => rfl
  | cons c s ih =>
    cases s with
    | nil =>
      have hc : isBlank c = false := hs
      rw [List.singleton_append, squash_cons_visible hc, squash_cons_visible hc]
      rfl
    | cons d s =>
      rw [endsBlank_cons_cons] at hs
      have hst : startsBlank (d :: s ++ t) = startsBlank (d :: s) := rfl
      rw [List.cons_append, squash, squash, hst, ih hs]
      split
      · split <;> rfl
      · rfl

/-- Squashing never makes a text longer. -/
theorem length_squash_le (s : Text) : (squash s).length ≤ s.length := by
  induction s with
  | nil => exact Nat.le_refl _
  | cons c s ih =>
    rw [squash]
    split
    · split
      · exact Nat.le_succ_of_le ih
      · exact Nat.succ_le_succ ih
    · exact Nat.succ_le_succ ih

/-- A squashed text stays squashed without its first character, which is a space with no blank
behind it if it is blank at all. -/
theorem squash_cons_eq_self (h : squash (c :: s) = c :: s) :
    squash s = s ∧ (isBlank c = true → c = .char ' ' ∧ startsBlank s = false) := by
  rw [squash] at h
  split at h
  · split at h
    · -- Two blanks in a row would have been shortened.
      have hlen := length_squash_le s
      rw [h, List.length_cons] at hlen
      omega
    · next hs =>
      obtain ⟨rfl, hsquash⟩ := List.cons.inj h
      exact ⟨hsquash, fun _ => ⟨rfl, eq_false_of_ne_true hs⟩⟩
  · next hc => exact ⟨(List.cons.inj h).2, fun hc' => absurd hc' hc⟩

/-- Any end of a squashed text is squashed. -/
theorem squash_right_eq_self (h : squash (s ++ t) = s ++ t) : squash t = t := by
  induction s with
  | nil => exact h
  | cons c s ih => exact ih (squash_cons_eq_self h).1

/-- Any start of a squashed text is squashed. -/
theorem squash_left_eq_self (h : squash (s ++ t) = s ++ t) : squash s = s := by
  induction s with
  | nil => rfl
  | cons c s ih =>
    obtain ⟨hst, hblank⟩ := squash_cons_eq_self h
    cases hc : isBlank c with
    | false => rw [squash_cons_visible hc, ih hst]
    | true =>
      obtain ⟨rfl, hstart⟩ := hblank hc
      have hs : startsBlank s = false := by
        cases s with
        | nil => rfl
        | cons d s => exact hstart
      rw [squash_cons_blank hc hs, ih hst]

@[simp] theorem squash_squash (s : Text) : squash (squash s) = squash s := by
  induction s with
  | nil => rfl
  | cons c s ih =>
    cases hc : isBlank c with
    | false => rw [squash_cons_visible hc, squash_cons_visible hc, ih]
    | true =>
      cases hs : startsBlank s with
      | false =>
        rw [squash_cons_blank hc hs, squash_cons_blank isBlank_space (by rwa [startsBlank_squash]),
          ih]
      | true => rw [squash_cons_blank_blank hc hs, ih]

/-- A blank text squashes to one space. -/
theorem squash_of_allBlank (hb : allBlank b = true) (hne : b ≠ []) : squash b = [.char ' '] := by
  induction b with
  | nil => exact absurd rfl hne
  | cons c b ih =>
    obtain ⟨hc, hb⟩ := Bool.and_eq_true_iff.1 hb
    by_cases hnil : b = []
    · subst hnil
      rw [squash_cons_blank hc startsBlank_nil, squash_nil]
    · rw [squash_cons_blank_blank hc (startsBlank_of_allBlank hb hnil), ih hb hnil]

/-- A text that ends with no blank squashes to its runs with a space before each but the first. -/
theorem squash_eq_runs (hend : endsBlank s = false) :
    squash s = (splitRuns s).1 ++ (splitRuns s).2.flatMap (.char ' ' :: ·) := by
  induction s with
  | nil => rfl
  | cons c s ih =>
    by_cases hc : isBlank c = true
    · obtain ⟨d, r, rfl⟩ : ∃ d r, s = d :: r := by
        cases s with
        | nil => exact absurd hc (by simpa [endsBlank] using hend)
        | cons d r => exact ⟨d, r, rfl⟩
      rw [endsBlank_cons_cons] at hend
      have hrun : splitRuns (c :: d :: r) = ([], words (d :: r)) := by
        rw [splitRuns]
        simp only [hc, if_true]
        rfl
      rw [hrun, squash, if_pos hc, ih hend, words_eq_consRun, splitRuns, startsBlank_cons]
      -- The run that touches the start is empty exactly if another blank follows.
      cases hd : isBlank d with
      | false => simp [consRun]
      | true => simp [consRun]
    · have hs : endsBlank s = false := by
        cases s with
        | nil => rfl
        | cons d r => rwa [endsBlank_cons_cons] at hend
      rw [squash, if_neg hc, ih hs, splitRuns]
      simp [hc]

/-- **Collapsing a trimmed text is squashing it.** -/
theorem collapse_eq_squash (hstart : startsBlank s = false) (hend : endsBlank s = false) :
    collapse s = squash s := by
  cases s with
  | nil => rfl
  | cons c s =>
    have hc : isBlank c = false := hstart
    have hrun : splitRuns (c :: s) = (c :: (splitRuns s).1, (splitRuns s).2) := by
      rw [splitRuns]
      simp [hc]
    rw [squash_eq_runs hend, collapse, words_eq_consRun, hrun, ← intercalate_cons]
    rfl

/-- Collapsing is trimming and squashing. -/
theorem collapse_eq_squash_trim (s : Text) : collapse s = squash (trim s) := by
  rw [← collapse_trim, collapse_eq_squash (startsBlank_trim s) (endsBlank_trim s)]

/-- A text with blanks at both ends squashes to its collapsed form between two spaces. -/
theorem squash_pad (hstart : startsBlank s = true) (hend : endsBlank s = true) :
    squash (.char ' ' :: collapse s ++ [.char ' ']) = squash s := by
  obtain ⟨b, b', hb, hb', hs⟩ := exists_trim s
  have hcollapse := collapse_eq_squash_trim s
  by_cases hne : trim s = []
  · -- Nothing is visible, and both sides are one space.
    have hall := trim_eq_nil_iff.1 hne
    have hs' : s ≠ [] := by
      rintro rfl
      exact absurd hstart (by decide)
    rw [squash_of_allBlank hall hs', hcollapse, hne]
    rfl
  · have hbne : b ≠ [] := by
      rintro rfl
      rw [hs, List.nil_append, startsBlank_append hne, startsBlank_trim] at hstart
      exact absurd hstart Bool.false_ne_true
    have hbne' : b' ≠ [] := by
      rintro rfl
      rw [hs, List.append_nil, endsBlank_append hne, endsBlank_trim] at hend
      exact absurd hend Bool.false_ne_true
    -- Squashing goes through the three parts, on either side of the equation.
    have hparts (x y : Text) (hx : squash x = [.char ' ']) (hy : squash y = [.char ' ']) :
        squash (x ++ trim s ++ y) = .char ' ' :: squash (trim s) ++ [.char ' '] := by
      have hend' : endsBlank (x ++ trim s) = false := by
        rw [endsBlank_append hne, endsBlank_trim]
      rw [squash_append_of_endsBlank hend', squash_append (startsBlank_trim s), hx, hy,
        List.singleton_append]
    have hlast : endsBlank (.char ' ' :: squash (trim s)) = false := by
      rw [← List.singleton_append, endsBlank_append (by rwa [ne_eq, squash_eq_nil_iff]),
        endsBlank_squash, endsBlank_trim]
    conv => rhs; rw [hs]
    rw [hparts b b' (squash_of_allBlank hb hbne) (squash_of_allBlank hb' hbne'), hcollapse,
      squash_append_of_endsBlank hlast, squash_cons_blank isBlank_space (by simp), squash_squash]
    rfl

/-- **When a gap shows.** Two texts with the same words, behind a text that ends with no blank, give
the same words exactly if they have no words or both begin with a blank or neither does. -/
theorem words_append_congr {a : Text} (ha : a ≠ []) (hend : endsBlank a = false)
    (hst : words s = words t) :
    words (a ++ s) = words (a ++ t) ↔ words s = [] ∨ startsBlank s = startsBlank t := by
  -- Behind a blank the words of both parts stand side by side.
  have hblank (x : Text) (hx : startsBlank x = true) : words (a ++ x) = words a ++ words x := by
    cases x with
    | nil => exact absurd hx Bool.false_ne_true
    | cons c x => rw [words_append_blank hx, words_cons_blank hx]
  -- Without one a word of each becomes one, so there is one word less.
  have htouch (x : Text) (hx : startsBlank x = false) (hne : words x ≠ []) :
      (words (a ++ x)).length + 1 = (words a).length + (words x).length :=
    length_words_append ha (by rintro rfl; exact hne rfl) hend hx
  constructor
  · intro h
    by_cases hnil : words s = []
    · exact .inl hnil
    · right
      have hlen := congrArg List.length h
      have hlen' := congrArg List.length hst
      have hnil' : words t ≠ [] := by rwa [← hst]
      cases hs : startsBlank s <;> cases ht : startsBlank t
      · rfl
      · have := htouch s hs hnil
        rw [hblank t ht, List.length_append] at hlen
        omega
      · have := htouch t ht hnil'
        rw [hblank s hs, List.length_append] at hlen
        omega
      · rfl
  · rintro (hnil | hstart)
    · have hall (x : Text) (hx : words x = []) : allBlank x = true := by
        rw [← visible_eq_nil_iff, ← flatten_words, hx]
        rfl
      rw [words_append_right (hall s hnil), words_append_right (hall t (hst ▸ hnil))]
    · cases hs : startsBlank s with
      | true => rw [hblank s hs, hblank t (hstart ▸ hs), hst]
      | false =>
        -- Both squash to the same text, but for a space at the end.
        have hsquash (x : Text) (hx : startsBlank x = false) :
            words (a ++ x) = words (squash a ++ collapse x) := by
          have htrim : trim x = trimRight x := by rw [trim, trimLeft_eq_self hx]
          obtain ⟨b, hb, hxb, -⟩ := exists_trimRight x
          conv => lhs; rw [hxb]
          rw [← List.append_assoc, words_append_right hb, ← htrim, collapse_eq_squash_trim,
            ← squash_append (startsBlank_trim x), words_squash]
        rw [hsquash s hs, hsquash t (hstart ▸ hs), collapse_eq_collapse_iff.2 hst]

end TemplateLayout.Text
