import TemplateLayout.Layout.Tag
import TemplateLayout.Proofs.Blank

/-! # Attributes from their text
A name ends where no code point of a name follows, and then it is clear whether a value comes. A
value is written as it stands, quotes included, so it is not always clear where one ends: a quote in
a value, with lines behind it that read like attributes, may as well be its end. Lists in which no
value is like that are determined by their text, and every text of a list is the text of one of
them.

* `Attribute.isName` — the names considered here;
* `Attribute.below` — attributes on lines of their own below another line;
* `Attribute.HoldsAttributes` — a quote in a value, and lines behind it that read like attributes;
* `Attribute.Clear` — lists whose values all end where they seem to;
* `Attribute.below_inj` — lines of attributes with clear values determine them;
* `Attribute.exists_clearValues` — values that are not clear, cut short until they are;
* `Attribute.clear_determined` — each text of a list is the text of exactly one clear list;
* `Attribute.same_text` — two lists with one text.
-/

namespace TemplateLayout.Attribute

open Text

attribute [ext] Attribute

variable {indent s d r : Text} {a b : Attribute} {as bs : List Attribute}

/-! ## Names -/

/-- The code points of a name: no blank, no equals sign and no quote. -/
def isNamePoint (c : CodePoint) : Bool :=
  !isBlank c && c != .char '=' && c != .char '"' && c != .char '\''

/-- Whether a text is a **name**: not empty, and without blanks, equals signs and quotes. -/
def isName (s : Text) : Bool := !s.isEmpty && s.all isNamePoint

theorem isNamePoint_of_mem {c : CodePoint} (hs : isName s = true) (hc : c ∈ s) :
    isNamePoint c = true :=
  List.all_eq_true.1 (Bool.and_eq_true_iff.1 hs).2 c hc

theorem ne_nil_of_isName (hs : isName s = true) : s ≠ [] := by
  rintro rfl
  exact absurd hs (by decide)

/-- **A name ends where no code point of a name follows.** -/
theorem name_append_inj {n m x y : Text} (hn : isName n = true) (hm : isName m = true)
    (hx : x.head?.all (!isNamePoint ·) = true) (hy : y.head?.all (!isNamePoint ·) = true)
    (h : n ++ x = m ++ y) : n = m ∧ x = y :=
  run_append_inj (fun _ hc => isNamePoint_of_mem hn hc) (fun _ hc => isNamePoint_of_mem hm hc)
    hx hy h

/-! ## Attributes below a line -/

/-- What is written behind a name. -/
def writeValue : Option Text → Text
  | none => []
  | some u => .char '=' :: .char '"' :: (u ++ [.char '"'])

theorem write_eq (a : Attribute) : a.write = a.name ++ writeValue a.value := by
  unfold write writeValue
  cases a.value with
  | none => simp
  | some u => simp

/-- Attributes on **lines of their own**, each behind a line feed and the indent. -/
def below (indent : Text) (as : List Attribute) : Text :=
  as.flatMap fun a => .char '\n' :: (indent ++ a.write)

theorem below_cons (indent : Text) (a : Attribute) (as : List Attribute) :
    below indent (a :: as) =
      .char '\n' :: (indent ++ (a.name ++ (writeValue a.value ++ below indent as))) := by
  rw [below, List.flatMap_cons, write_eq, ← below]
  simp

theorem below_append (indent : Text) (as bs : List Attribute) :
    below indent (as ++ bs) = below indent as ++ below indent bs :=
  List.flatMap_append

theorem below_eq_nil_iff (indent : Text) (as : List Attribute) :
    below indent as = [] ↔ as = [] := by
  cases as with
  | nil => simp [below]
  | cons a as => simp [below_cons]

/-- An attribute without a value. -/
def bare (name : Text) : Attribute := ⟨name, none⟩

/-- Neither an indent nor a name has a quote in it. -/
theorem quote_notMem_line (hindent : allBlank indent = true) (ha : isName a.name = true) :
    .char '"' ∉ .char '\n' :: (indent ++ a.name) := by
  rw [List.mem_cons, List.mem_append]
  rintro (h | h | h)
  · exact absurd h (by decide)
  · exact absurd (List.all_eq_true.1 hindent _ h) (by decide)
  · exact absurd (isNamePoint_of_mem ha h) (by decide)

/-- A quote in lines of attributes shows that one of them has a value. -/
theorem exists_value_of_quote_mem (hindent : allBlank indent = true)
    (has : ∀ a ∈ as, isName a.name = true) (h : .char '"' ∈ below indent as) :
    ∃ a ∈ as, ∃ u, a.value = some u := by
  obtain ⟨a, ha, hquote⟩ := List.mem_flatMap.1 h
  refine ⟨a, ha, Option.ne_none_iff_exists'.1 fun hnone => ?_⟩
  rw [write_eq, hnone, writeValue, List.append_nil] at hquote
  exact quote_notMem_line hindent (has a ha) hquote

/-- Where a text without quotes stands first, a quote is behind it. -/
theorem exists_append_of_quote_notMem {l t : Text} (hl : .char '"' ∉ l) (h : l ++ t = d ++ r)
    (hd : .char '"' ∈ d) : ∃ c, d = l ++ c ∧ t = c ++ r ∧ .char '"' ∈ c := by
  rcases List.append_eq_append_iff.1 h with ⟨c, rfl, hc⟩ | ⟨c, rfl, -⟩
  · exact ⟨c, rfl, hc, (List.mem_append.1 hd).resolve_left hl⟩
  · exact absurd (List.mem_append_left c hd) hl

/-- Lines with a name each, the last of which begins a value that goes on with `q`. -/
def beginValue (indent : Text) (names : List Text) (m q : Text) : Text :=
  below indent (names.map bare) ++
    .char '\n' :: (indent ++ (m ++ .char '=' :: .char '"' :: q))

theorem beginValue_cons (indent n : Text) (names : List Text) (m q : Text) :
    beginValue indent (n :: names) m q =
      (.char '\n' :: (indent ++ n)) ++ beginValue indent names m q := by
  rw [beginValue, beginValue, List.map_cons, below_cons]
  simp [bare, writeValue]

theorem below_bare_append (indent : Text) (names : List Text) (m w : Text)
    (as : List Attribute) :
    below indent (names.map bare ++ ⟨m, some w⟩ :: as) =
      beginValue indent names m (w ++ .char '"' :: below indent as) := by
  rw [below_append, below_cons, beginValue]
  simp [writeValue]

/-- **The first quote in lines of attributes** begins a value, and it is not the last one. -/
theorem exists_beginValue_of_below (hindent : allBlank indent = true)
    (has : ∀ a ∈ as, isName a.name = true) (h : below indent as = d ++ r) (hd : .char '"' ∈ d) :
    ∃ names m q, (∀ n ∈ names, isName n = true) ∧ isName m = true ∧
      d = beginValue indent names m q ∧ .char '"' ∈ q ++ r := by
  induction as generalizing d with
  | nil =>
    have hnil : d = [] := (List.append_eq_nil_iff.1 h.symm).1
    rw [hnil] at hd
    exact absurd hd List.not_mem_nil
  | cons a as ih =>
    obtain ⟨ha, htail⟩ := List.forall_mem_cons.1 has
    rw [below_cons, ← List.append_assoc, ← List.cons_append] at h
    obtain ⟨c, rfl, hc, hquote⟩ :=
      exists_append_of_quote_notMem (quote_notMem_line hindent ha) h hd
    cases hvalue : a.value with
    | none =>
      rw [hvalue, writeValue, List.nil_append] at hc
      obtain ⟨names, m, q, hnames, hm, rfl, hq⟩ := ih htail hc hquote
      refine ⟨a.name :: names, m, q, List.forall_mem_cons.2 ⟨ha, hnames⟩, hm, ?_, hq⟩
      rw [beginValue_cons]
    | some v =>
      have hc' : [.char '='] ++ .char '"' :: (v ++ .char '"' :: below indent as) = c ++ r := by
        rw [← hc, hvalue]
        simp [writeValue]
      obtain ⟨c', rfl, hq, hquote'⟩ := exists_append_of_quote_notMem (by decide) hc' hquote
      cases c' with
      | nil => exact absurd hquote' List.not_mem_nil
      | cons e q =>
        rw [List.cons_append, List.cons.injEq] at hq
        obtain ⟨rfl, hrest⟩ := hq
        refine ⟨[], a.name, q, by simp, ha, ?_, ?_⟩
        · simp [beginValue, below]
        · exact hrest ▸ List.mem_append_right v List.mem_cons_self

/-! ## Clear lists -/

/-- A value **holds attributes** in disguise: behind a quote in it there are one or more lines with
a name each, and the last name begins a value. It may be the quote at the end of the value itself
that begins it, if there is another value below to end it. -/
def HoldsAttributes (indent u : Text) (as : List Attribute) : Prop :=
  ∃ p names m q, (∀ n ∈ names, isName n = true) ∧ isName m = true ∧
    u ++ [.char '"'] = p ++ .char '"' :: beginValue indent names m q ∧
    (q = [] → ∃ a ∈ as, ∃ v, a.value = some v)

/-- Attributes whose values end where they seem to. -/
def ClearValues (indent : Text) : List Attribute → Prop
  | [] => True
  | a :: as => (∀ u, a.value = some u → ¬ HoldsAttributes indent u as) ∧ ClearValues indent as

/-- **Clear** lists of attributes: no value holds attributes, or there is one attribute only and its
place shows that there is no other. -/
def Clear (indent : Text) (as : List Attribute) : Prop :=
  ClearValues indent as ∨ (as.length = 1 ∧ indent ≠ [])

/-- A value without quotes holds no attributes. -/
theorem not_holdsAttributes {u : Text} (hu : .char '"' ∉ u) : ¬ HoldsAttributes indent u as := by
  rintro ⟨p, names, m, q, -, -, heq, -⟩
  have hne : beginValue indent names m q ≠ [] := by simp [beginValue]
  obtain ⟨t, e, ht⟩ := (List.eq_nil_or_concat _).resolve_left hne
  rw [ht, List.concat_eq_append, ← List.cons_append, ← List.append_assoc] at heq
  rw [List.append_inj_left' heq rfl] at hu
  exact hu (List.mem_append_right p List.mem_cons_self)

/-- **Attributes whose values have no quote in them are clear.** -/
theorem clearValues_of_quote_notMem (h : ∀ a ∈ as, ∀ u, a.value = some u → .char '"' ∉ u) :
    ClearValues indent as := by
  induction as with
  | nil => trivial
  | cons a as ih =>
    obtain ⟨ha, has⟩ := List.forall_mem_cons.1 h
    exact ⟨fun u hu => not_holdsAttributes (ha u hu), ih has⟩

/-- A value that reaches into the lines below another one holds attributes. -/
theorem holdsAttributes_of_below {u : Text} (hindent : allBlank indent = true)
    (has : ∀ a ∈ as, isName a.name = true) (hbs : ∀ b ∈ bs, isName b.name = true)
    (h : below indent as = d ++ .char '"' :: below indent bs) :
    HoldsAttributes indent (u ++ .char '"' :: d) bs := by
  rw [List.append_cons] at h
  obtain ⟨names, m, q, hnames, hm, hd, hq⟩ :=
    exists_beginValue_of_below hindent has h (List.mem_append_right d List.mem_cons_self)
  refine ⟨u, names, m, q, hnames, hm, ?_, ?_⟩
  · rw [← hd, List.append_assoc, List.cons_append]
  · rintro rfl
    exact exists_value_of_quote_mem hindent hbs hq

/-- **A value ends where the lines below it begin**, unless it holds attributes. -/
theorem value_append_inj {u v : Text} (hindent : allBlank indent = true)
    (has : ∀ a ∈ as, isName a.name = true) (hbs : ∀ b ∈ bs, isName b.name = true)
    (hu : ¬ HoldsAttributes indent u as) (hv : ¬ HoldsAttributes indent v bs)
    (h : u ++ .char '"' :: below indent as = v ++ .char '"' :: below indent bs) :
    u = v ∧ below indent as = below indent bs := by
  rcases List.append_eq_append_iff.1 h with ⟨c, rfl, hc⟩ | ⟨c, rfl, hc⟩
  · cases c with
    | nil => exact ⟨(List.append_nil u).symm, (List.cons.inj hc).2⟩
    | cons e d =>
      obtain ⟨rfl, hd⟩ := List.cons.inj hc
      exact absurd (holdsAttributes_of_below hindent has hbs hd) hv
  · cases c with
    | nil => exact ⟨List.append_nil v, (List.cons.inj hc).2.symm⟩
    | cons e d =>
      obtain ⟨rfl, hd⟩ := List.cons.inj hc
      exact absurd (holdsAttributes_of_below hindent hbs has hd) hu

/-- No line below begins like a value. -/
theorem below_ne_writeValue (as : List Attribute) (u t : Text) :
    below indent as ≠ writeValue (some u) ++ t := by
  cases as with
  | nil => exact (List.cons_ne_nil _ _).symm
  | cons a as =>
    rw [below_cons]
    exact fun h => absurd (List.cons.inj h).1 (by decide)

/-- Whether there is a value, and which, is clear from what stands behind a name. -/
theorem writeValue_append_inj {v w : Option Text} (hindent : allBlank indent = true)
    (has : ∀ a ∈ as, isName a.name = true) (hbs : ∀ b ∈ bs, isName b.name = true)
    (hv : ∀ u, v = some u → ¬ HoldsAttributes indent u as)
    (hw : ∀ u, w = some u → ¬ HoldsAttributes indent u bs)
    (h : writeValue v ++ below indent as = writeValue w ++ below indent bs) :
    v = w ∧ below indent as = below indent bs := by
  match v, w with
  | none, none => exact ⟨rfl, h⟩
  | none, some u => exact absurd h (below_ne_writeValue as u _)
  | some u, none => exact absurd h.symm (below_ne_writeValue bs u _)
  | some u, some u' =>
    obtain ⟨rfl, hbelow⟩ := value_append_inj hindent has hbs (hv u rfl) (hw u' rfl)
      (by simpa [writeValue] using h)
    exact ⟨rfl, hbelow⟩

/-- What stands behind a name does not go on with it. -/
theorem head?_writeValue_below (v : Option Text) (as : List Attribute) :
    (writeValue v ++ below indent as).head?.all (!isNamePoint ·) = true := by
  match v, as with
  | some u, as => rfl
  | none, [] => rfl
  | none, a :: as => rfl

/-- **Lines of attributes with clear values determine them.** -/
theorem below_inj (hindent : allBlank indent = true) (has : ∀ a ∈ as, isName a.name = true)
    (hbs : ∀ b ∈ bs, isName b.name = true) (hcas : ClearValues indent as)
    (hcbs : ClearValues indent bs) (h : below indent as = below indent bs) : as = bs := by
  induction as generalizing bs with
  | nil =>
    cases bs with
    | nil => rfl
    | cons b bs => exact absurd h (List.cons_ne_nil _ _).symm
  | cons a as ih =>
    cases bs with
    | nil => exact absurd h (List.cons_ne_nil _ _)
    | cons b bs =>
      obtain ⟨ha, has'⟩ := List.forall_mem_cons.1 has
      obtain ⟨hb, hbs'⟩ := List.forall_mem_cons.1 hbs
      rw [below_cons, below_cons, List.cons.injEq, List.append_cancel_left_eq] at h
      obtain ⟨hname, htail⟩ :=
        name_append_inj ha hb (head?_writeValue_below _ _) (head?_writeValue_below _ _) h.2
      obtain ⟨hvalue, hbelow⟩ := writeValue_append_inj hindent has' hbs' hcas.1 hcbs.1 htail
      exact List.cons_eq_cons.2 ⟨Attribute.ext hname hvalue, ih has' hbs' hcas.2 hcbs.2 hbelow⟩

/-! ## Values cut short -/

/-- Behind the quote that begins a value there is one that may end it. -/
theorem exists_value_end (indent : Text) {q u x : Text} (hu : u ++ [.char '"'] = x ++ q)
    (hq : q = [] → ∃ a ∈ as, ∃ v, a.value = some v) :
    ∃ w bs, q ++ below indent as = w ++ .char '"' :: below indent bs ∧ ∀ b ∈ bs, b ∈ as := by
  rcases List.eq_nil_or_concat q with rfl | ⟨w, e, rfl⟩
  · -- the quote was the last one of its value, so the next value ends this one
    obtain ⟨a, ha, v, hv⟩ := hq rfl
    obtain ⟨xs, bs, rfl⟩ := List.append_of_mem ha
    refine ⟨below indent xs ++ .char '\n' ::
      (indent ++ (a.name ++ .char '=' :: .char '"' :: v)), bs, ?_, ?_⟩
    · rw [below_append, below_cons, hv]
      simp [writeValue]
    · intro b hb
      exact List.mem_append_right xs (List.mem_cons_of_mem a hb)
  · rw [List.concat_eq_append, ← List.append_assoc] at hu
    have he : [.char '"'] = [e] := List.append_inj_right' hu rfl
    refine ⟨w, as, ?_, fun b hb => hb⟩
    rw [← (List.cons.inj he).1, List.concat_eq_append, List.append_assoc, List.singleton_append]

/-- **A value that holds attributes** may as well end at the quote before them. -/
theorem exists_shorter_value {u : Text} (has : ∀ a ∈ as, isName a.name = true)
    (h : HoldsAttributes indent u as) :
    ∃ v bs, v.length < u.length ∧ bs ≠ [] ∧ (∀ b ∈ bs, isName b.name = true) ∧
      v ++ .char '"' :: below indent bs = u ++ .char '"' :: below indent as := by
  obtain ⟨v, names, m, q, hnames, hm, hu, hq⟩ := h
  have hsplit : u ++ [.char '"'] = v ++ .char '"' :: beginValue indent names m [] ++ q := by
    rw [hu]
    simp [beginValue]
  obtain ⟨w, bs, hw, hbs⟩ := exists_value_end indent hsplit hq
  refine ⟨v, names.map bare ++ ⟨m, some w⟩ :: bs, ?_, ?_, ?_, ?_⟩
  · have hlength := congrArg List.length hu
    simp only [beginValue, List.length_append, List.length_cons, List.length_nil] at hlength
    omega
  · exact List.append_ne_nil_of_right_ne_nil _ (List.cons_ne_nil _ _)
  · intro b hb
    rcases List.mem_append.1 hb with hb | hb
    · obtain ⟨n, hn, rfl⟩ := List.mem_map.1 hb
      exact hnames n hn
    · rcases List.mem_cons.1 hb with rfl | hb
      · exact hm
      · exact has b (hbs b hb)
  · rw [below_bare_append, List.append_cons u, hsplit, List.append_assoc, hw]
    simp [beginValue]

/-- The first value of some lines, ended at the first quote that may end it. -/
theorem exists_first_value (indent : Text) (has : ∀ a ∈ as, isName a.name = true)
    (v : Option Text) :
    ∃ w bs, (∀ u, w = some u → ¬ HoldsAttributes indent u bs) ∧
      (∀ b ∈ bs, isName b.name = true) ∧ (as ≠ [] → bs ≠ []) ∧
      writeValue w ++ below indent bs = writeValue v ++ below indent as := by
  cases v with
  | none => exact ⟨none, as, by simp, has, id, rfl⟩
  | some u =>
    induction hk : u.length using Nat.strongRecOn generalizing u as with
    | ind k ih =>
      by_cases h : HoldsAttributes indent u as
      · obtain ⟨v, bs, hshorter, hne, hbs, hbelow⟩ := exists_shorter_value has h
        obtain ⟨w, cs, hw, hcs, hne', hwrite⟩ := ih v.length (hk ▸ hshorter) hbs v rfl
        refine ⟨w, cs, hw, hcs, fun _ => hne' hne, ?_⟩
        rw [hwrite]
        simp [writeValue, hbelow]
      · refine ⟨some u, as, ?_, has, id, rfl⟩
        intro u' hu'
        exact Option.some.inj hu' ▸ h

/-- Whether a value holds attributes is clear from the text below it. -/
theorem HoldsAttributes.of_below_eq {u : Text} (hindent : allBlank indent = true)
    (hbs : ∀ b ∈ bs, isName b.name = true) (hbelow : below indent as = below indent bs)
    (h : HoldsAttributes indent u as) : HoldsAttributes indent u bs := by
  obtain ⟨p, names, m, q, hnames, hm, hu, hq⟩ := h
  refine ⟨p, names, m, q, hnames, hm, hu, fun hnil => ?_⟩
  apply exists_value_of_quote_mem hindent hbs
  obtain ⟨a, ha, v, hv⟩ := hq hnil
  rw [← hbelow]
  refine List.mem_flatMap.2 ⟨a, ha, ?_⟩
  simp [write, hv]

/-- **Lines of attributes are those of attributes with clear values.** -/
theorem exists_clearValues (hindent : allBlank indent = true)
    (has : ∀ a ∈ as, isName a.name = true) :
    ∃ bs, (∀ b ∈ bs, isName b.name = true) ∧ ClearValues indent bs ∧
      (1 < as.length → 1 < bs.length) ∧ below indent bs = below indent as := by
  -- by induction on the text: the first value is cut short first, then the lines below it
  induction hk : (below indent as).length using Nat.strongRecOn generalizing as with
  | ind k ih =>
    cases as with
    | nil => exact ⟨[], has, trivial, id, rfl⟩
    | cons a as =>
      obtain ⟨ha, has'⟩ := List.forall_mem_cons.1 has
      obtain ⟨v, bs, hv, hbs, hne, hwrite⟩ := exists_first_value indent has' a.value
      have hsmall : (below indent bs).length < k := by
        rw [← hk, below_cons, ← hwrite]
        simp only [List.length_cons, List.length_append]
        omega
      obtain ⟨cs, hcs, hclear, -, hbelow⟩ := ih _ hsmall hbs rfl
      refine ⟨⟨a.name, v⟩ :: cs, List.forall_mem_cons.2 ⟨ha, hcs⟩, ⟨?_, hclear⟩, ?_, ?_⟩
      · intro u hu hholds
        exact hv u hu (hholds.of_below_eq hindent hbs hbelow)
      · intro hlength
        have hcsne : cs ≠ [] := by
          rw [Ne, ← below_eq_nil_iff indent, hbelow, below_eq_nil_iff]
          exact hne (List.ne_nil_of_length_pos (Nat.lt_of_succ_lt_succ hlength))
        exact Nat.succ_lt_succ (List.length_pos_iff.2 hcsne)
      · rw [below_cons, below_cons, hbelow, hwrite]

/-! ## The text of a list -/

/-- The text of a list in which each attribute has its place. -/
theorem lineFeed_writeAll (hne : as ≠ []) (hplace : ¬ (as.length = 1 ∧ indent ≠ [])) :
    .char '\n' :: writeAll as indent = below indent as := by
  match as with
  | [a] =>
    have hnil : indent = [] := by simpa using hplace
    rw [hnil, writeAll_singleton, below, List.flatMap_singleton, List.nil_append]
  | a :: b :: as =>
    rw [writeAll, List.map_cons, joinLines_cons, below, List.flatMap_cons, List.flatMap_map]
    · rfl
    · simp

/-- The text of one attribute determines it. -/
theorem write_inj (ha : isName a.name = true) (hb : isName b.name = true)
    (h : a.write = b.write) : a = b := by
  rw [write_eq, write_eq] at h
  have hhead (v : Option Text) : (writeValue v).head?.all (!isNamePoint ·) = true := by
    cases v with
    | none => rfl
    | some u => rfl
  obtain ⟨hname, htail⟩ := name_append_inj ha hb (hhead _) (hhead _) h
  have hvalue : a.value = b.value := by
    revert htail
    cases a.value <;> cases b.value <;> simp [writeValue]
  exact Attribute.ext hname hvalue

/-- No list of attributes but the empty one has an empty text. -/
theorem eq_nil_of_writeAll_eq_nil (has : ∀ a ∈ as, isName a.name = true)
    (h : writeAll as indent = []) : as = [] := by
  match as with
  | [] => rfl
  | [a] =>
    rw [writeAll_singleton, write_eq, List.append_eq_nil_iff] at h
    exact absurd h.1 (ne_nil_of_isName (has a List.mem_cons_self))
  | a :: b :: as => simp [writeAll] at h

/-- At an indent, one attribute alone begins with its name, and several with the indent. -/
theorem length_eq_one_iff (hindent : allBlank indent = true) (hne : indent ≠ [])
    (has : ∀ a ∈ as, isName a.name = true) :
    as.length = 1 ↔ (writeAll as indent).head?.any isNamePoint = true := by
  obtain ⟨c, t, rfl⟩ := List.exists_cons_of_ne_nil hne
  have hc : isNamePoint c = false := by
    have hblank := List.all_eq_true.1 hindent c List.mem_cons_self
    simp [isNamePoint, hblank]
  match as with
  | [] => simp [writeAll]
  | [a] =>
    have ha := has a List.mem_cons_self
    obtain ⟨e, n, hn⟩ := List.exists_cons_of_ne_nil (ne_nil_of_isName ha)
    have he := isNamePoint_of_mem ha (hn ▸ List.mem_cons_self)
    simp [write_eq, hn, he]
  | a :: b :: as => simp [writeAll, joinLines_cons, hc]

/-- Clear lists with one text are equal. -/
theorem writeAll_inj (hindent : allBlank indent = true) (has : ∀ a ∈ as, isName a.name = true)
    (hbs : ∀ b ∈ bs, isName b.name = true) (hcas : Clear indent as) (hcbs : Clear indent bs)
    (h : writeAll as indent = writeAll bs indent) : as = bs := by
  have hlength (hne : indent ≠ []) : as.length = 1 ↔ bs.length = 1 := by
    rw [length_eq_one_iff hindent hne has, length_eq_one_iff hindent hne hbs, h]
  by_cases hsingle : as.length = 1 ∧ indent ≠ []
  · obtain ⟨a, rfl⟩ := List.length_eq_one_iff.1 hsingle.1
    obtain ⟨b, rfl⟩ := List.length_eq_one_iff.1 ((hlength hsingle.2).1 hsingle.1)
    rw [write_inj (has a List.mem_cons_self) (hbs b List.mem_cons_self) h]
  · have hsingle' : ¬ (bs.length = 1 ∧ indent ≠ []) :=
      fun hs => hsingle ⟨(hlength hs.2).2 hs.1, hs.2⟩
    by_cases hnil : as = []
    · rw [hnil] at h ⊢
      exact (eq_nil_of_writeAll_eq_nil hbs h.symm).symm
    · have hnil' : bs ≠ [] := by
        rintro rfl
        exact hnil (eq_nil_of_writeAll_eq_nil has h)
      refine below_inj hindent has hbs (hcas.resolve_right hsingle) (hcbs.resolve_right hsingle') ?_
      rw [← lineFeed_writeAll hnil hsingle, ← lineFeed_writeAll hnil' hsingle', h]

/-- Every list has its text in common with a clear one. -/
theorem exists_clear_writeAll (hindent : allBlank indent = true)
    (has : ∀ a ∈ as, isName a.name = true) :
    ∃ bs, (∀ b ∈ bs, isName b.name = true) ∧ Clear indent bs ∧
      writeAll bs indent = writeAll as indent := by
  by_cases hsingle : as.length = 1 ∧ indent ≠ []
  · exact ⟨as, has, .inr hsingle, rfl⟩
  · by_cases hnil : as = []
    · exact ⟨as, has, .inl (hnil ▸ trivial), rfl⟩
    · obtain ⟨bs, hbs, hclear, hlength, hbelow⟩ := exists_clearValues hindent has
      have hnil' : bs ≠ [] := by
        rwa [Ne, ← below_eq_nil_iff indent, hbelow, below_eq_nil_iff]
      have hsingle' : ¬ (bs.length = 1 ∧ indent ≠ []) := by
        rintro ⟨hone, hne⟩
        have hpos := List.length_pos_iff.2 hnil
        have hother : as.length ≠ 1 := fun h => hsingle ⟨h, hne⟩
        omega
      rw [← lineFeed_writeAll hnil hsingle, ← lineFeed_writeAll hnil' hsingle'] at hbelow
      exact ⟨bs, hbs, .inl hclear, (List.cons.inj hbelow).2⟩

/-- **Clear lists of attributes are determined by their text**, and there is one for every text: two
of them with the same text are equal, and every other list has the text of one of them. -/
theorem clear_determined (hindent : allBlank indent = true) :
    (∀ as bs, (∀ a ∈ as, isName a.name = true) → (∀ b ∈ bs, isName b.name = true) →
      Clear indent as → Clear indent bs → writeAll as indent = writeAll bs indent → as = bs) ∧
    ∀ as, (∀ a ∈ as, isName a.name = true) →
      ∃ bs, (∀ b ∈ bs, isName b.name = true) ∧ Clear indent bs ∧
        writeAll bs indent = writeAll as indent :=
  ⟨fun _ _ has hbs hcas hcbs h => writeAll_inj hindent has hbs hcas hcbs h,
    fun _ has => exists_clear_writeAll hindent has⟩

/-- A bare attribute and one with an empty value stay apart, and a list with a value that holds an
attribute has the text of a clear one. -/
theorem clear_determined_empty_value :
    allBlank indentUnit = true ∧
      writeAll [⟨"a".toText, none⟩, ⟨"b".toText, some []⟩] indentUnit ≠
        writeAll [⟨"a".toText, some []⟩, ⟨"b".toText, none⟩] indentUnit ∧
      ∃ bs, (∀ b ∈ bs, isName b.name = true) ∧ Clear indentUnit bs ∧ writeAll bs indentUnit =
        writeAll [⟨"a".toText, some "1\"\n  b=\"2".toText⟩, ⟨"c".toText, none⟩] indentUnit := by
  refine ⟨by decide, fun h => ?_, (clear_determined (by decide)).2 _ (by decide)⟩
  refine absurd ((clear_determined (by decide)).1 _ _ ?_ ?_ ?_ ?_ h) (by decide)
  · decide
  · decide
  · exact .inl (clearValues_of_quote_notMem (by simp))
  · exact .inl (clearValues_of_quote_notMem (by simp))

/-- **Two lists with one text**: `a="1"` and `b="2"` on lines of their own, or one value that holds
both. -/
theorem same_text :
    allBlank indentUnit = true ∧
      ∃ as bs, (∀ a ∈ as, isName a.name = true) ∧ (∀ b ∈ bs, isName b.name = true) ∧
        writeAll as indentUnit = writeAll bs indentUnit ∧ as ≠ bs :=
  ⟨by decide,
    [⟨"a".toText, some "1".toText⟩, ⟨"b".toText, some "2".toText⟩, ⟨"c".toText, none⟩],
    [⟨"a".toText, some "1\"\n  b=\"2".toText⟩, ⟨"c".toText, none⟩], by decide⟩

end TemplateLayout.Attribute
