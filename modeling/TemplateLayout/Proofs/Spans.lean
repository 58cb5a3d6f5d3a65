import TemplateLayout.Interpolation
import TemplateLayout.Proofs.Blank

/-! # Laws of spans
Reading a text as pieces is undone by writing the pieces. This file says for which pieces the
converse holds, and that two rewritings of a text act piece by piece: putting spans in normal form
and squashing blanks. Both keep every place where two braces touch, so no span is made or lost.

* `Piece.IsExpr` — a text that can stand between the braces of a span;
* `Piece.Lexed` — pieces that are read back from what they write;
* `Piece.IsOpen` — pieces with a `{{` that is never closed;
* `Piece.lex_append` — reading goes part by part;
* `Piece.lex_normalize` — the pieces of a text in normal form;
* `Piece.lex_squash` — the pieces of a squashed text.
-/

namespace TemplateLayout.Piece

open Text

variable {s t r e rest : Text} {c : CodePoint} {p : Piece} {ps qs : List Piece}

/-! ## The first closing braces -/

/-- The two braces that close a span. -/
def closing : Text := [.char '}', .char '}']

/-- A text that does not go on with a character does not begin with it. -/
theorem head?_ne_of_ne_cons {d : CodePoint} (h : ∀ r, c = d → s = d :: r → False) (hc : c = d) :
    s.head? ≠ some d := by
  intro hhead
  obtain ⟨r, hr⟩ := List.head?_eq_some_iff.1 hhead
  exact h r hc hr

/-- Two texts that do not begin with a character make one that does not. -/
theorem head?_append_ne {d : CodePoint} (hs : s.head? ≠ some d) (ht : t.head? ≠ some d) :
    (s ++ t).head? ≠ some d := by
  cases s with
  | nil => exact ht
  | cons c s => exact hs

@[simp] theorem splitClose_nil : splitClose [] = none := rfl

/-- A character that begins no `}}` is passed over. -/
theorem splitClose_cons (h : c = .char '}' → s.head? ≠ some (.char '}')) :
    splitClose (c :: s) = (splitClose s).map fun (expr, rest) => (c :: expr, rest) := by
  rw [splitClose]
  rintro r rfl rfl
  exact h rfl rfl

/-- Without `}}` in a text there is none in its rest. -/
theorem splitClose_tail_none (h : splitClose (c :: s) = none) : splitClose s = none := by
  by_cases hc : c = .char '}' → s.head? ≠ some (.char '}')
  · rw [splitClose_cons hc, Option.map_eq_none_iff] at h
    exact h
  · rw [Classical.not_imp, ne_eq, Decidable.not_not] at hc
    obtain ⟨rfl, hs⟩ := hc
    cases s with
    | nil => rfl
    | cons d s =>
      obtain rfl : d = .char '}' := Option.some.inj hs
      simp [splitClose] at h

/-- What follows the text does not move its first `}}`. -/
theorem splitClose_append (h : splitClose r = some (e, rest)) (t : Text) :
    splitClose (r ++ t) = some (e, rest ++ t) := by
  fun_induction splitClose r generalizing e rest with
  | case1 => simp at h
  | case2 r =>
    simp only [Option.some.injEq, Prod.mk.injEq] at h
    obtain ⟨rfl, rfl⟩ := h
    rfl
  | case3 c r hr ih =>
    simp only [Option.map_eq_some_iff, Prod.mk.injEq] at h
    obtain ⟨⟨e', rest'⟩, hsplit, rfl, rfl⟩ := h
    -- The rest is not empty, so the character behind this one is still the same.
    have hc : c = .char '}' → (r ++ t).head? ≠ some (.char '}') := by
      intro hc
      have hne := head?_ne_of_ne_cons hr hc
      cases r with
      | nil => simp at hsplit
      | cons d r => exact hne
    rw [List.cons_append, splitClose_cons hc, ih hsplit]
    rfl

/-- Without `}}` in a text there is none in its first part. -/
theorem splitClose_left_none (h : splitClose (r ++ t) = none) : splitClose r = none := by
  cases hr : splitClose r with
  | none => rfl
  | some er => rw [splitClose_append hr] at h; exact absurd h (by simp)

/-- Without `}}` in a text there is none in its second part. -/
theorem splitClose_right_none (h : splitClose (r ++ t) = none) : splitClose t = none := by
  induction r with
  | nil => exact h
  | cons c r ih => exact ih (splitClose_tail_none h)

/-- There is no first `}}` exactly if there is none at all. -/
theorem splitClose_eq_none_iff : splitClose s = none ↔ ¬ closing <:+: s := by
  constructor
  · rintro h ⟨a, b, rfl⟩
    exact absurd (splitClose_right_none (splitClose_left_none h)) (by simp [closing, splitClose])
  · intro h
    cases hsplit : splitClose s with
    | none => rfl
    | some er =>
      refine absurd ⟨er.1, er.2, ?_⟩ h
      rw [eq_of_splitClose hsplit]
      simp [closing]

/-- Two texts without `}}` make one, unless a brace of each touches the other. -/
theorem splitClose_append_none (hr : splitClose r = none) (ht : splitClose t = none)
    (hhead : t.head? ≠ some (.char '}')) : splitClose (r ++ t) = none := by
  fun_induction splitClose r with
  | case1 => exact ht
  | case2 => simp at hr
  | case3 c r hcr ih =>
    have hc : c = .char '}' → (r ++ t).head? ≠ some (.char '}') := by
      intro hc
      exact head?_append_ne (head?_ne_of_ne_cons hcr hc) hhead
    rw [List.cons_append, splitClose_cons hc, ih (Option.map_eq_none_iff.1 hr)]
    rfl

/-- A text without the brace has no `}}`. -/
theorem splitClose_of_notMem (h : .char '}' ∉ s) : splitClose s = none := by
  induction s with
  | nil => rfl
  | cons c s ih =>
    rw [splitClose_cons (fun hc => absurd (hc ▸ List.mem_cons_self) h),
      ih fun hs => h (List.mem_cons_of_mem _ hs)]
    rfl

/-- Characters before a text other than the brace do not move its first `}}`. -/
theorem splitClose_append_of_notMem (h : .char '}' ∉ r) (t : Text) :
    splitClose (r ++ t) = (splitClose t).map fun (e, rest) => (r ++ e, rest) := by
  induction r with
  | nil => simp
  | cons c r ih =>
    rw [List.cons_append, splitClose_cons (fun hc => absurd (hc ▸ List.mem_cons_self) h),
      ih fun hr => h (List.mem_cons_of_mem _ hr), Option.map_map]
    rfl

/-! ## Expressions -/

/-- A text **can stand in a span** if the first `}}` after it is the one that follows it. -/
def IsExpr (e : Text) : Prop := splitClose (e ++ closing) = some (e, [])

/-- After an expression the first `}}` closes it, whatever follows. -/
theorem IsExpr.splitClose (he : IsExpr e) (t : Text) :
    splitClose (e ++ .char '}' :: .char '}' :: t) = some (e, t) := by
  have h := splitClose_append he t
  rwa [List.append_assoc, List.nil_append] at h

/-- What stands before the first `}}` is an expression. -/
theorem isExpr_of_splitClose (h : splitClose s = some (e, rest)) : IsExpr e := by
  fun_induction Piece.splitClose s generalizing e rest with
  | case1 => simp at h
  | case2 r =>
    simp only [Option.some.injEq, Prod.mk.injEq] at h
    obtain ⟨rfl, rfl⟩ := h
    rfl
  | case3 c r hr ih =>
    simp only [Option.map_eq_some_iff, Prod.mk.injEq] at h
    obtain ⟨⟨e', rest'⟩, hsplit, rfl, rfl⟩ := h
    -- The expression begins as the text does, so its first brace stays alone.
    have hc : c = .char '}' → (e' ++ closing).head? ≠ some (.char '}') := by
      rintro rfl hhead
      have hrt := eq_of_splitClose hsplit
      cases e' with
      | nil => exact hr _ rfl hrt
      | cons d e' =>
        have hd : d = .char '}' := Option.some.inj hhead
        exact hr _ rfl (by rw [hrt, hd, List.cons_append])
    rw [IsExpr, List.cons_append, splitClose_cons hc, ih hsplit]
    rfl

/-- **An expression** is a text without `}}` that does not end in a brace. -/
theorem isExpr_iff : IsExpr e ↔ splitClose e = none ∧ e.getLast? ≠ some (.char '}') := by
  constructor
  · intro h
    refine ⟨?_, ?_⟩
    · cases hs : splitClose e with
      | none => rfl
      | some er =>
        -- A `}}` inside would come first and leave something of the closing braces.
        obtain ⟨e', rest'⟩ := er
        have happ := splitClose_append hs closing
        rw [h] at happ
        have hrest := congrArg (fun x => (x.map (·.2.length)).getD 0) happ
        simp [closing] at hrest
    · intro hlast
      obtain ⟨e', rfl⟩ : ∃ e', e = e' ++ [.char '}'] := by
        rw [List.getLast?_eq_some_iff] at hlast
        exact hlast
      cases hs : splitClose (e' ++ [.char '}'] ++ [.char '}']) with
      | none =>
        have := splitClose_right_none (r := e') (t := closing)
          (by rw [closing]; rwa [List.append_assoc] at hs)
        simp [closing, splitClose] at this
      | some er =>
        obtain ⟨e₁, rest₁⟩ := er
        have happ := splitClose_append hs [.char '}']
        rw [List.append_assoc (e' ++ _)] at happ
        rw [IsExpr, closing] at h
        rw [List.singleton_append, h] at happ
        have hrest := congrArg (fun x => (x.map (·.2.length)).getD 0) happ
        simp at hrest
  · rintro ⟨hnone, hlast⟩
    induction e with
    | nil => rfl
    | cons c e ih =>
      have hc : c = .char '}' → (e ++ closing).head? ≠ some (.char '}') := by
        rintro rfl hhead
        cases e with
        | nil => exact hlast rfl
        | cons d e =>
          obtain rfl : d = .char '}' := Option.some.inj hhead
          simp [splitClose] at hnone
      have hlast' : e.getLast? ≠ some (.char '}') := by
        cases e with
        | nil => simp
        | cons d e => simpa using hlast
      rw [IsExpr, List.cons_append, splitClose_cons hc, ih (splitClose_tail_none hnone) hlast']
      rfl

/-! ## Reading from the left -/

@[simp] theorem lex_nil : lex [] = [] := by
  rw [lex]

/-- A character that begins no `{{` is a piece of its own. -/
theorem lex_cons (h : c = .char '{' → s.head? ≠ some (.char '{')) :
    lex (c :: s) = .point c :: lex s := by
  rw [lex]
  rintro r rfl rfl
  exact h rfl rfl

/-- A `{{` that is closed begins a span. -/
theorem lex_span (h : splitClose r = some (e, rest)) :
    lex (.char '{' :: .char '{' :: r) = .span e :: lex rest := by
  rw [lex]
  split
  · next e' rest' h' =>
    rw [h, Option.some.injEq, Prod.mk.injEq] at h'
    rw [h'.1, h'.2]
  · next h' =>
    rw [h] at h'
    exact absurd h' (by simp)

/-- After a `{{` that is never closed there is no span. -/
theorem lex_open (h : splitClose r = none) :
    lex (.char '{' :: .char '{' :: r) = (.char '{' :: .char '{' :: r).map .point := by
  rw [lex]
  split
  · next e' rest' h' =>
    rw [h] at h'
    exact absurd h' (by simp)
  · rfl

/-- Without `}}` a text has no span. -/
theorem lex_of_splitClose_none (h : splitClose s = none) : lex s = s.map .point := by
  fun_induction lex s with
  | case1 => rfl
  | case2 r e rest hr =>
    have := splitClose_tail_none (splitClose_tail_none h)
    rw [hr] at this
    exact absurd this (by simp)
  | case3 => rfl
  | case4 c r hcr ih => rw [ih (splitClose_tail_none h), List.map_cons]

/-- Characters other than `{` are pieces of their own, whatever follows them. -/
theorem lex_append_of_notMem (h : .char '{' ∉ s) (t : Text) :
    lex (s ++ t) = s.map .point ++ lex t := by
  induction s with
  | nil => rfl
  | cons c s ih =>
    rw [List.cons_append, lex_cons (fun hc => absurd (hc ▸ List.mem_cons_self) h),
      ih fun hs => h (List.mem_cons_of_mem _ hs)]
    rfl

/-- Pieces are **open** if they hold a `{{` that is never closed. -/
def IsOpen (ps : List Piece) : Prop := [.char '{', .char '{'] <:+: ps

theorem IsOpen.cons (h : IsOpen ps) (p : Piece) : IsOpen (p :: ps) :=
  h.trans (List.suffix_cons p ps).isInfix

/-- **Reading goes part by part** where no brace touches the second part and no `{{` of the first
part is closed in the second. -/
theorem lex_append (hopen : t.head? ≠ some (.char '{')) (hclose : t.head? ≠ some (.char '}'))
    (hnone : IsOpen (lex s) → splitClose t = none) : lex (s ++ t) = lex s ++ lex t := by
  fun_induction lex s with
  | case1 => rfl
  | case2 r e rest h ih =>
    rw [List.cons_append, List.cons_append, lex_span (splitClose_append h t),
      ih fun ho => hnone (ho.cons _), List.cons_append]
  | case3 r h =>
    -- The second part closes nothing, so what is open stays open.
    have ht := hnone ⟨[], r.map .point, rfl⟩
    rw [List.cons_append, List.cons_append, lex_open (splitClose_append_none h ht hclose),
      lex_of_splitClose_none ht]
    simp only [List.map_cons, List.map_append, List.cons_append]
  | case4 c r hcr ih =>
    have hc : c = .char '{' → (r ++ t).head? ≠ some (.char '{') := by
      intro hc
      exact head?_append_ne (head?_ne_of_ne_cons hcr hc) hopen
    rw [List.cons_append, lex_cons hc, ih fun ho => hnone (ho.cons _), List.cons_append]

/-! ## Pieces that are read back -/

/-- Pieces are **read back** from what they write: spans hold expressions, no two braces touch that
are not one span, and after an open `{{` there are no spans. -/
inductive Lexed : List Piece → Prop where
  /-- Nothing is written and nothing is read. -/
  | nil : Lexed []
  /-- A span that holds an expression. -/
  | span {e : Text} {ps : List Piece} (he : IsExpr e) (hps : Lexed ps) : Lexed (.span e :: ps)
  /-- A character; a brace is followed by none. -/
  | point {c : CodePoint} {ps : List Piece}
      (hc : c = .char '{' → (sourceAll ps).head? ≠ some (.char '{')) (hps : Lexed ps) :
      Lexed (.point c :: ps)
  /-- A `{{` that is never closed, and the characters after it. -/
  | opened {r : Text} (hr : splitClose r = none) :
      Lexed ((CodePoint.char '{' :: .char '{' :: r).map .point)

@[simp] theorem sourceAll_map_point (s : Text) : sourceAll (s.map .point) = s := by
  simp [sourceAll, List.flatMap_map, source]

@[simp] theorem sourceAll_append (ps qs : List Piece) :
    sourceAll (ps ++ qs) = sourceAll ps ++ sourceAll qs :=
  List.flatMap_append

/-- The pieces of any text are read back. -/
theorem lexed_lex (s : Text) : Lexed (lex s) := by
  fun_induction lex s with
  | case1 => exact .nil
  | case2 r e rest h ih => exact .span (isExpr_of_splitClose h) ih
  | case3 r h => exact .opened h
  | case4 c r hcr ih =>
    refine .point ?_ ih
    intro hc
    rw [sourceAll_lex]
    exact head?_ne_of_ne_cons hcr hc

/-- Characters without `}}` are read back. -/
theorem lexed_map_point (h : splitClose s = none) : Lexed (s.map .point) :=
  lex_of_splitClose_none h ▸ lexed_lex s

/-- **Pieces that are read back are the pieces of what they write.** -/
theorem Lexed.lex_sourceAll (h : Lexed ps) : lex (sourceAll ps) = ps := by
  induction h with
  | nil => exact lex_nil
  | @span e ps he _ ih =>
    have hs : sourceAll (.span e :: ps) =
        .char '{' :: .char '{' :: (e ++ .char '}' :: .char '}' :: sourceAll ps) := by
      simp [source]
    rw [hs, lex_span (he.splitClose _), ih]
  | @point c ps hc _ ih =>
    rw [sourceAll_cons, source, List.singleton_append, lex_cons hc, ih]
  | opened hr => rw [sourceAll_map_point, lex_open hr]

/-- What follows the first piece is read back. -/
theorem Lexed.tail (h : Lexed (p :: ps)) : Lexed ps := by
  generalize hps : p :: ps = qs at h
  cases h with
  | nil => simp at hps
  | span _ h => rwa [(List.cons.inj hps).2]
  | point _ h => rwa [(List.cons.inj hps).2]
  | @opened r hr =>
    -- One brace is left, and what stands behind it has no `}}`.
    have htail : ps = (CodePoint.char '{' :: r).map .point := (List.cons.inj hps).2
    rw [htail]
    refine lexed_map_point ?_
    rw [splitClose_cons (by simp), hr]
    rfl

/-- The last part of pieces that are read back is read back. -/
theorem Lexed.right (h : Lexed (ps ++ qs)) : Lexed qs := by
  induction ps with
  | nil => exact h
  | cons p ps ih => exact ih h.tail

/-- The first part of pieces that are read back is read back. -/
theorem Lexed.left (h : Lexed (ps ++ qs)) : Lexed ps := by
  induction ps with
  | nil => exact .nil
  | cons p ps ih =>
    have hps : Lexed ps := ih h.tail
    generalize hall : p :: ps ++ qs = l at h
    cases h with
    | nil => simp at hall
    | span he _ =>
      rw [(List.cons.inj hall).1]
      exact .span he hps
    | @point c l hc _ =>
      obtain ⟨rfl, rfl⟩ := List.cons.inj hall
      refine .point ?_ hps
      intro hcb hhead
      -- What the first part begins with, the whole begins with.
      refine hc hcb ?_
      cases ps with
      | nil => simp at hhead
      | cons q ps => cases q <;> exact hhead
    | @opened r hr =>
      obtain ⟨rfl, htail⟩ := List.cons.inj hall
      -- The cut stands before the second brace, or behind it in the characters that follow.
      cases ps with
      | nil => exact .point (by simp) .nil
      | cons q ps =>
        obtain ⟨rfl, hr'⟩ := List.cons.inj htail
        obtain ⟨a, b, rfl, ha, -⟩ := List.map_eq_append_iff.1 hr'.symm
        rw [← ha]
        exact .opened (splitClose_left_none hr)

/-- After an open `{{` only characters follow, and no `}}` among them. -/
theorem Lexed.opened_inv (h : Lexed (.char '{' :: .char '{' :: ps)) :
    ∃ r, ps = r.map .point ∧ splitClose r = none := by
  generalize hqs : Piece.char '{' :: .char '{' :: ps = qs at h
  cases h with
  | nil => simp at hqs
  | span => simp at hqs
  | point hc =>
    obtain ⟨hc', rfl⟩ := List.cons.inj hqs
    exact absurd rfl (hc (point.inj hc').symm)
  | @opened r hr => exact ⟨r, (List.cons.inj (List.cons.inj hqs).2).2, hr⟩

/-! ## Normal form -/

/-- A piece with its span **tidied**: one space, the collapsed expression, one space. -/
def tidy : Piece → Piece
  | .point c => .point c
  | .span e => .span (.char ' ' :: collapse e ++ [.char ' '])

@[simp] theorem tidy_point (c : CodePoint) : tidy (.point c) = .point c := rfl

/-- The normal form of a piece is what the tidied piece writes. -/
@[simp] theorem source_tidy (p : Piece) : p.tidy.source = p.normal := by
  cases p with
  | point c => rfl
  | span e => simp [tidy, source, normal, normalSpan]

/-- Pieces in normal form are tidied pieces as written. -/
theorem sourceAll_map_tidy (ps : List Piece) : sourceAll (ps.map tidy) = normalAll ps := by
  simp [sourceAll, normalAll, List.flatMap_map]

@[simp] theorem normalAll_append (ps qs : List Piece) :
    normalAll (ps ++ qs) = normalAll ps ++ normalAll qs :=
  List.flatMap_append

@[simp] theorem normalAll_map_point (s : Text) : normalAll (s.map .point) = s := by
  simp [normalAll, List.flatMap_map, normal]

/-- Without spans there is nothing to put in normal form. -/
theorem normalAll_eq_sourceAll (h : ∀ e, .span e ∉ ps) : normalAll ps = sourceAll ps := by
  induction ps with
  | nil => rfl
  | cons p ps ih =>
    rw [normalAll_cons, sourceAll_cons, ih fun e he => h e (List.mem_cons_of_mem _ he)]
    cases p with
    | point c => rfl
    | span e => exact absurd List.mem_cons_self (h e)

/-- Tidying touches no character outside the spans. -/
@[simp] theorem point_mem_map_tidy : .point c ∈ ps.map tidy ↔ .point c ∈ ps := by
  rw [List.mem_map]
  constructor
  · rintro ⟨p, hp, hc⟩
    cases p with
    | point d => rwa [← hc]
    | span e => simp [tidy] at hc
  · intro h
    exact ⟨_, h, rfl⟩

/-- Tidied pieces are open only if the pieces were. -/
theorem isOpen_of_map_tidy (h : IsOpen (ps.map tidy)) : IsOpen ps := by
  obtain ⟨l, r, h⟩ := h
  obtain ⟨l₁, r', rfl, hl, hr⟩ := List.map_eq_append_iff.1 h.symm
  obtain ⟨l', mid, rfl, -, hmid⟩ := List.map_eq_append_iff.1 hl
  refine ⟨l', r', ?_⟩
  have hmid' : mid = [.char '{', .char '{'] := by
    match mid, hmid with
    | [.point c, .point d], hmid => exact hmid
    | [.span e, _], hmid => simp [tidy] at hmid
    | [.point c, .span e], hmid => simp [tidy] at hmid
  rw [hmid']

@[simp] theorem map_tidy_map_point (s : Text) :
    (s.map Piece.point).map tidy = s.map Piece.point := by
  rw [List.map_map]
  rfl

/-- Collapsing an expression makes no `}}`. -/
theorem splitClose_squash (s : Text) :
    splitClose (squash s) = (splitClose s).map fun (e, rest) => (squash e, squash rest) := by
  fun_induction splitClose s with
  | case1 => rfl
  | case2 r =>
    rw [squash_cons_visible isBlank_closeBrace, squash_cons_visible isBlank_closeBrace, splitClose]
    rfl
  | case3 c s hcs ih =>
    cases hc : isBlank c with
    | false =>
      -- The next character is a brace after squashing exactly if it was one before.
      have hhead : c = .char '}' → (squash s).head? ≠ some (.char '}') := by
        intro hc
        rw [ne_eq, head?_squash_eq_some_iff isBlank_closeBrace]
        exact head?_ne_of_ne_cons hcs hc
      rw [squash_cons_visible hc, splitClose_cons hhead, ih]
      cases splitClose s with
      | none => rfl
      | some er => simp [squash_cons_visible hc]
    | true =>
      cases hs : startsBlank s with
      | true =>
        rw [squash_cons_blank_blank hc hs, ih]
        cases hsplit : splitClose s with
        | none => rfl
        | some er =>
          -- The expression begins with the blanks of the text.
          obtain ⟨e, rest⟩ := er
          have he : startsBlank e = true := by
            rw [eq_of_splitClose hsplit] at hs
            cases e with
            | nil => exact absurd (show isBlank (.char '}') = true from hs) (by decide)
            | cons d e => exact hs
          simp [squash_cons_blank_blank hc he]
      | false =>
        rw [squash_cons_blank hc hs, splitClose_cons (by simp), ih]
        cases hsplit : splitClose s with
        | none => rfl
        | some er =>
          obtain ⟨e, rest⟩ := er
          have he : startsBlank e = false := by
            rw [eq_of_splitClose hsplit] at hs
            cases e with
            | nil => rfl
            | cons d e => exact hs
          simp [squash_cons_blank hc he]

/-- Collapsing makes no `}}`. -/
theorem splitClose_collapse (h : splitClose s = none) : splitClose (collapse s) = none := by
  obtain ⟨b, b', -, -, hs⟩ := exists_trim s
  have htrim : splitClose (trim s) = none := by
    rw [hs] at h
    exact splitClose_right_none (splitClose_left_none h)
  rw [collapse_eq_squash_trim, splitClose_squash, htrim]
  rfl

/-- A collapsed expression between two spaces is an expression. -/
theorem IsExpr.pad (he : IsExpr e) : IsExpr (.char ' ' :: collapse e ++ [.char ' ']) := by
  rw [isExpr_iff]
  refine ⟨?_, by rw [List.getLast?_append]; simp⟩
  rw [List.cons_append, splitClose_cons (by simp), splitClose_append_none
    (splitClose_collapse (isExpr_iff.1 he).1) rfl (by simp)]
  rfl

/-- Collapsing forgets the spaces around an expression. -/
theorem collapse_pad (e : Text) :
    collapse (.char ' ' :: collapse e ++ [.char ' ']) = collapse e := by
  rw [collapse_eq_collapse_iff, List.cons_append, words_cons_blank isBlank_space,
    words_append_right (by decide), words_collapse]

/-- A tidied piece is tidy. -/
@[simp] theorem tidy_tidy (p : Piece) : p.tidy.tidy = p.tidy := by
  cases p with
  | point c => rfl
  | span e => rw [tidy, tidy, collapse_pad]

@[simp] theorem map_tidy_map_tidy (ps : List Piece) :
    (ps.map tidy).map tidy = ps.map tidy := by
  rw [List.map_map]
  exact List.map_congr_left fun p _ => tidy_tidy p

/-- Tidied or not, pieces write the same first character. -/
theorem head?_sourceAll_map_tidy (ps : List Piece) :
    (sourceAll (ps.map tidy)).head? = (sourceAll ps).head? := by
  cases ps with
  | nil => rfl
  | cons p ps => cases p <;> rfl

/-- Tidying keeps pieces that are read back. -/
theorem Lexed.map_tidy (h : Lexed ps) : Lexed (ps.map tidy) := by
  induction h with
  | nil => exact .nil
  | span he _ ih => exact .span he.pad ih
  | @point c ps hc _ ih =>
    refine .point ?_ ih
    rwa [head?_sourceAll_map_tidy]
  | opened hr =>
    rw [map_tidy_map_point]
    exact .opened hr

/-- The pieces of pieces in normal form. -/
theorem Lexed.lex_normalAll (h : Lexed ps) : lex (normalAll ps) = ps.map tidy := by
  rw [← sourceAll_map_tidy, h.map_tidy.lex_sourceAll]

/-- Pieces in normal form stay as they are. -/
theorem Lexed.normalize_normalAll (h : Lexed ps) :
    Interpolation.normalize (normalAll ps) = normalAll ps := by
  rw [Interpolation.normalize, h.lex_normalAll, ← sourceAll_map_tidy, map_tidy_map_tidy,
    sourceAll_map_tidy]

/-- **The pieces of a text in normal form** are those of the text, tidied. -/
theorem lex_normalize (s : Text) : lex (Interpolation.normalize s) = (lex s).map tidy :=
  (lexed_lex s).lex_normalAll

/-- A text in normal form stays as it is. -/
@[simp] theorem normalize_normalize (s : Text) :
    Interpolation.normalize (Interpolation.normalize s) = Interpolation.normalize s :=
  (lexed_lex s).normalize_normalAll

/-- Putting pieces in normal form changes blanks only. -/
theorem visible_normalAll (ps : List Piece) : visible (normalAll ps) = visible (sourceAll ps) := by
  induction ps with
  | nil => rfl
  | cons p ps ih =>
    rw [normalAll_cons, sourceAll_cons, visible_append, visible_append, ih]
    cases p with
    | point c => rfl
    | span e => simp [normal, source, normalSpan, visible_cons, isBlank]

/-- Putting a text in normal form changes blanks only. -/
theorem visible_normalize (s : Text) : visible (Interpolation.normalize s) = visible s := by
  rw [Interpolation.normalize, visible_normalAll, sourceAll_lex]

/-- A text in normal form without `}}` had none before. -/
theorem splitClose_of_normalize (h : splitClose (Interpolation.normalize s) = none) :
    splitClose s = none := by
  have hspan : ∀ e, .span e ∉ lex s := by
    intro e he
    obtain ⟨ps, qs, hps⟩ := List.append_of_mem he
    rw [Interpolation.normalize, hps, normalAll_append, normalAll_cons] at h
    have hnormal := splitClose_left_none (splitClose_right_none h)
    -- A span in normal form ends with the two braces.
    have hclosing := splitClose_right_none
      (r := [.char '{', .char '{', .char ' '] ++ collapse e ++ [.char ' ']) (t := closing)
      (by simpa [normal, normalSpan, closing] using hnormal)
    simp [closing, splitClose] at hclosing
  rwa [Interpolation.normalize, normalAll_eq_sourceAll hspan, sourceAll_lex] at h

/-! ## Squashed pieces -/

/-- Pieces with their blanks **squashed**, inside spans and between them. -/
def squashAll : List Piece → List Piece
  | [] => []
  | .point c :: ps =>
    if isBlank c then if startsBlank (sourceAll ps) then squashAll ps else .char ' ' :: squashAll ps
    else .point c :: squashAll ps
  | .span e :: ps => .span (squash e) :: squashAll ps

@[simp] theorem squashAll_nil : squashAll [] = [] := rfl

@[simp] theorem squashAll_span (e : Text) (ps : List Piece) :
    squashAll (.span e :: ps) = .span (squash e) :: squashAll ps := rfl

theorem squashAll_point_visible (hc : isBlank c = false) (ps : List Piece) :
    squashAll (.point c :: ps) = .point c :: squashAll ps := by
  rw [squashAll, if_neg (by rw [hc]; exact Bool.false_ne_true)]

theorem squashAll_point_blank (hc : isBlank c = true) (hps : startsBlank (sourceAll ps) = false) :
    squashAll (.point c :: ps) = .char ' ' :: squashAll ps := by
  rw [squashAll, if_pos hc, if_neg (by rw [hps]; exact Bool.false_ne_true)]

theorem squashAll_point_blank_blank (hc : isBlank c = true)
    (hps : startsBlank (sourceAll ps) = true) : squashAll (.point c :: ps) = squashAll ps := by
  rw [squashAll, if_pos hc, if_pos hps]

/-- Squashed pieces write the squashed text. -/
theorem sourceAll_squashAll (ps : List Piece) :
    sourceAll (squashAll ps) = squash (sourceAll ps) := by
  induction ps with
  | nil => rfl
  | cons p ps ih =>
    cases p with
    | span e =>
      have hs : sourceAll (.span e :: ps) =
          .char '{' :: .char '{' :: (e ++ .char '}' :: .char '}' :: sourceAll ps) := by
        simp [source]
      rw [hs, squash_cons_visible isBlank_openBrace, squash_cons_visible isBlank_openBrace,
        squash_append rfl, squash_cons_visible isBlank_closeBrace,
        squash_cons_visible isBlank_closeBrace,
        squashAll_span, sourceAll_cons, ih]
      simp [source]
    | point c =>
      rw [sourceAll_cons, source, List.singleton_append]
      cases hc : isBlank c with
      | false => rw [squashAll_point_visible hc, squash_cons_visible hc, ← ih]; rfl
      | true =>
        cases hps : startsBlank (sourceAll ps) with
        | false => rw [squashAll_point_blank hc hps, squash_cons_blank hc hps, ← ih]; rfl
        | true => rw [squashAll_point_blank_blank hc hps, squash_cons_blank_blank hc hps, ih]

@[simp] theorem squashAll_map_point (s : Text) :
    squashAll (s.map .point) = (squash s).map .point := by
  induction s with
  | nil => rfl
  | cons c s ih =>
    have hs := sourceAll_map_point s
    cases hc : isBlank c with
    | false =>
      rw [List.map_cons, squashAll_point_visible hc, squash_cons_visible hc, ih, List.map_cons]
    | true =>
      cases hst : startsBlank s with
      | false =>
        rw [List.map_cons, squashAll_point_blank hc (by rwa [hs]), squash_cons_blank hc hst, ih,
          List.map_cons]
      | true =>
        rw [List.map_cons, squashAll_point_blank_blank hc (by rwa [hs]),
          squash_cons_blank_blank hc hst, ih]

/-- An expression stays one when it is squashed. -/
theorem IsExpr.squash (he : IsExpr e) : IsExpr (Text.squash e) := by
  have h := splitClose_squash (e ++ closing)
  rw [he, squash_append rfl] at h
  exact h

/-- Squashing keeps pieces that are read back. -/
theorem Lexed.squashAll (h : Lexed ps) : Lexed (squashAll ps) := by
  induction h with
  | nil => exact .nil
  | span he _ ih => exact .span he.squash ih
  | @point c ps hc _ ih =>
    cases hb : isBlank c with
    | false =>
      rw [squashAll_point_visible hb]
      refine .point ?_ ih
      intro hcb
      rw [sourceAll_squashAll, ne_eq, head?_squash_eq_some_iff isBlank_openBrace]
      exact hc hcb
    | true =>
      -- A blank goes or becomes a space, which is no brace.
      cases hps : startsBlank (sourceAll ps) with
      | false =>
        rw [squashAll_point_blank hb hps]
        exact .point (by simp) ih
      | true =>
        rw [squashAll_point_blank_blank hb hps]
        exact ih
  | opened hr =>
    rw [squashAll_map_point, squash_cons_visible isBlank_openBrace,
      squash_cons_visible isBlank_openBrace]
    refine .opened ?_
    rw [splitClose_squash, hr]
    rfl

/-- **The pieces of a squashed text** are those of the text, squashed. -/
theorem lex_squash (s : Text) : lex (squash s) = squashAll (lex s) := by
  have h := (lexed_lex s).squashAll.lex_sourceAll
  rwa [sourceAll_squashAll, sourceAll_lex] at h

/-! ## Padded spans -/

/-- Pieces are **padded** if each span has a blank behind its first braces and before its last. -/
def Padded (ps : List Piece) : Prop :=
  ∀ e, .span e ∈ ps → startsBlank e = true ∧ endsBlank e = true

theorem Padded.of_subset (h : Padded ps) (hsub : ∀ p ∈ qs, p ∈ ps) : Padded qs :=
  fun e he => h e (hsub _ he)

/-- Tidied pieces are padded. -/
theorem padded_map_tidy (ps : List Piece) : Padded (ps.map tidy) := by
  intro e he
  obtain ⟨p, -, hp⟩ := List.mem_map.1 he
  cases p with
  | point c => simp at hp
  | span e' =>
    rw [tidy, span.injEq] at hp
    subst hp
    exact ⟨rfl, by rw [endsBlank_append_singleton]; rfl⟩

/-- The spans of squashed pieces are the spans of the pieces, squashed. -/
theorem mem_squashAll_span (h : .span e ∈ squashAll ps) : ∃ e', .span e' ∈ ps ∧ e = squash e' := by
  induction ps with
  | nil => simp at h
  | cons p ps ih =>
    cases p with
    | span e₀ =>
      rw [squashAll_span] at h
      rcases List.mem_cons.1 h with h | h
      · exact ⟨e₀, List.mem_cons_self, span.inj h⟩
      · obtain ⟨e', he', rfl⟩ := ih h
        exact ⟨e', List.mem_cons_of_mem _ he', rfl⟩
    | point c =>
      have hmem : .span e ∈ squashAll ps := by
        rw [squashAll] at h
        split at h
        · split at h
          · exact h
          · exact (List.mem_cons.1 h).resolve_left (by simp)
        · exact (List.mem_cons.1 h).resolve_left (by simp)
      obtain ⟨e', he', rfl⟩ := ih hmem
      exact ⟨e', List.mem_cons_of_mem _ he', rfl⟩

/-- Squashing leaves what is no blank where it is. -/
theorem point_mem_squashAll (hc : isBlank c = false) :
    .point c ∈ squashAll ps ↔ .point c ∈ ps := by
  induction ps with
  | nil => rfl
  | cons p ps ih =>
    cases p with
    | span e => rw [squashAll_span, List.mem_cons, List.mem_cons, ih]; simp
    | point d =>
      cases hd : isBlank d with
      | false => rw [squashAll_point_visible hd, List.mem_cons, List.mem_cons, ih]
      | true =>
        have hcd : Piece.point c ≠ .point d := by
          rintro h
          rw [point.inj h, hd] at hc
          exact absurd hc.symm Bool.false_ne_true
        have hspace : Piece.point c ≠ .char ' ' := by
          rintro h
          rw [point.inj h] at hc
          exact absurd hc (by decide)
        cases hps : startsBlank (sourceAll ps) with
        | false =>
          rw [squashAll_point_blank hd hps, List.mem_cons, List.mem_cons, ih]
          simp only [hcd, hspace]
        | true =>
          rw [squashAll_point_blank_blank hd hps, List.mem_cons, ih]
          simp only [hcd, false_or]

/-- Squashing keeps padded pieces padded. -/
theorem Padded.squashAll (h : Padded ps) : Padded (squashAll ps) := by
  intro e he
  obtain ⟨e', he', rfl⟩ := mem_squashAll_span he
  rw [startsBlank_squash, endsBlank_squash]
  exact h e' he'

/-- **Tidying padded pieces does not show after squashing.** -/
theorem squashAll_map_tidy (h : Padded ps) : squashAll (ps.map tidy) = squashAll ps := by
  induction ps with
  | nil => rfl
  | cons p ps ih =>
    have ih := ih (h.of_subset fun p hp => List.mem_cons_of_mem _ hp)
    cases p with
    | span e =>
      obtain ⟨hstart, hend⟩ := h e List.mem_cons_self
      rw [List.map_cons, tidy, squashAll_span, squashAll_span, ih, squash_pad hstart hend]
    | point c =>
      -- Whether a blank follows a blank is seen from the first character of the rest.
      have hst : startsBlank (sourceAll (ps.map tidy)) = startsBlank (sourceAll ps) := by
        rw [startsBlank, head?_sourceAll_map_tidy, startsBlank]
      rw [List.map_cons, tidy_point, squashAll, squashAll, hst, ih]

end TemplateLayout.Piece
