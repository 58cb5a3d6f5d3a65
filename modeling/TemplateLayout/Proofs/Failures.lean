import TemplateLayout.Proofs.Walks

/-! # When formatting fails
Formatting visits the nodes of a tree in document order. It fails at the first visited node that is
no markup or stands too deep, and for no other reason, so text, attributes and indents have no part
in it.

* `Visit`, `Node.visits` — the visited nodes in document order, each with its depth;
* `Visit.error?` — what is wrong with a visited node;
* `Node.outline` — a tree without its texts, comments, attributes and declarations;
* `Node.failure?_render` — rendering fails with the error of the first visited node that has one;
* `Node.value_render_of_le` — a higher limit changes nothing where rendering succeeds;
* `Node.format_fails_iff` — the law for formatting.
-/

namespace TemplateLayout

open Text

variable {n : Node} {ns : List Node}

/-! ## Failures -/

namespace Logged

variable {ε α β : Type} {x : ExceptT ε Logged α} {g : α → ExceptT ε Logged β}

/-- The **failure** of a computation, if it fails. -/
def failure? (x : ExceptT ε Logged α) : Option ε :=
  match x.run.value with
  | .ok _ => none
  | .error e => some e

theorem failure?_eq_none_iff : failure? x = none ↔ ∃ a, x.run.value = .ok a := by
  unfold failure?
  cases x.run.value with
  | ok a => simp
  | error e => simp

theorem failure?_eq_some_iff {e : ε} : failure? x = some e ↔ x.run.value = .error e := by
  unfold failure?
  cases x.run.value with
  | ok a => simp
  | error e => simp

/-- A step that cannot fail has no failure. -/
theorem failure?_liftM (y : Logged α) : failure? (liftM y : ExceptT ε Logged α) = none :=
  rfl

/-- The first failure of two steps counts, where that of the second does not depend on what the
first gives. -/
theorem failure?_bind {r : Option ε} (h : ∀ a, failure? (g a) = r) :
    failure? (x >>= g) = (failure? x).or r := by
  have hbind : (x >>= g).run.value = (ExceptT.bindCont g x.run.value).value := rfl
  rw [failure?, failure?, hbind]
  cases x.run.value with
  | ok a => exact h a
  | error e => rfl

/-- A last step that cannot fail has no part in the failure. -/
theorem failure?_bind_of_none (h : ∀ a, failure? (g a) = none) :
    failure? (x >>= g) = failure? x := by
  rw [failure?_bind h, Option.or_none]

theorem failure?_map (k : α → β) : failure? (k <$> x) = failure? x := by
  rw [map_eq_pure_bind, failure?_bind_of_none fun _ => rfl]

end Logged

/-! ## Visits -/

/-- A **visit**: a node, and how many elements stand above it. -/
structure Visit where
  /-- The node. -/
  node : Node
  /-- The number of elements above it. -/
  depth : Nat

/-- **What is wrong** with a visited node: it is no markup, or an element below more than `limit`
others. -/
def Visit.error? (limit : Nat) (v : Visit) : Option LayoutError :=
  match v.node with
  | .foreign kind => some (.unprintable kind.name)
  | .element name _ _ => if limit < v.depth then some (.tooDeep v.depth limit name) else none
  | _ => none

namespace Node

open Logged Walk

mutual

/-- **The visited nodes** in document order, from a node below `depth` elements on. Nothing in an
element without a name is visited. -/
def visits : Node → Nat → List Visit
  | .element name attrs children, depth =>
    ⟨.element name attrs children, depth⟩ ::
      if name.isEmpty then [] else visitsAll children (depth + 1)
  | .document doctype children, depth =>
    ⟨.document doctype children, depth⟩ :: visitsAll children depth
  | n, depth => [⟨n, depth⟩]

/-- The visited nodes of a sequence. -/
def visitsAll : List Node → Nat → List Visit
  | [], _ => []
  | n :: ns, depth => visits n depth ++ visitsAll ns depth

end

mutual

/-- The **outline** of a tree: its elements by name, and where there are texts, comments, documents
and values that are no markup. -/
def outline : Node → Node
  | .element name _ children => .element name [] (outlineAll children)
  | .text _ => .text none
  | .comment _ => .comment []
  | .document _ children => .document none (outlineAll children)
  | .foreign kind => .foreign kind

/-- The outlines of a sequence. -/
def outlineAll : List Node → List Node
  | [] => []
  | n :: ns => outline n :: outlineAll ns

end

/-- The error of the first visited node that has one. -/
def firstError? (limit : Nat) (vs : List Visit) : Option LayoutError :=
  vs.findSome? (Visit.error? limit)

/-- An element is looked at before its children, and first of all at its depth. -/
theorem firstError?_element (limit : Nat) (name : Text) (attrs : List Attribute)
    (children : List Node) (depth : Nat) :
    firstError? limit (visits (.element name attrs children) depth) =
      if limit < depth then some (.tooDeep depth limit name)
      else if name.isEmpty then none
      else firstError? limit (visitsAll children (depth + 1)) := by
  rw [visits, firstError?, List.findSome?_cons]
  simp only [Visit.error?]
  by_cases hdepth : limit < depth
  · rw [if_pos hdepth, if_pos hdepth]
  · rw [if_neg hdepth, if_neg hdepth]
    by_cases hname : name.isEmpty
    · rw [if_pos hname, if_pos hname]
      rfl
    · rw [if_neg hname, if_neg hname]
      rfl

/-- A document has no error of its own. -/
theorem firstError?_document (limit : Nat) (doctype : Option Text) (children : List Node)
    (depth : Nat) :
    firstError? limit (visits (.document doctype children) depth) =
      firstError? limit (visitsAll children depth) := by
  rw [visits]
  rfl

/-- The nodes of a sequence are looked at in order. -/
theorem firstError?_cons (limit : Nat) (n : Node) (ns : List Node) (depth : Nat) :
    firstError? limit (visitsAll (n :: ns) depth) =
      (firstError? limit (visits n depth)).or (firstError? limit (visitsAll ns depth)) := by
  rw [visitsAll, firstError?, List.findSome?_append]
  rfl

/-- A text has no error. -/
theorem firstError?_text {value : Text} (hn : n.text? = some value) (limit depth : Nat) :
    firstError? limit (visits n depth) = none := by
  cases n with
  | text v => rfl
  | element name attrs children => simp [text?] at hn
  | comment v => simp [text?] at hn
  | document doctype children => simp [text?] at hn
  | foreign kind => simp [text?] at hn

/-- Children without content are texts, so they have no error. -/
theorem firstError?_of_not_hasContent (h : hasContent ns = false) (limit depth : Nat) :
    firstError? limit (visitsAll ns depth) = none := by
  induction ns with
  | nil => rfl
  | cons n ns ih =>
    rw [hasContent, List.any_cons, Bool.or_eq_false_iff] at h
    obtain ⟨hn, hns⟩ := h
    rw [isContent] at hn
    split at hn
    · next value hvalue =>
      rw [firstError?_cons, firstError?_text hvalue, Option.none_or]
      exact ih hns
    · exact absurd hn.symm Bool.false_ne_true

/-! ## The first error -/

mutual

/-- **Rendering fails with the error of the first visited node that has one.** -/
theorem failure?_render (limit : Nat) (n : Node) (indent : Text) (depth : Nat) :
    failure? (render limit n indent depth) = firstError? limit (visits n depth) := by
  match n with
  | .element name attrs children =>
    rw [render, firstError?_element]
    split
    · rfl
    · split
      · rfl
      · split
        · rw [failure?_bind_of_none fun w => rfl, failure?_walk limit children]
        · next hcontent =>
          -- The children are not walked here, but they are blank texts, which have no error.
          rw [firstError?_of_not_hasContent (eq_false_of_ne_true hcontent)]
          rfl
  | .text value => rfl
  | .comment value => rfl
  | .document doctype children =>
    rw [render, firstError?_document, failure?_bind_of_none fun w => ?_]
    · exact failure?_walk limit children _ depth
    · match doctype with
      | none => rfl
      | some [] => rfl
      | some (c :: declaration) => rfl
  | .foreign kind => rfl

/-- A sequence fails with the error of the first visited node that has one. -/
theorem failure?_walk (limit : Nat) (ns : List Node) (w : Walk) (depth : Nat) :
    failure? (walk limit ns w depth) = firstError? limit (visitsAll ns depth) := by
  match ns with
  | [] => rfl
  | n :: ns =>
    rw [walk, firstError?_cons]
    split
    · next value hvalue =>
      rw [failure?_bind fun w' => failure?_walk limit ns w' depth, firstError?_text hvalue,
        failure?_liftM]
    · rw [failure?_bind fun w' => failure?_walk limit ns w' depth, failure?_map,
        failure?_render limit n]

end

mutual

/-- **The first element that stands too deep stands one too deep**, since those above it do not. -/
theorem depth_of_firstError? {limit depth d l : Nat} {name : Text} (n : Node)
    (hdepth : depth ≤ limit + 1)
    (h : firstError? limit (visits n depth) = some (.tooDeep d l name)) :
    d = limit + 1 ∧ l = limit := by
  match n with
  | .element name attrs children =>
    rw [firstError?_element] at h
    split at h
    · obtain ⟨rfl, rfl, -⟩ := LayoutError.tooDeep.inj (Option.some.inj h)
      omega
    · split at h
      · simp at h
      · -- This element is within the limit, so its children are at most one beyond it.
        exact depth_of_firstError?_all children (by omega) h
  | .text value => simp [visits, firstError?, Visit.error?] at h
  | .comment value => simp [visits, firstError?, Visit.error?] at h
  | .document doctype children =>
    rw [firstError?_document] at h
    exact depth_of_firstError?_all children hdepth h
  | .foreign kind => simp [visits, firstError?, Visit.error?] at h

theorem depth_of_firstError?_all {limit depth d l : Nat} {name : Text} (ns : List Node)
    (hdepth : depth ≤ limit + 1)
    (h : firstError? limit (visitsAll ns depth) = some (.tooDeep d l name)) :
    d = limit + 1 ∧ l = limit := by
  match ns with
  | [] => simp [visitsAll, firstError?] at h
  | n :: ns =>
    rw [firstError?_cons, Option.or_eq_some_iff] at h
    rcases h with h | ⟨-, h⟩
    · exact depth_of_firstError? n hdepth h
    · exact depth_of_firstError?_all ns hdepth h

end

mutual

/-- **An outline fails as the tree does.** -/
theorem firstError?_outline (limit : Nat) (n : Node) (depth : Nat) :
    firstError? limit (visits n.outline depth) = firstError? limit (visits n depth) := by
  match n with
  | .element name attrs children =>
    rw [outline, firstError?_element, firstError?_element, firstError?_outlineAll limit children]
  | .text value => rfl
  | .comment value => rfl
  | .document doctype children =>
    rw [outline, firstError?_document, firstError?_document, firstError?_outlineAll limit children]
  | .foreign kind => rfl

theorem firstError?_outlineAll (limit : Nat) (ns : List Node) (depth : Nat) :
    firstError? limit (visitsAll (outlineAll ns) depth) =
      firstError? limit (visitsAll ns depth) := by
  match ns with
  | [] => rfl
  | n :: ns =>
    rw [outlineAll, firstError?_cons, firstError?_cons, firstError?_outline limit n,
      firstError?_outlineAll limit ns]

end

mutual

/-- **A higher limit changes nothing** where rendering succeeds. -/
theorem value_render_of_le {limit limit' depth : Nat} {indent out : Text} (n : Node)
    (hle : limit ≤ limit') (h : (render limit n indent depth).run.value = .ok out) :
    (render limit' n indent depth).run.value = .ok out := by
  match n with
  | .element name attrs children =>
    rw [render] at h ⊢
    split at h
    · exact absurd h (value_throw_ne_ok _ _)
    · next hdepth =>
      rw [if_neg (by omega)]
      split at h
      · next hname => rwa [if_pos hname]
      · next hname =>
        rw [if_neg hname]
        split at h
        · next hcontent =>
          obtain ⟨w, hwalk, h⟩ := value_bind_eq_ok_iff.1 h
          rw [if_pos hcontent]
          exact value_bind_eq_ok_iff.2 ⟨w, value_walk_of_le children hle hwalk, h⟩
        · next hcontent => rwa [if_neg hcontent]
  | .text value => exact h
  | .comment value => exact h
  | .document doctype children =>
    rw [render] at h ⊢
    obtain ⟨w, hwalk, h⟩ := value_bind_eq_ok_iff.1 h
    exact value_bind_eq_ok_iff.2 ⟨w, value_walk_of_le children hle hwalk, h⟩
  | .foreign kind => exact absurd h (value_throw_ne_ok _ _)

theorem value_walk_of_le {limit limit' depth : Nat} {w w' : Walk} (ns : List Node)
    (hle : limit ≤ limit') (h : (walk limit ns w depth).run.value = .ok w') :
    (walk limit' ns w depth).run.value = .ok w' := by
  match ns with
  | [] => exact h
  | n :: ns =>
    rw [walk] at h ⊢
    split at h
    · obtain ⟨w₁, hstep, h⟩ := value_bind_eq_ok_iff.1 h
      exact value_bind_eq_ok_iff.2 ⟨w₁, hstep, value_walk_of_le ns hle h⟩
    · rw [bind_map_left] at h ⊢
      obtain ⟨line, hline, h⟩ := value_bind_eq_ok_iff.1 h
      exact value_bind_eq_ok_iff.2
        ⟨line, value_render_of_le n hle hline, value_walk_of_le ns hle h⟩

end

/-! ## The law -/

/-- Formatting fails as rendering does. -/
theorem failure?_format (o : Options) (n : Node) (indent : Option Text) :
    failure? (n.format o indent) = (firstError? o.maxDepth (n.visits 0)).map .layout := by
  rw [← failure?_render o.maxDepth n (indent.getD o.baseIndent) 0, format, failure?, failure?,
    ExceptT.run_adapt, value_map]
  cases (render o.maxDepth n (indent.getD o.baseIndent) 0).run.value with
  | ok out => rfl
  | error e => rfl

/-- **Formatting fails for structural reasons only.** It succeeds exactly if no visited node has an
error, and otherwise fails with the error of the first that has one, which for an element is the
error of standing one too deep. So trees with one outline fail alike at every indent, and where
formatting succeeds a higher limit changes nothing. -/
theorem format_fails_iff (o : Options) (n : Node) (indent : Option Text) :
    ((∃ out, (n.format o indent).run.value = .ok out) ↔
        ∀ v ∈ n.visits 0, v.error? o.maxDepth = none) ∧
      (∀ before v after e, n.visits 0 = before ++ v :: after →
        (∀ u ∈ before, u.error? o.maxDepth = none) → v.error? o.maxDepth = some e →
        (n.format o indent).run.value = .error (.layout e) ∧
          ∀ d l name, e = .tooDeep d l name → d = o.maxDepth + 1 ∧ l = o.maxDepth) ∧
      (∀ (m : Node) (indent' : Option Text), m.outline = n.outline →
        failure? (m.format o indent') = failure? (n.format o indent)) ∧
      ∀ (o' : Options) out, o'.baseIndent = o.baseIndent → o.maxDepth ≤ o'.maxDepth →
        (n.format o indent).run.value = .ok out → (n.format o' indent).run.value = .ok out := by
  refine ⟨?_, ?_, ?_, ?_⟩
  · rw [← failure?_eq_none_iff, failure?_format, Option.map_eq_none_iff]
    exact List.findSome?_eq_none_iff
  · intro before v after e hvisits hbefore hv
    have hfirst : firstError? o.maxDepth (n.visits 0) = some e := by
      rw [firstError?, hvisits, List.findSome?_append, List.findSome?_eq_none_iff.2 hbefore,
        List.findSome?_cons, hv]
      rfl
    refine ⟨?_, ?_⟩
    · rw [← failure?_eq_some_iff, failure?_format, hfirst]
      rfl
    · rintro d l name rfl
      exact depth_of_firstError? n (Nat.zero_le _) hfirst
  · intro m indent' houtline
    rw [failure?_format, failure?_format, ← firstError?_outline _ m, houtline, firstError?_outline]
  · intro o' out hbase hle h
    rw [format, value_adapt_eq_ok_iff] at h ⊢
    rw [hbase]
    exact value_render_of_le n hle h

/-- An element stands too deep before a value that is no markup. -/
theorem format_fails_iff_deep :
    ((element "a".toText [] [.text (some "x".toText), .element "b".toText []
        [.element "c".toText [] [], .foreign ⟨"int".toText, by decide⟩]]).format
      ⟨[], 1, rfl, Nat.one_pos⟩ none).run.value =
      .error (.layout (.tooDeep 2 1 "c".toText)) := by
  refine ((format_fails_iff _ _ none).2.1 [⟨_, 0⟩, ⟨_, 1⟩, ⟨_, 1⟩] ⟨_, 2⟩ [⟨_, 2⟩] _ rfl ?_ rfl).1
  intro u hu
  simp only [List.mem_cons, List.not_mem_nil, or_false] at hu
  rcases hu with rfl | rfl | rfl <;> rfl

end Node

end TemplateLayout
