import TemplateLayout.Proofs.Loading

/-! # Locations tell paths apart
A location is the steps of a path, one behind the other. A number is closed by a bracket; a name is
closed by nothing and ends where the next step begins, which is seen as long as no name holds a mark
that begins a step. The names in the paths that loading tells of never do: they are the names of
five fields.

* `Path.Legible` — no name in a path holds a mark;
* `Step.location_append_inj` — the first step of a location, and what stands behind it;
* `Path.location_inj` — legible paths are read back from their locations;
* `Loading.paths` — the paths that loading tells of, in notes and in a failure;
* `Loading.OnFields` — all of them lead through known fields;
* `Path.location_eq_iff_of_legible` — both together.
-/

namespace TemplateLayout

/-! ## Legible paths -/

namespace Step

/-- The marks with which a step begins in a location. -/
def isMark (c : CodePoint) : Bool := c == .char '.' || c == .char '['

/-- A step is **legible** if it is no name that holds a mark. -/
def Legible : Step → Prop
  | .field name => .char '.' ∉ name ∧ .char '[' ∉ name
  | .index _ => True

instance : DecidablePred Legible
  | .field _ => inferInstanceAs (Decidable (_ ∧ _))
  | .index _ => inferInstanceAs (Decidable True)

variable {s t : Step} {name x y : Text} {i j : Int}

theorem not_isMark_of_mem (h : Legible (.field name)) {c : CodePoint} (hc : c ∈ name) :
    (!isMark c) = true := by
  obtain ⟨hdot, hbracket⟩ := h
  rw [isMark, Bool.not_eq_true', Bool.or_eq_false_iff, beq_eq_false_iff_ne, beq_eq_false_iff_ne]
  constructor
  · rintro rfl
    exact hdot hc
  · rintro rfl
    exact hbracket hc

/-- A number ends at its bracket. -/
theorem index_append_inj (h : Text.ofInt i ++ .char ']' :: x = Text.ofInt j ++ .char ']' :: y) :
    i = j ∧ x = y := by
  have hbracket (i : Int) : ∀ c ∈ Text.ofInt i, (c != .char ']') = true := by
    intro c hc
    rw [bne_iff_ne]
    rintro rfl
    exact absurd (Text.eq_minus_or_isDigit_of_mem_ofInt hc) (by decide)
  obtain ⟨hnumber, hrest⟩ := Text.run_append_inj (hbracket i) (hbracket j) rfl rfl h
  exact ⟨Text.ofInt_injective hnumber, (List.cons.inj hrest).2⟩

/-- **The first step of a location is determined**, if nothing but a step stands behind it. -/
theorem location_append_inj (hs : s.Legible) (ht : t.Legible) (hx : x.head?.all isMark = true)
    (hy : y.head?.all isMark = true) (h : s.location ++ x = t.location ++ y) :
    s = t ∧ x = y := by
  cases s with
  | field name =>
    cases t with
    | field name' =>
      obtain ⟨rfl, hrest⟩ := Text.run_append_inj (fun c hc => not_isMark_of_mem hs hc)
        (fun c hc => not_isMark_of_mem ht hc) (by simpa using hx) (by simpa using hy)
        (List.cons.inj h).2
      exact ⟨rfl, hrest⟩
    | index j => exact absurd (List.cons.inj h).1 (by decide)
  | index i =>
    cases t with
    | field name' => exact absurd (List.cons.inj h).1 (by decide)
    | index j =>
      have hnumber : Text.ofInt i ++ .char ']' :: x = Text.ofInt j ++ .char ']' :: y := by
        simpa [location] using h
      obtain ⟨rfl, hrest⟩ := index_append_inj hnumber
      exact ⟨rfl, hrest⟩

end Step

namespace Path

variable {p q path : Path}

/-- A path is **legible** if all its steps are. -/
def Legible (path : Path) : Prop := ∀ s ∈ path, s.Legible

instance (path : Path) : Decidable path.Legible := List.decidableBAll ..

theorem Legible.head {s : Step} (h : Legible (s :: path)) : s.Legible := h s List.mem_cons_self

theorem Legible.tail {s : Step} (h : Legible (s :: path)) : Legible path :=
  fun t ht => h t (List.mem_cons_of_mem s ht)

/-- Steps begin with a mark. -/
theorem head?_flatMap_location (path : Path) :
    (path.flatMap Step.location).head?.all Step.isMark = true := by
  cases path with
  | nil => rfl
  | cons s path => cases s <;> rfl

/-- Legible steps are determined by how they are written. -/
theorem flatMap_location_inj (hp : p.Legible) (hq : q.Legible)
    (h : p.flatMap Step.location = q.flatMap Step.location) : p = q := by
  have hne (s : Step) (path : Path) : (s :: path).flatMap Step.location ≠ [] := by
    cases s <;> exact List.cons_ne_nil _ _
  induction p generalizing q with
  | nil =>
    cases q with
    | nil => rfl
    | cons t q => exact absurd h.symm (hne t q)
  | cons s p ih =>
    cases q with
    | nil => exact absurd h (hne s p)
    | cons t q =>
      obtain ⟨rfl, hrest⟩ := Step.location_append_inj hp.head hq.head (head?_flatMap_location p)
        (head?_flatMap_location q) h
      rw [ih hp.tail hq.tail hrest]

/-- **Legible paths are read back from their locations.** -/
theorem location_inj (hp : p.Legible) (hq : q.Legible) (h : p.location = q.location) : p = q :=
  flatMap_location_inj hp hq (List.append_cancel_left h)

end Path

/-! ## Paths that loading tells of -/

/-- The place that an event tells of. -/
def Event.path? : Event → Option Path
  | .skippedDeclaration path => some path
  | _ => none

namespace Loading

variable {α β : Type} {x : Loading α} {k : α → Loading β} {path : Path} {name : Text}

/-- The **paths** that loading tells of: those in its notes, and the one of its failure. -/
def paths (x : Loading α) : List Path :=
  x.run.events.filterMap Event.path? ++
    match x.run.value with
    | .ok _ => []
    | .error e => (e.treeError?.map TreeError.path).toList

/-- The names of the **fields in which loading finds its parts**. A fault of the type is told under
the path of the node, so the type is none of them. -/
def fieldNames : List Text :=
  ["children".toText, "attrs".toText, "name".toText, "value".toText, "doctype".toText]

/-- A path leads **through known fields** if every name in it is one of these. -/
def KnownFields (path : Path) : Prop := ∀ name, .field name ∈ path → name ∈ fieldNames

/-- Loading keeps **on known fields** if all the paths that it tells of do. -/
def OnFields (x : Loading α) : Prop := ∀ path ∈ x.paths, KnownFields path

/-- The name of no known field holds a mark. -/
theorem KnownFields.legible (h : KnownFields path) : path.Legible := by
  intro s hs
  cases s with
  | index i => trivial
  | field name =>
    have hnames : ∀ name ∈ fieldNames, Step.Legible (.field name) := by decide
    exact hnames name (h name hs)

theorem knownFields_nil : KnownFields [] := fun _ h => absurd h List.not_mem_nil

/-- A known field leads on. -/
theorem KnownFields.field (h : KnownFields path) (hname : name ∈ fieldNames) :
    KnownFields (path ++ [.field name]) := by
  intro name' hmem
  rcases List.mem_append.1 hmem with hmem | hmem
  · exact h name' hmem
  · rw [List.mem_singleton, Step.field.injEq] at hmem
    rwa [hmem]

/-- A position in a known field leads on. -/
theorem KnownFields.item (h : KnownFields path) (hname : name ∈ fieldNames) (i : Int) :
    KnownFields (path ++ [.field name, .index i]) := by
  intro name' hmem
  refine h.field hname name' ?_
  rw [List.append_cons, List.mem_append] at hmem
  exact hmem.resolve_right (by simp)

theorem onFields_pure (a : α) : OnFields (pure a) := fun _ h => absurd h List.not_mem_nil

theorem onFields_fail (h : KnownFields path) (f : Fault) : OnFields (fail path f : Loading α) := by
  intro p hp
  rw [List.mem_singleton.1 hp]
  exact h

/-- Two steps tell of the paths of both. -/
theorem mem_paths_bind (h : path ∈ (x >>= k).paths) :
    path ∈ x.paths ∨ ∃ a, path ∈ (k a).paths := by
  cases hx : x.run.value with
  | ok a =>
    rw [paths, Logged.run_bind_of_ok hx, List.filterMap_append, List.append_assoc] at h
    rcases List.mem_append.1 h with h | h
    · exact .inl (List.mem_append_left _ h)
    · exact .inr ⟨a, h⟩
  | error e =>
    rw [paths, Logged.run_bind_of_error hx] at h
    rw [paths, hx]
    exact .inl h

/-- **Two steps keep on known fields** if both do. -/
theorem OnFields.bind (hx : OnFields x) (hk : ∀ a, OnFields (k a)) : OnFields (x >>= k) := by
  intro path hpath
  rcases mem_paths_bind hpath with hpath | ⟨a, hpath⟩
  · exact hx path hpath
  · exact hk a path hpath

theorem OnFields.map (hx : OnFields x) (g : α → β) : OnFields (g <$> x) := by
  rw [map_eq_pure_bind]
  exact hx.bind fun a => onFields_pure (g a)

/-! ## Fields -/

theorem onFields_require (h : KnownFields path) (fields : List (Text × Value)) (name : Text) :
    OnFields (require fields name path) := by
  unfold require
  split
  · exact onFields_pure _
  · exact onFields_fail h _

theorem onFields_textOf (h : KnownFields path) (hname : name ∈ fieldNames) (v : Value) :
    OnFields (textOf v name path) := by
  unfold textOf
  split
  · exact onFields_pure _
  · exact onFields_fail (h.field hname) _

theorem onFields_requireText (h : KnownFields path) (hname : name ∈ fieldNames)
    (fields : List (Text × Value)) : OnFields (requireText fields name path) :=
  (onFields_require h fields name).bind fun v => onFields_textOf h hname v

theorem onFields_optionalText (h : KnownFields path) (hname : name ∈ fieldNames)
    (fields : List (Text × Value)) : OnFields (optionalText fields name path) := by
  unfold optionalText
  split
  · exact onFields_pure _
  · exact onFields_pure _
  · exact (onFields_textOf h hname _).map _

/-- A list in a field keeps on known fields if its items do. -/
theorem onFields_listOf (h : KnownFields path) (hname : name ∈ fieldNames) {w : Option Value}
    {read : List Value → Loading (List α)}
    (hread : ∀ items, w = some (.list items) → OnFields (read items)) :
    OnFields (listOf w name path read) := by
  unfold listOf
  split
  · exact onFields_pure _
  · exact onFields_pure _
  · next items => exact hread items rfl
  · exact onFields_fail (h.field hname) _

end Loading

/-! ## Attributes and nodes -/

open Loading

variable {path : Path}

namespace Attribute

theorem onFields_ofValue (h : KnownFields path) (v : Value) :
    OnFields (Attribute.ofValue v path) := by
  unfold Attribute.ofValue
  split
  · refine (onFields_requireText h (by decide) _).bind fun name => ?_
    exact (onFields_optionalText h (by decide) _).bind fun value => onFields_pure _
  · exact onFields_fail h _

theorem onFields_ofItems (h : KnownFields path) (items : List Value) (i : Nat) :
    OnFields (Attribute.ofItems path i items) := by
  induction items generalizing i with
  | nil => exact onFields_pure _
  | cons v vs ih =>
    refine (onFields_ofValue (h.item (by decide) i) v).bind fun a => ?_
    exact (ih (i + 1)).bind fun as => onFields_pure _

theorem onFields_ofFields (h : KnownFields path) (fields : List (Text × Value)) :
    OnFields (Attribute.ofFields fields path) := by
  rw [ofFields_eq]
  exact onFields_listOf h (by decide) fun items _ => onFields_ofItems h items 0

end Attribute

namespace Node

/-- The children in a list keep on known fields if each does. A child that is left out is noted
under its own path. -/
theorem onFields_loadItems (h : KnownFields path) {items : List Value}
    (hitems : ∀ u ∈ items, ∀ path, KnownFields path → OnFields (load u path)) (i : Nat) :
    OnFields (loadItems items i path) := by
  induction items generalizing i with
  | nil => exact onFields_pure _
  | cons v vs ih =>
    have hvs := ih (fun u hu => hitems u (List.mem_cons_of_mem _ hu)) (i + 1)
    have hhere : KnownFields (path ++ [.field "children".toText, .index i]) :=
      h.item (by decide) i
    rw [loadItems]
    split
    · exact fun p hp => absurd hp List.not_mem_nil
    · split
      · refine OnFields.bind (fun p hp => ?_) fun _ => hvs
        rw [List.mem_singleton.1 hp]
        exact hhere
      · refine (hitems v List.mem_cons_self _ hhere).bind fun n => ?_
        exact hvs.bind fun ns => onFields_pure _

/-- **Loading keeps on known fields.** -/
theorem onFields_load (v : Value) (h : KnownFields path) : OnFields (load v path) := by
  induction v using Value.child_induction generalizing path with
  | step v ih =>
    cases v with
    | mapping fields =>
      have hchildren : OnFields (loadChildren fields path) := by
        rw [loadChildren_eq]
        refine onFields_listOf h (by decide) fun items hitems => ?_
        exact onFields_loadItems h (fun u hu path hpath => ih items u hitems hu hpath) 0
      rw [load]
      refine (onFields_require h fields _).bind fun type => ?_
      split
      · refine (onFields_optionalText h (by decide) fields).bind fun doctype => ?_
        exact hchildren.bind fun children => onFields_pure _
      · refine (onFields_requireText h (by decide) fields).bind fun name => ?_
        refine (Attribute.onFields_ofFields h fields).bind fun attrs => ?_
        exact hchildren.bind fun children => onFields_pure _
      · exact (onFields_optionalText h (by decide) fields).map _
      · exact (onFields_requireText h (by decide) fields).map _
      · exact onFields_fail h _
    | _ => exact onFields_fail h _

theorem onFields_ofValue (v : Value) : OnFields (ofValue v) := onFields_load v knownFields_nil

/-- A text that is no JSON has its fault at the top. -/
theorem onFields_ofJson (text : Text) : OnFields (ofJson text) := by
  unfold ofJson
  split
  · exact onFields_ofValue _
  · intro p hp
    rw [List.mem_singleton.1 hp]
    exact knownFields_nil

end Node

/-- **Locations tell legible paths apart**, whatever numbers are in them. Every path that loading
tells of, from data or from a text, leads through known fields, and such a path is legible. -/
theorem Path.location_eq_iff_of_legible :
    (∀ p q : Path, p.Legible → q.Legible → (p.location = q.location ↔ p = q)) ∧
      (∀ path, KnownFields path → path.Legible) ∧ (∀ v, OnFields (Node.ofValue v)) ∧
        ∀ text, OnFields (Node.ofJson text) := by
  refine ⟨fun p q hp hq => ⟨location_inj hp hq, ?_⟩, fun _ h => h.legible,
    Node.onFields_ofValue, Node.onFields_ofJson⟩
  rintro rfl
  rfl

/-- Two numbers and one with the digits of both, behind a name with nothing in it; then a child that
is left out, and the name of an attribute of the next child that is no text. -/
theorem Path.location_eq_iff_of_legible_numbers :
    let p : Path := [.field [], .index (-1), .index 2]
    let q : Path := [.field [], .index (-12)]
    let v : Value := .mapping [("type".toText, .string "root".toText), ("children".toText, .list
      [.mapping [("type".toText, .string "docType".toText)],
        .mapping [("type".toText, .string "element".toText), ("name".toText, .string "p".toText),
          ("attrs".toText, .list [.mapping [("name".toText, .int 1)]])]])]
    let skipped : Path := [.field "children".toText, .index 0]
    let faulty : Path := [.field "children".toText, .index 1, .field "attrs".toText, .index 0,
      .field "name".toText]
    (p.Legible ∧ q.Legible ∧ p.location = "root.[-1][2]".toText ∧
      q.location = "root.[-12]".toText ∧ p.location ≠ q.location) ∧
    (Node.ofValue v).paths = [skipped, faulty] ∧ skipped.Legible ∧ faulty.Legible ∧
      faulty.location = "root.children[1].attrs[0].name".toText := by
  intro p q v skipped faulty
  obtain ⟨hiff, hlegible, hvalue, -⟩ := location_eq_iff_of_legible
  have hp : p.Legible := by decide
  have hq : q.Legible := by decide
  have hpaths : (Node.ofValue v).paths = [skipped, faulty] := rfl
  refine ⟨⟨hp, hq, by decide, by decide, fun h => ?_⟩, hpaths, ?_, ?_, by decide⟩
  · exact absurd ((hiff p q hp hq).1 h) (by decide)
  · exact hlegible _ (hvalue v _ (by rw [hpaths]; exact List.mem_cons_self))
  · exact hlegible _ (hvalue v _ (by rw [hpaths]; exact List.mem_cons_of_mem _ List.mem_cons_self))

end TemplateLayout
