import TemplateLayout.Proofs.Loading

/-! # Values that describe trees
Loading gives exactly the tree that a value describes. Every tree of markup is described by its
encoding, and a `docType` among children is no part of what a value describes.

* `Node.value_load_eq_ok_iff` — loading gives the tree that a value describes;
* `Node.encode` — the value that tells every field of a tree;
* `Value.withoutDeclarations` — a value without the `docType`s among its children;
* `Node.ofValue_mirrors_schema` — what is accepted, and what it is loaded as.
-/

namespace TemplateLayout

open Value

/-! ## Loading what is described -/

namespace Loading

variable {fields : List (Text × Value)} {name : Text}

theorem value_requireText {s : Text} (h : lookup fields name = some (.string s)) (path : Path) :
    (requireText fields name path).run.value = .ok s := by
  rw [requireText, require, h]
  rfl

theorem value_optionalText {s : Option Text} (h : (Value.mapping fields).TellsText name s)
    (path : Path) : (optionalText fields name path).run.value = .ok s := by
  unfold optionalText
  cases h with
  | absent h =>
    rw [show lookup fields name = none from h]
    rfl
  | null h =>
    rw [show lookup fields name = some .null from h]
    rfl
  | text h =>
    rw [show lookup fields name = some (.string _) from h]
    rfl

theorem value_listOf {α : Type} {items : List Value} {as : List α}
    (read : List Value → Loading (List α)) (h : (Value.mapping fields).Lists name items)
    (path : Path) (hnil : read [] = pure []) (hread : (read items).run.value = .ok as) :
    (listOf (lookup fields name) name path read).run.value = .ok as := by
  cases h with
  | absent h =>
    rw [show lookup fields name = none from h, ← hread, hnil]
    rfl
  | null h =>
    rw [show lookup fields name = some .null from h, ← hread, hnil]
    rfl
  | list h =>
    rw [show lookup fields name = some (.list items) from h]
    exact hread

end Loading

/-- Only a mapping has a field. -/
theorem Value.exists_mapping_of_field? {v w : Value} {name : Text} (h : v.field? name = some w) :
    ∃ fields, v = .mapping fields := by
  cases v with
  | mapping fields => exact ⟨fields, rfl⟩
  | _ => exact nomatch h

namespace Attribute

theorem value_ofValue {v : Value} {a : Attribute} (h : v.DescribesAttribute a) (path : Path) :
    (Attribute.ofValue v path).run.value = .ok a := by
  obtain ⟨hname, hvalue⟩ := h
  obtain ⟨fields, rfl⟩ := exists_mapping_of_field? hname
  rw [Attribute.ofValue, Logged.value_bind_of_ok (Loading.value_requireText hname path),
    Logged.value_bind_of_ok (Loading.value_optionalText hvalue path)]
  rfl

theorem value_ofItems {items : List Value} {attrs : List Attribute}
    (h : List.Forall₂ DescribesAttribute items attrs) (path : Path) (i : Nat) :
    (Attribute.ofItems path i items).run.value = .ok attrs := by
  induction h generalizing i with
  | nil => rfl
  | cons ha _ ih =>
    rw [Attribute.ofItems, Logged.value_bind_of_ok (value_ofValue ha _),
      Logged.value_bind_of_ok (ih (i + 1))]
    rfl

theorem value_ofFields {fields : List (Text × Value)} {pairs : List Value}
    {attrs : List Attribute} (hpairs : (Value.mapping fields).Lists "attrs".toText pairs)
    (hattrs : List.Forall₂ DescribesAttribute pairs attrs) (path : Path) :
    (Attribute.ofFields fields path).run.value = .ok attrs := by
  rw [ofFields_eq]
  exact Loading.value_listOf (Attribute.ofItems path 0) hpairs path rfl
    (value_ofItems hattrs path 0)

end Attribute

namespace Node

open Loading

/-- A node of a known type is no `docType`, and its type can be looked up. -/
theorem screen_of_type {v : Value} {t : NodeType}
    (h : v.field? "type".toText = some (.string t.name)) :
    compositeType? v = none ∧ isDeclaration v = false := by
  have hname : (t.name == "docType".toText) = false := by cases t <;> decide
  rw [compositeType?, isDeclaration, h]
  exact ⟨rfl, hname⟩

/-- What describes a node is no `docType`, and its type can be looked up. -/
theorem screen_of_describes {v : Value} {n : Node} (h : v.Describes n) :
    compositeType? v = none ∧ isDeclaration v = false := by
  cases h with
  | root htype => exact screen_of_type (t := .root) htype
  | element htype => exact screen_of_type (t := .element) htype
  | text htype => exact screen_of_type (t := .text) htype
  | comment htype => exact screen_of_type (t := .comment) htype

theorem value_loadChildren {fields : List (Text × Value)} {items : List Value} {ns : List Node}
    {path : Path} (h : (Value.mapping fields).Lists "children".toText items)
    (hns : (loadItems items 0 path).run.value = .ok ns) :
    (loadChildren fields path).run.value = .ok ns := by
  rw [loadChildren_eq]
  exact value_listOf (fun items => loadItems items 0 path) h path rfl hns

mutual

/-- What describes a node is loaded as that node. -/
theorem value_load {v : Value} {n : Node} (h : v.Describes n) (path : Path) :
    (load v path).run.value = .ok n := by
  match h with
  | .root htype hdoctype hitems hchildren =>
    obtain ⟨fields, rfl⟩ := exists_mapping_of_field? htype
    have hns := value_loadChildren hitems (value_loadItems hchildren path 0)
    rw [load_of_type (t := .root) htype, loadAs,
      Logged.value_bind_of_ok (value_optionalText hdoctype path), Logged.value_bind_of_ok hns]
    rfl
  | .element htype hname hpairs hattrs hitems hchildren =>
    obtain ⟨fields, rfl⟩ := exists_mapping_of_field? htype
    have hns := value_loadChildren hitems (value_loadItems hchildren path 0)
    rw [load_of_type (t := .element) htype, loadAs,
      Logged.value_bind_of_ok (value_requireText hname path),
      Logged.value_bind_of_ok (Attribute.value_ofFields hpairs hattrs path),
      Logged.value_bind_of_ok hns]
    rfl
  | .text htype hvalue =>
    obtain ⟨fields, rfl⟩ := exists_mapping_of_field? htype
    rw [load_of_type (t := .text) htype, loadAs, map_eq_pure_bind,
      Logged.value_bind_of_ok (value_optionalText hvalue path)]
    rfl
  | .comment htype hvalue =>
    obtain ⟨fields, rfl⟩ := exists_mapping_of_field? htype
    rw [load_of_type (t := .comment) htype, loadAs, map_eq_pure_bind,
      Logged.value_bind_of_ok (value_requireText hvalue path)]
    rfl

/-- What describes nodes is loaded as these nodes. -/
theorem value_loadItems {vs : List Value} {ns : List Node} (h : DescribesAll vs ns) (path : Path)
    (i : Nat) : (loadItems vs i path).run.value = .ok ns := by
  match h with
  | .nil => rfl
  | .declaration h hrest =>
    rw [loadItems, compositeType?_of_isDeclaration h]
    simp only [h, if_true]
    exact value_loadItems hrest path (i + 1)
  | .node h hrest =>
    obtain ⟨hcomposite, hdeclaration⟩ := screen_of_describes h
    rw [loadItems, hcomposite]
    simp only [hdeclaration, Bool.false_eq_true, if_false]
    rw [Logged.value_bind_of_ok (value_load h _),
      Logged.value_bind_of_ok (value_loadItems hrest path (i + 1))]
    rfl

end

/-- **Loading gives the tree that a value describes**, and nothing else. -/
theorem value_load_eq_ok_iff (v : Value) (n : Node) (path : Path) :
    (load v path).run.value = .ok n ↔ v.Describes n := by
  constructor
  · intro h
    rcases judges_load v path with ⟨m, hm, -, hdescribes⟩ | ⟨p, f, -, herror⟩
    · obtain rfl : m = n := Except.ok.inj (hm.symm.trans h)
      exact hdescribes
    · exact nomatch herror.symm.trans h
  · exact fun h => value_load h path

/-- **Loading accepts what is well formed**, and nothing else. -/
theorem exists_value_load_iff (v : Value) (path : Path) :
    (∃ n, (load v path).run.value = .ok n) ↔ Place.node.WellFormed v := by
  rcases judges_load v path with ⟨n, hn, hwell, -⟩ | ⟨p, f, hfirst, herror⟩
  · exact ⟨fun _ => hwell, fun _ => ⟨n, hn⟩⟩
  · constructor
    · rintro ⟨n, hn⟩
      exact nomatch herror.symm.trans hn
    · exact fun hwell => absurd hfirst hwell.not_firstFault

end Node

/-! ## Encoding -/

/-- A text that may be absent, as a value. -/
def Value.ofOption : Option Text → Value
  | none => .null
  | some s => .string s

/-- The value of an attribute. -/
def Attribute.encode (a : Attribute) : Value :=
  .mapping [("name".toText, .string a.name), ("value".toText, .ofOption a.value)]

namespace Node

mutual

/-- Whether a tree is all markup. -/
def isMarkup : Node → Bool
  | .element _ _ children => allMarkup children
  | .text _ => true
  | .comment _ => true
  | .document _ children => allMarkup children
  | .foreign _ => false

/-- Whether trees are all markup. -/
def allMarkup : List Node → Bool
  | [] => true
  | n :: ns => n.isMarkup && allMarkup ns

end

mutual

/-- **The value of a tree**, with all fields that its type asks for. What is no markup has none. -/
def encode : Node → Value
  | .element name attrs children =>
    .mapping [("type".toText, .string NodeType.element.name), ("name".toText, .string name),
      ("attrs".toText, .list (attrs.map Attribute.encode)),
      ("children".toText, .list (encodeAll children))]
  | .text value =>
    .mapping [("type".toText, .string NodeType.text.name), ("value".toText, .ofOption value)]
  | .comment value =>
    .mapping [("type".toText, .string NodeType.comment.name), ("value".toText, .string value)]
  | .document doctype children =>
    .mapping [("type".toText, .string NodeType.root.name), ("doctype".toText, .ofOption doctype),
      ("children".toText, .list (encodeAll children))]
  | .foreign _ => .null

/-- The values of trees. -/
def encodeAll : List Node → List Value
  | [] => []
  | n :: ns => n.encode :: encodeAll ns

end

end Node

theorem Value.TellsText.ofOption {v : Value} {name : Text} {s : Option Text}
    (h : v.field? name = some (.ofOption s)) : v.TellsText name s := by
  cases s with
  | none => exact .null h
  | some s => exact .text h

theorem Attribute.describesAttribute_encode (a : Attribute) : a.encode.DescribesAttribute a :=
  ⟨rfl, .ofOption rfl⟩

namespace Node

mutual

/-- **The encoding of a tree describes it.** -/
theorem describes_encode (n : Node) (h : n.isMarkup = true) : n.encode.Describes n := by
  match n with
  | .element name attrs children =>
    have hattrs : List.Forall₂ DescribesAttribute (attrs.map Attribute.encode) attrs := by
      rw [List.forall₂_map_left_iff, List.forall₂_same]
      exact fun a _ => Attribute.describesAttribute_encode a
    exact .element rfl rfl (.list rfl) hattrs (.list rfl) (describesAll_encodeAll children h)
  | .text value => exact .text rfl (.ofOption rfl)
  | .comment value => exact .comment rfl rfl
  | .document doctype children =>
    exact .root rfl (.ofOption rfl) (.list rfl) (describesAll_encodeAll children h)

/-- The encodings of trees describe them. -/
theorem describesAll_encodeAll (ns : List Node) (h : allMarkup ns = true) :
    DescribesAll (encodeAll ns) ns := by
  match ns with
  | [] => exact .nil
  | n :: ns =>
    obtain ⟨hn, hns⟩ := Bool.and_eq_true_iff.1 h
    exact .node (describes_encode n hn) (describesAll_encodeAll ns hns)

end

end Node

/-! ## Declarations -/

namespace Value

mutual

/-- A value **without the `docType`s** among its children, at any depth. -/
def withoutDeclarations : Value → Value
  | .mapping fields => .mapping (fieldsWithout fields)
  | v => v

/-- The fields of a mapping without the `docType`s among its children. -/
def fieldsWithout : List (Text × Value) → List (Text × Value)
  | [] => []
  | (key, v) :: rest =>
    (key, if key = "children".toText then childrenWithout v else v) :: fieldsWithout rest

/-- A list of children without its `docType`s. -/
def childrenWithout : Value → Value
  | .list items => .list (itemsWithout items)
  | v => v

/-- The items of a list of children without the `docType`s. -/
def itemsWithout : List Value → List Value
  | [] => []
  | v :: vs =>
    if Node.isDeclaration v then itemsWithout vs
    else v.withoutDeclarations :: itemsWithout vs

end

variable {v w : Value} {name : Text} {n : Node}

theorem lookup_fieldsWithout (fields : List (Text × Value)) (name : Text) :
    lookup (fieldsWithout fields) name = (lookup fields name).map fun w =>
      if name = "children".toText then childrenWithout w else w := by
  induction fields with
  | nil => rfl
  | cons field rest ih =>
    obtain ⟨key, w⟩ := field
    rw [fieldsWithout, lookup, lookup]
    by_cases hkey : key = name
    · subst hkey
      simp only [if_true, Option.map_some]
    · rw [if_neg hkey, if_neg hkey, ih]

theorem field?_withoutDeclarations (v : Value) (name : Text) :
    v.withoutDeclarations.field? name = (v.field? name).map fun w =>
      if name = "children".toText then childrenWithout w else w := by
  cases v with
  | mapping fields => exact lookup_fieldsWithout fields name
  | _ => rfl

/-- Only the children of a value change. -/
theorem field?_withoutDeclarations_of_ne (v : Value) (h : name ≠ "children".toText) :
    v.withoutDeclarations.field? name = v.field? name := by
  simp only [field?_withoutDeclarations, if_neg h, Option.map_id']

theorem isDeclaration_withoutDeclarations (v : Value) :
    Node.isDeclaration v.withoutDeclarations = Node.isDeclaration v := by
  rw [Node.isDeclaration, Node.isDeclaration, field?_withoutDeclarations_of_ne v (by decide)]

/-- What an optional text tells is told by the field alone. -/
theorem TellsText.congr {s : Option Text} (h : v.TellsText name s)
    (hfield : w.field? name = v.field? name) : w.TellsText name s := by
  cases h with
  | absent h => exact .absent (hfield.trans h)
  | null h => exact .null (hfield.trans h)
  | text h => exact .text (hfield.trans h)

/-- The items that a field lists are told by the field alone. -/
theorem Lists.congr {items : List Value} (h : v.Lists name items)
    (hfield : w.field? name = v.field? name) : w.Lists name items := by
  cases h with
  | absent h => exact .absent (hfield.trans h)
  | null h => exact .null (hfield.trans h)
  | list h => exact .list (hfield.trans h)

/-- What lists an item is a list. -/
theorem Lists.field?_of_mem {items : List Value} {u : Value} (h : v.Lists name items)
    (hu : u ∈ items) : v.field? name = some (.list items) := by
  cases h with
  | absent h => simp at hu
  | null h => simp at hu
  | list h => exact h

/-- The children that are listed without the `docType`s. -/
theorem lists_withoutDeclarations_iff {items : List Value} :
    v.withoutDeclarations.Lists "children".toText items ↔
      ∃ all, v.Lists "children".toText all ∧ items = itemsWithout all := by
  have hfield : v.withoutDeclarations.field? "children".toText =
      (v.field? "children".toText).map childrenWithout := by
    simp only [field?_withoutDeclarations, if_true]
  constructor
  · intro h
    cases h with
    | absent h =>
      exact ⟨[], .absent (Option.map_eq_none_iff.1 (hfield.symm.trans h)), rfl⟩
    | null h =>
      obtain ⟨w, hw, hnull⟩ := Option.map_eq_some_iff.1 (hfield.symm.trans h)
      cases w with
      | null => exact ⟨[], .null hw, rfl⟩
      | _ => exact nomatch hnull
    | list h =>
      obtain ⟨w, hw, hlist⟩ := Option.map_eq_some_iff.1 (hfield.symm.trans h)
      cases w with
      | list all => exact ⟨all, .list hw, (Value.list.inj hlist).symm⟩
      | _ => exact nomatch hlist
  · rintro ⟨all, h, rfl⟩
    cases h with
    | absent h => exact .absent (by rw [hfield, h]; rfl)
    | null h => exact .null (by rw [hfield, h]; rfl)
    | list h => exact .list (by rw [hfield, h]; rfl)

/-- What a value describes is told by its fields, and by its children only through what these
describe. -/
theorem Describes.congr (h : v.Describes n)
    (hfields : ∀ name, name ≠ "children".toText → w.field? name = v.field? name)
    (hchildren : ∀ items ns, v.Lists "children".toText items → DescribesAll items ns →
      ∃ items', w.Lists "children".toText items' ∧ DescribesAll items' ns) : w.Describes n := by
  cases h with
  | root htype hdoctype hitems hall =>
    obtain ⟨items', hitems', hall'⟩ := hchildren _ _ hitems hall
    exact .root ((hfields _ (by decide)).trans htype) (hdoctype.congr (hfields _ (by decide)))
      hitems' hall'
  | element htype hname hpairs hattrs hitems hall =>
    obtain ⟨items', hitems', hall'⟩ := hchildren _ _ hitems hall
    exact .element ((hfields _ (by decide)).trans htype) ((hfields _ (by decide)).trans hname)
      (hpairs.congr (hfields _ (by decide))) hattrs hitems' hall'
  | text htype hvalue =>
    exact .text ((hfields _ (by decide)).trans htype) (hvalue.congr (hfields _ (by decide)))
  | comment htype hvalue =>
    exact .comment ((hfields _ (by decide)).trans htype) ((hfields _ (by decide)).trans hvalue)

/-- Without `docType`s the same nodes are described, if that holds of every item. -/
theorem describesAll_itemsWithout_iff {items : List Value} {ns : List Node}
    (h : ∀ u ∈ items, ∀ n, u.withoutDeclarations.Describes n ↔ u.Describes n) :
    DescribesAll (itemsWithout items) ns ↔ DescribesAll items ns := by
  induction items generalizing ns with
  | nil => rfl
  | cons u us ih =>
    have hus {ns : List Node} : DescribesAll (itemsWithout us) ns ↔ DescribesAll us ns :=
      ih fun u' hu' => h u' (List.mem_cons_of_mem _ hu')
    have hu := h u List.mem_cons_self
    rw [itemsWithout]
    cases hdeclaration : Node.isDeclaration u with
    | true =>
      rw [if_pos rfl, hus]
      constructor
      · exact .declaration hdeclaration
      · intro hall
        cases hall with
        | declaration _ hrest => exact hrest
        | node hn => simp [(Node.screen_of_describes hn).2] at hdeclaration
    | false =>
      rw [if_neg (by simp)]
      constructor
      · intro hall
        cases hall with
        | declaration hd =>
          -- The type of an item is the same without what is among its children.
          rw [isDeclaration_withoutDeclarations, hdeclaration] at hd
          exact nomatch hd
        | node hn hrest => exact .node ((hu _).1 hn) (hus.1 hrest)
      · intro hall
        cases hall with
        | declaration hd => simp [hdeclaration] at hd
        | node hn hrest => exact .node ((hu _).2 hn) (hus.2 hrest)

/-- **A `docType` among children is no part of what a value describes.** -/
theorem describes_withoutDeclarations_iff (v : Value) (n : Node) :
    v.withoutDeclarations.Describes n ↔ v.Describes n := by
  induction v using child_induction generalizing n with
  | step v ih =>
    -- All fields but the children are the same, and the items describe the same by induction.
    have hitems {items : List Value} (h : v.Lists "children".toText items) {ns : List Node} :
        DescribesAll (itemsWithout items) ns ↔ DescribesAll items ns :=
      describesAll_itemsWithout_iff fun u hu => ih items u (h.field?_of_mem hu) hu
    have hfields (name : Text) (hname : name ≠ "children".toText) :=
      field?_withoutDeclarations_of_ne v hname
    constructor
    · intro h
      refine h.congr (fun name hname => (hfields name hname).symm) fun items ns hlists hall => ?_
      obtain ⟨listed, hlisted, rfl⟩ := lists_withoutDeclarations_iff.1 hlists
      exact ⟨listed, hlisted, (hitems hlisted).1 hall⟩
    · intro h
      refine h.congr hfields fun items ns hlists hall => ?_
      exact ⟨itemsWithout items, lists_withoutDeclarations_iff.2 ⟨items, hlists, rfl⟩,
        (hitems hlists).2 hall⟩

end Value

namespace Node

/-- **Loading accepts exactly the schema and mirrors it.** A tree comes of every value that is well
formed and of no other, and it is the tree that the value describes. So the encoding of a tree is
loaded as that tree, and a `docType` among children changes nothing, wherever it stands. -/
theorem ofValue_mirrors_schema :
    (∀ v, (∃ n, (ofValue v).run.value = .ok n) ↔ Place.node.WellFormed v) ∧
    (∀ v n, (ofValue v).run.value = .ok n ↔ v.Describes n) ∧
    (∀ n, n.isMarkup = true → (ofValue n.encode).run.value = .ok n) ∧
    ∀ v w n, v.withoutDeclarations = w.withoutDeclarations →
      ((ofValue v).run.value = .ok n ↔ (ofValue w).run.value = .ok n) := by
  refine ⟨fun v => exists_value_load_iff v [], fun v n => value_load_eq_ok_iff v n [],
    fun n hn => ?_, fun v w n hvw => ?_⟩
  · exact value_load (describes_encode n hn) []
  · calc (ofValue v).run.value = .ok n
      _ ↔ v.withoutDeclarations.Describes n :=
        (value_load_eq_ok_iff v n []).trans (describes_withoutDeclarations_iff v n).symm
      _ ↔ (ofValue w).run.value = .ok n := by
        rw [hvw, describes_withoutDeclarations_iff w n]
        exact (value_load_eq_ok_iff w n []).symm

/-- An element with a `docType` between its children, whose own children are no list. -/
theorem ofValue_mirrors_schema_declaration :
    let n : Node := .element "p".toText [⟨"hidden".toText, none⟩]
      [.text (some "x".toText), .comment "y".toText]
    let declaration : Value :=
      .mapping [("children".toText, .int 7), ("type".toText, .string "docType".toText)]
    let v : Value :=
      .mapping [("type".toText, .string "element".toText), ("name".toText, .string "p".toText),
        ("attrs".toText, .list [.mapping [("name".toText, .string "hidden".toText),
          ("value".toText, .null)]]),
        ("children".toText, .list [(Node.text (some "x".toText)).encode, declaration,
          (Node.comment "y".toText).encode])]
    n.isMarkup = true ∧ v.withoutDeclarations = n.encode.withoutDeclarations ∧
      (ofValue v).run.value = .ok n := by
  intro n declaration v
  have hn : n.isMarkup = true := rfl
  have hv : v.withoutDeclarations = n.encode.withoutDeclarations := by
    simp +decide [v, n, declaration, encode, encodeAll, Attribute.encode, ofOption,
      withoutDeclarations, fieldsWithout, childrenWithout, itemsWithout, isDeclaration, field?,
      lookup, NodeType.name]
  exact ⟨hn, hv, (ofValue_mirrors_schema.2.2.2 v n.encode n hv).2
    (ofValue_mirrors_schema.2.2.1 n hn)⟩

end Node

end TemplateLayout
