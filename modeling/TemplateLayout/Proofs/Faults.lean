import TemplateLayout.Proofs.Encoding

/-! # Where loading fails
A failure to load is the first fault, seen from the top: its path leads to the value that has the
fault, and everything that is read before is well formed. A value that fails by itself fails in the
same way as a child, with the path of the child before its own. A type that is a list or a mapping
is the exception: of a child it is looked up too early, and the failure has no place.

* `Place.HasFault` — the fault that an error in tree data tells of, said without loading;
* `Value.Placed` — a value as a child of a node that is well formed but for it;
* `Node.value_load_eq_error_iff` — loading fails with the first fault;
* `Node.treeError_at_first_fault` — errors point at the first fault, from wherever they are seen;
* `Node.ofValue_reports_iff` — which values are loaded or reported as errors in tree data.
-/

namespace TemplateLayout

open Value

/-! ## What an error tells of -/

namespace Place

/-- The kinds of value that may stand at a place. -/
def kinds : Place → List Kind
  | .node => [.mapping]
  | .attribute => [.mapping]
  | .field r => r.kinds

/-- The fields that a value **has to have**. -/
def Requires : Place → Value → Text → Prop
  | .node, v, name => name = "type".toText ∨ ∃ t : NodeType,
      v.field? "type".toText = some (.string t.name) ∧
        ∃ r ∈ t.rules, r.required = true ∧ r.name = name
  | .attribute, _, name => ∃ r ∈ Attribute.rules, r.required = true ∧ r.name = name
  | .field _, _, _ => False

/-- A value **has the fault** that an error tells of by its code. -/
def HasFault (place : Place) (v : Value) (t : TreeError) : Prop :=
  match t.code with
  | .unknownNodeType => place = .node ∧ ∃ fields type, v = .mapping fields ∧
      lookup fields "type".toText = some type ∧ (∀ k : NodeType, type ≠ .string k.name) ∧
      t.body = "Unknown node type ".toText ++ type.literal
  | .missingField => ∃ fields name, v = .mapping fields ∧ place.Requires v name ∧
      lookup fields name = none ∧
      t.body = "Node is missing required field '".toText ++ name ++ [.char '\'']
  | .invalidField => v.kind ∉ place.kinds
  | _ => False

end Place

/-- The error in tree data that a fault at a path is. -/
def Fault.treeError (f : Fault) (path : Path) : TreeError :=
  ⟨f.message, path, f.code, f.suggestion, none⟩

/-- A composite type is complained of where a type is, and it is a list or a mapping. -/
theorem Fault.compositeKind?_ne_none_iff {f : Fault} :
    f.compositeKind? ≠ none ↔
      ∃ type, f = .unknownType type ∧ (type.kind = .list ∨ type.kind = .mapping) := by
  cases f with
  | unknownType type => cases type <;> simp [compositeKind?, Value.kind]
  | _ => simp [compositeKind?]

namespace FieldRule

variable {rules : List FieldRule} {v : Value} {f : Fault}

theorem exists_of_missing? (h : missing? rules v = some f) :
    ∃ r ∈ rules, r.required = true ∧ v.field? r.name = none ∧ f = .missing r.name := by
  obtain ⟨r, hr, rfl⟩ := Option.map_eq_some_iff.1 h
  have hlacks := List.find?_some
    (p := fun r : FieldRule => r.required && (v.field? r.name).isNone) hr
  obtain ⟨hrequired, hnone⟩ := Bool.and_eq_true_iff.1 hlacks
  exact ⟨r, List.mem_of_find?_eq_some hr, hrequired, Option.isNone_iff_eq_none.1 hnone, rfl⟩

end FieldRule

namespace Place

variable {place : Place} {v : Value} {f : Fault}

/-- The fault of a node is the one that its error tells of. -/
theorem hasFault_node (h : Place.node.fault? v = some f) (path : Path) :
    Place.node.HasFault v (f.treeError path) := by
  cases v with
  | mapping fields =>
    cases htype : lookup fields "type".toText with
    | none =>
      obtain rfl := Option.some.inj ((node_fault?_of_none htype).symm.trans h)
      exact ⟨fields, _, rfl, .inl rfl, htype, rfl⟩
    | some type =>
      cases ht : NodeType.ofValue? type with
      | none =>
        obtain rfl := Option.some.inj ((node_fault?_of_unknown htype ht).symm.trans h)
        refine ⟨rfl, fields, type, rfl, htype, fun k hk => ?_, rfl⟩
        simp [NodeType.ofValue?_eq_some_iff.2 hk] at ht
      | some t =>
        obtain rfl := NodeType.ofValue?_eq_some_iff.1 ht
        obtain ⟨r, hr, hrequired, hnone, rfl⟩ :=
          FieldRule.exists_of_missing? ((node_fault?_of_type htype).symm.trans h)
        exact ⟨fields, _, rfl, .inr ⟨t, htype, r, hr, hrequired, rfl⟩, hnone, rfl⟩
  | _ =>
    obtain rfl := Option.some.inj h
    simp [HasFault, Fault.treeError, Fault.code, kinds, Value.kind]

/-- The fault of an attribute is the one that its error tells of. -/
theorem hasFault_attribute (h : Place.attribute.fault? v = some f) (path : Path) :
    Place.attribute.HasFault v (f.treeError path) := by
  cases v with
  | mapping fields =>
    obtain ⟨r, hr, hrequired, hnone, rfl⟩ := FieldRule.exists_of_missing? h
    exact ⟨fields, _, rfl, ⟨r, hr, hrequired, rfl⟩, hnone, rfl⟩
  | _ =>
    obtain rfl := Option.some.inj h
    simp [HasFault, Fault.treeError, Fault.code, kinds, Value.kind]

/-- **A fault is the one that its error tells of.** -/
theorem hasFault_of_fault? (h : place.fault? v = some f) (path : Path) :
    place.HasFault v (f.treeError path) := by
  match place with
  | .node => exact hasFault_node h path
  | .attribute => exact hasFault_attribute h path
  | .field r =>
    rw [fault?, FieldRule.fault?] at h
    split at h
    · simp at h
    · next hkind =>
      obtain rfl := Option.some.inj h
      have hcode : (r.mismatch v.kind).code = .invalidField := by
        unfold FieldRule.mismatch
        split <;> rfl
      simp only [HasFault, Fault.treeError, hcode]
      exact hkind

end Place

/-! ## Failures -/

namespace LoadError

variable {path p : Path} {f : Fault} {t : TreeError}

/-- Which failures are errors in tree data, and which. -/
theorem treeError?_ofFault_eq_some_iff :
    (ofFault path p f).treeError? = some t ↔
      (p ≠ [] → f.compositeKind? = none) ∧ t = f.treeError (path ++ p) := by
  cases p with
  | nil =>
    rw [ofFault_nil, List.append_nil]
    simp [treeError?, Fault.treeError, eq_comm]
  | cons s p =>
    cases hkind : f.compositeKind? with
    | none =>
      rw [ofFault_of_none hkind]
      simp [treeError?, Fault.treeError, eq_comm]
    | some kind => simp [ofFault, hkind, treeError?]

end LoadError

namespace Node

/-- **Loading fails with the first fault.** -/
theorem value_load_eq_error_iff (v : Value) (path : Path) (e : LoadError) :
    (load v path).run.value = .error e ↔
      ∃ p f, Place.node.FirstFault v p f ∧ e = .ofFault path p f := by
  rcases judges_load v path with ⟨n, hn, hwell, -⟩ | ⟨p, f, hfirst, herror⟩
  · constructor
    · intro h
      exact nomatch hn.symm.trans h
    · rintro ⟨p, f, hfirst, -⟩
      exact absurd hfirst hwell.not_firstFault
  · constructor
    · intro h
      exact ⟨p, f, hfirst, Except.error.inj (h.symm.trans herror)⟩
    · rintro ⟨p', f', hfirst', rfl⟩
      obtain ⟨rfl, rfl⟩ := hfirst.unique hfirst'
      exact herror

end Node

/-! ## Children in their place -/

theorem Value.lookup_put_of_ne {fields : List (Text × Value)} {name key : Text} (w : Value)
    (h : name ≠ key) : lookup (put fields key w) name = lookup fields name := by
  induction fields with
  | nil => simp [put, lookup, h.symm]
  | cons field rest ih =>
    obtain ⟨first, old⟩ := field
    rw [put]
    by_cases hfirst : first = key
    · subst hfirst
      rw [if_pos rfl, lookup, lookup, if_neg h.symm, if_neg h.symm]
    · rw [if_neg hfirst, lookup, lookup, ih]

/-- The parts of a list are those of its front and those of the rest. -/
theorem Shape.nodes_parts_append (before after : List Value) (i : Nat) :
    Shape.nodes.parts i (before ++ after) =
      Shape.nodes.parts i before ++ Shape.nodes.parts (i + before.length) after := by
  induction before generalizing i with
  | nil => rfl
  | cons v vs ih =>
    have hlength : i + (v :: vs).length = i + 1 + vs.length := by
      simp only [List.length_cons]
      omega
    rw [List.cons_append, hlength]
    simp only [parts]
    split
    · exact ih (i + 1)
    · rw [ih (i + 1), List.cons_append]

/-- The parts of a list of nodes are its items without the `docType`s. -/
theorem Shape.mem_nodes_parts {items : List Value} {i : Nat} {part : Slot}
    (h : part ∈ Shape.nodes.parts i items) :
    part.place = .node ∧ part.value ∈ items ∧ Node.isDeclaration part.value = false := by
  induction items generalizing i with
  | nil => simp [parts] at h
  | cons v vs ih =>
    simp only [parts] at h
    split at h
    · obtain ⟨hplace, hmem, hdeclaration⟩ := ih h
      exact ⟨hplace, List.mem_cons_of_mem _ hmem, hdeclaration⟩
    · next hv =>
      rcases List.mem_cons.1 h with rfl | h
      · exact ⟨rfl, List.mem_cons_self, by simpa using hv⟩
      · obtain ⟨hplace, hmem, hdeclaration⟩ := ih h
        exact ⟨hplace, List.mem_cons_of_mem _ hmem, hdeclaration⟩

/-- A value is **placed** as child `i` of a node at `q`: the node is well formed but for its
children, of these the ones before are well formed or `docType`s, and a path leads to the node. -/
inductive Value.Placed (whole : Value) (q : Path) (i : Nat) (v : Value) : Prop where
  /-- The node is a document or an element with other children. -/
  | mk {fields : List (Text × Value)} {t : NodeType} {before after : List Value}
      (htype : lookup fields "type".toText = some (.string t.name))
      (hparent : t = .root ∨ t = .element) (hnode : Place.node.WellFormed (.mapping fields))
      (hbefore : ∀ u ∈ before, Node.isDeclaration u = true ∨ Place.node.WellFormed u)
      (hlength : before.length = i)
      (hleads : Place.node.Leads whole q .node
        (.mapping (put fields "children".toText (.list (before ++ v :: after)))))

namespace Place

variable {whole v : Value} {q p : Path} {i : Nat} {f : Fault}

/-- One step leads from a list of children to an item, if those before are well formed. -/
theorem leads_item {before after : List Value}
    (hbefore : ∀ u ∈ before, Node.isDeclaration u = true ∨ Place.node.WellFormed u)
    (hv : Node.isDeclaration v = false) :
    (Place.field .children).Leads (.list (before ++ v :: after)) [.index before.length]
      .node v := by
  have hparts : (Place.field .children).parts (.list (before ++ v :: after)) =
      Shape.nodes.parts 0 before ++ ⟨.index before.length, .node, v⟩ ::
        Shape.nodes.parts (before.length + 1) after := by
    show Shape.nodes.parts 0 (before ++ v :: after) = _
    rw [Shape.nodes_parts_append, Nat.zero_add, Shape.parts.eq_def _ _ (v :: after)]
    simp only [hv, Bool.false_eq_true, if_false]
  have hsound : ∀ b ∈ Shape.nodes.parts 0 before, b.place.WellFormed b.value := by
    intro b hb
    obtain ⟨hplace, hmem, hdeclaration⟩ := Shape.mem_nodes_parts hb
    rw [hplace]
    exact (hbefore _ hmem).resolve_left (by simp [hdeclaration])
  exact (Leads.step rfl hparts hsound (.here .node v) :)

/-- Children are read last. -/
theorem exists_rules_append {t : NodeType} (h : t = .root ∨ t = .element) :
    ∃ rules, t.rules = rules ++ [.children] ∧ ∀ r ∈ rules, r.name ≠ "children".toText := by
  rcases h with rfl | rfl
  · exact ⟨[⟨"doctype".toText, .text, false⟩], rfl, by decide⟩
  · exact ⟨[⟨"name".toText, .text, true⟩, ⟨"attrs".toText, .attributes, false⟩], rfl, by decide⟩

variable {fields : List (Text × Value)} {t : NodeType}

theorem type_put_children (htype : lookup fields "type".toText = some (.string t.name))
    (w : Value) :
    lookup (put fields "children".toText w) "type".toText = some (.string t.name) :=
  (lookup_put_of_ne w (by decide)).trans htype

/-- A node lacks the same fields with other children. -/
theorem node_fault?_put_children (htype : lookup fields "type".toText = some (.string t.name))
    (w : Value) :
    Place.node.fault? (.mapping (put fields "children".toText w)) =
      Place.node.fault? (.mapping fields) := by
  have hother (name : Text) (h : name ≠ "children".toText) :
      lookup (put fields "children".toText w) name = lookup fields name := lookup_put_of_ne w h
  rw [node_fault?_of_type htype, node_fault?_of_type (type_put_children htype w)]
  cases t <;>
    simp [FieldRule.missing?, NodeType.rules, FieldRule.children, field?, List.find?_cons,
      hother "name".toText (by decide), hother "value".toText (by decide)]

/-- A node has the same parts with other children, but for these. -/
theorem exists_parts_put_children (htype : lookup fields "type".toText = some (.string t.name))
    (hparent : t = .root ∨ t = .element) (w : Value) :
    ∃ others, Place.node.parts (.mapping (put fields "children".toText w)) =
        others ++ [⟨.field "children".toText, .field .children, w⟩] ∧
      ∀ part ∈ others, part ∈ Place.node.parts (.mapping fields) := by
  obtain ⟨rules, hrules, hnames⟩ := exists_rules_append hparent
  rw [node_parts htype, node_parts (type_put_children htype w), hrules, List.flatMap_append,
    List.flatMap_append, List.flatMap_singleton]
  have hothers : rules.flatMap (FieldRule.parts (.mapping (put fields "children".toText w))) =
      rules.flatMap (FieldRule.parts (.mapping fields)) := by
    refine List.flatMap_congr fun r hr => ?_
    have hfield : (Value.mapping (put fields "children".toText w)).field? r.name =
        (Value.mapping fields).field? r.name := lookup_put_of_ne w (hnames r hr)
    rw [FieldRule.parts, FieldRule.parts, hfield]
  have hchildren : FieldRule.children.parts (.mapping (put fields "children".toText w)) =
      [⟨.field "children".toText, .field .children, w⟩] := by
    have hfield : (Value.mapping (put fields "children".toText w)).field?
        FieldRule.children.name = some w := lookup_put_self fields _ w
    rw [FieldRule.parts, hfield]
    rfl
  exact ⟨_, by rw [hothers, hchildren], fun part hpart => List.mem_append_left _ hpart⟩

/-- One step leads from a node to its children, if it is well formed with others. -/
theorem leads_children (htype : lookup fields "type".toText = some (.string t.name))
    (hparent : t = .root ∨ t = .element) (hnode : Place.node.WellFormed (.mapping fields))
    (w : Value) :
    Place.node.Leads (.mapping (put fields "children".toText w)) [.field "children".toText]
      (.field .children) w := by
  obtain ⟨hfault, hsound⟩ := hnode
  obtain ⟨others, hparts, hothers⟩ := exists_parts_put_children htype hparent w
  exact (Leads.step ((node_fault?_put_children htype w).trans hfault) hparts
    (fun part hpart => hsound part (hothers part hpart)) (.here _ w) :)

/-- A path leads to a child that is placed, unless it is a `docType`. -/
theorem leads_of_placed (h : whole.Placed q i v) (hv : Node.isDeclaration v = false) :
    Place.node.Leads whole (q ++ [.field "children".toText, .index i]) .node v := by
  obtain @⟨fields, t, before, after, htype, hparent, hnode, hbefore, rfl, hleads⟩ := h
  exact hleads.trans ((leads_children htype hparent hnode _).trans (leads_item hbefore hv))

/-- What a path leads to has its first fault further along. -/
theorem FirstFault.of_leads {place place' : Place} (h : place.Leads whole q place' v)
    (hv : place'.FirstFault v p f) : place.FirstFault whole (q ++ p) f := by
  obtain ⟨place'', u, hleads, hf⟩ := hv
  exact ⟨place'', u, h.trans hleads, hf⟩

end Place

/-! ## The laws -/

namespace Node

variable {v : Value} {p : Path} {f : Fault} {e : LoadError} {t : TreeError}

/-- A child of a document is placed, if the children before it are well formed. -/
theorem placed_in_root (before after : List Value)
    (hbefore : ∀ u ∈ before, isDeclaration u = true ∨ Place.node.WellFormed u) :
    (Value.mapping [("type".toText, .string "root".toText),
      ("children".toText, .list (before ++ v :: after))]).Placed [] before.length v := by
  have hroot : Place.node.WellFormed (.mapping [("type".toText, .string "root".toText)]) :=
    (exists_value_load_iff _ []).1 ⟨.document none [], rfl⟩
  exact .mk (t := .root) rfl (.inl rfl) hroot hbefore rfl (.here ..)

/-- An error in tree data is the first fault. -/
theorem exists_firstFault (h : (ofValue v).run.value = .error e) (ht : e.treeError? = some t) :
    ∃ f, Place.node.FirstFault v t.path f ∧ t = f.treeError t.path ∧
      (t.path ≠ [] → f.compositeKind? = none) := by
  obtain ⟨p, f, hfirst, rfl⟩ := (value_load_eq_error_iff v [] e).1 h
  obtain ⟨hkind, rfl⟩ := LoadError.treeError?_ofFault_eq_some_iff.1 ht
  exact ⟨f, hfirst, rfl, hkind⟩

/-- A first fault at the top of a value complains of a composite type only where it has one. -/
theorem compositeKind?_of_firstFault (hv : compositeType? v = none)
    (h : Place.node.FirstFault v [] f) : f.compositeKind? = none := by
  obtain ⟨place, u, hleads, hf⟩ := h
  cases hleads with
  | here =>
    rw [compositeType?_eq, hf] at hv
    exact hv

/-- **Errors point at the first fault.** The path of an error in tree data can be followed to a
value that has the fault the error tells of, and all that is read before is well formed. A value
that fails with an error fails with the same error as a child, its path behind that of the child,
unless it is a `docType`, which is left out, or its type is a list or a mapping. -/
theorem treeError_at_first_fault :
    (∀ v e t, (ofValue v).run.value = .error e → e.treeError? = some t →
      ∃ place u, v.follow t.path = some u ∧ Place.node.Leads v t.path place u ∧
        place.HasFault u t) ∧
    ∀ whole q (i : Nat) v e t, whole.Placed q i v → isDeclaration v = false →
      compositeType? v = none → (ofValue v).run.value = .error e → e.treeError? = some t →
      ∃ e', (ofValue whole).run.value = .error e' ∧ e'.treeError? = some
        { t with path := q ++ .field "children".toText :: .index i :: t.path } := by
  constructor
  · intro v e t h ht
    obtain ⟨f, ⟨place, u, hleads, hf⟩, hf', -⟩ := exists_firstFault h ht
    refine ⟨place, u, hleads.follow, hleads, ?_⟩
    rw [hf']
    exact Place.hasFault_of_fault? hf t.path
  · intro whole q i v e t hplaced hdeclaration hcomposite h ht
    obtain ⟨f, hfirst, hf, hkind⟩ := exists_firstFault h ht
    have hkind : f.compositeKind? = none := by
      by_cases hpath : t.path = []
      · rw [hpath] at hfirst
        exact compositeKind?_of_firstFault hcomposite hfirst
      · exact hkind hpath
    -- The fault is the first one of the whole too, further along the path to the child.
    have hwhole := hfirst.of_leads (Place.leads_of_placed hplaced hdeclaration)
    refine ⟨_, (value_load_eq_error_iff whole [] _).2 ⟨_, f, hwhole, rfl⟩, ?_⟩
    rw [LoadError.treeError?_ofFault_eq_some_iff]
    refine ⟨fun _ => hkind, ?_⟩
    rw [hf]
    simp [Fault.treeError]

/-- A text whose value is a number, behind a `docType` in a document. -/
theorem treeError_at_first_fault_number :
    let v : Value := .mapping [("type".toText, .string "text".toText), ("value".toText, .int 1)]
    let declaration : Value := .mapping [("type".toText, .string "docType".toText)]
    let whole : Value := .mapping [("type".toText, .string "root".toText),
      ("children".toText, .list [declaration, v])]
    ∃ e t, (ofValue v).run.value = .error e ∧ e.treeError? = some t ∧
      t.path = [.field "value".toText] ∧ t.code = .invalidField ∧
      (∃ place u, v.follow t.path = some u ∧ Place.node.Leads v t.path place u ∧
        place.HasFault u t) ∧
      whole.Placed [] 1 v ∧ isDeclaration v = false ∧ compositeType? v = none ∧
      ∃ e', (ofValue whole).run.value = .error e' ∧ e'.treeError? = some
        { t with path := [.field "children".toText, .index 1, .field "value".toText] } := by
  intro v declaration whole
  have hv : (ofValue v).run.value = .error
      (.malformed [.field "value".toText] (.notText "value".toText .int)) := rfl
  have hplaced : whole.Placed [] 1 v := by
    refine placed_in_root [declaration] [] fun u hu => ?_
    exact .inl (List.mem_singleton.1 hu ▸ rfl)
  exact ⟨_, _, hv, rfl, rfl, rfl, treeError_at_first_fault.1 v _ _ hv rfl, hplaced, rfl, rfl,
    treeError_at_first_fault.2 whole [] 1 v _ _ hplaced rfl rfl hv rfl⟩

/-- **A `docType` fails by itself, but not as a child.** -/
theorem declaration_fails_alone :
    let v : Value := .mapping [("type".toText, .string "docType".toText)]
    let whole : Value := .mapping [("type".toText, .string "root".toText),
      ("children".toText, .list [v])]
    (∃ e t, (ofValue v).run.value = .error e ∧ e.treeError? = some t) ∧ whole.Placed [] 0 v ∧
      (ofValue whole).run.value = .ok (.document none []) := by
  intro v whole
  exact ⟨⟨_, _, rfl, rfl⟩, placed_in_root [] [] nofun, rfl⟩

/-- **Loading reports every malformed tree as an error in tree data**, unless the first fault is the
type of a node below the top, and that type is a list or a mapping. -/
theorem ofValue_reports_iff (v : Value) :
    ((∃ n, (ofValue v).run.value = .ok n) ∨
        ∃ e t, (ofValue v).run.value = .error e ∧ e.treeError? = some t) ↔
      ¬ ∃ p type, p ≠ [] ∧ Place.node.FirstFault v p (.unknownType type) ∧
        (type.kind = .list ∨ type.kind = .mapping) := by
  rcases judges_load v [] with ⟨n, hn, hwell, -⟩ | ⟨p, f, hfirst, herror⟩
  · refine iff_of_true (.inl ⟨n, hn⟩) ?_
    rintro ⟨p, type, -, hfirst, -⟩
    exact hwell.not_firstFault hfirst
  · constructor
    · rintro (⟨n, hn⟩ | ⟨e, t, he, ht⟩) ⟨p', type, hp, hfirst', hkind⟩
      · exact nomatch herror.symm.trans hn
      · obtain ⟨rfl, rfl⟩ := hfirst.unique hfirst'
        obtain rfl := Except.error.inj (herror.symm.trans he)
        have hnone := (LoadError.treeError?_ofFault_eq_some_iff.1 ht).1 hp
        exact Fault.compositeKind?_ne_none_iff.2 ⟨type, rfl, hkind⟩ hnone
    · intro hnot
      refine .inr ⟨_, f.treeError ([] ++ p), herror, ?_⟩
      refine LoadError.treeError?_ofFault_eq_some_iff.2 ⟨fun hp => ?_, rfl⟩
      by_contra hkind
      obtain ⟨type, rfl, htype⟩ := Fault.compositeKind?_ne_none_iff.1 hkind
      exact hnot ⟨p, type, hp, hfirst, htype⟩

/-- **A list as the type of a child is no error in tree data**, though it is one as the type of the
value itself. -/
theorem composite_type_escapes :
    let v : Value := .mapping [("type".toText, .list [])]
    let whole : Value := .mapping [("type".toText, .string "root".toText),
      ("children".toText, .list [v])]
    (∃ e t, (ofValue v).run.value = .error e ∧ e.treeError? = some t) ∧
      ∃ e, (ofValue whole).run.value = .error e ∧ e.treeError? = none :=
  ⟨⟨_, _, rfl, rfl⟩, _, rfl, rfl⟩

end Node

end TemplateLayout
