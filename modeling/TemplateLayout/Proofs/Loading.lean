import Mathlib.Data.List.Forall2
import TemplateLayout.Proofs.Logged
import TemplateLayout.Proofs.Schema

/-! # What loads
Loading judges a value rightly: it gives a tree where the value is well formed, the tree that the
value describes, and else it fails with the first fault. Every step of loading is judged in this way
against the parts that it reads, and the steps put together are judged against all of these parts.

* `Value.Describes` — the tree that a value describes;
* `LoadError.ofFault` — the failure that a first fault is;
* `Loading.Judges`, `Loading.JudgesParts` — right judgement of a value, and of parts of one;
* `Node.judges_load` — loading judges every value rightly.
-/

namespace TemplateLayout

open Value

/-! ## Descriptions -/

namespace Value

/-- What a field that may be absent or null **tells**: nothing then, and else its text. -/
inductive TellsText (v : Value) (name : Text) : Option Text → Prop where
  /-- The field is absent. -/
  | absent (h : v.field? name = none) : TellsText v name none
  /-- The field is null. -/
  | null (h : v.field? name = some .null) : TellsText v name none
  /-- The field is a text. -/
  | text {s : Text} (h : v.field? name = some (.string s)) : TellsText v name (some s)

/-- The items that a field **lists**: none where it is absent or null. -/
inductive Lists (v : Value) (name : Text) : List Value → Prop where
  /-- The field is absent. -/
  | absent (h : v.field? name = none) : Lists v name []
  /-- The field is null. -/
  | null (h : v.field? name = some .null) : Lists v name []
  /-- The field is a list. -/
  | list {items : List Value} (h : v.field? name = some (.list items)) : Lists v name items

/-- A value **describes an attribute** with the same name and value. -/
structure DescribesAttribute (v : Value) (a : Attribute) : Prop where
  /-- The name is there and is a text. -/
  name : v.field? "name".toText = some (.string a.name)
  /-- The value may be absent or null. -/
  value : v.TellsText "value".toText a.value

mutual

/-- A value **describes a node** with the same fields. Fields that the type does not ask for have no
part in it. -/
inductive Describes : Value → Node → Prop where
  /-- A document. -/
  | root {v : Value} {doctype : Option Text} {items : List Value} {children : List Node}
      (htype : v.field? "type".toText = some (.string "root".toText))
      (hdoctype : v.TellsText "doctype".toText doctype)
      (hitems : v.Lists "children".toText items) (hchildren : DescribesAll items children) :
      Describes v (.document doctype children)
  /-- An element. -/
  | element {v : Value} {name : Text} {pairs items : List Value} {attrs : List Attribute}
      {children : List Node} (htype : v.field? "type".toText = some (.string "element".toText))
      (hname : v.field? "name".toText = some (.string name))
      (hpairs : v.Lists "attrs".toText pairs)
      (hattrs : List.Forall₂ DescribesAttribute pairs attrs)
      (hitems : v.Lists "children".toText items) (hchildren : DescribesAll items children) :
      Describes v (.element name attrs children)
  /-- A text. -/
  | text {v : Value} {value : Option Text}
      (htype : v.field? "type".toText = some (.string "text".toText))
      (hvalue : v.TellsText "value".toText value) : Describes v (.text value)
  /-- A comment. -/
  | comment {v : Value} {value : Text}
      (htype : v.field? "type".toText = some (.string "comment".toText))
      (hvalue : v.field? "value".toText = some (.string value)) : Describes v (.comment value)

/-- Values **describe nodes** in the same order. A `docType` among them describes none. -/
inductive DescribesAll : List Value → List Node → Prop where
  /-- Nothing is left. -/
  | nil : DescribesAll [] []
  /-- A `docType` is left out. -/
  | declaration {v : Value} {vs : List Value} {ns : List Node} (h : Node.isDeclaration v = true)
      (hrest : DescribesAll vs ns) : DescribesAll (v :: vs) ns
  /-- A value describes a node. -/
  | node {v : Value} {vs : List Value} {n : Node} {ns : List Node} (h : Describes v n)
      (hrest : DescribesAll vs ns) : DescribesAll (v :: vs) (n :: ns)

end

/-! ## Children -/

variable {v w : Value} {fields : List (Text × Value)} {name : Text}

theorem sizeOf_lt_of_lookup (h : lookup fields name = some w) : sizeOf w < sizeOf fields := by
  induction fields with
  | nil => simp [lookup] at h
  | cons field rest ih =>
    obtain ⟨key, value⟩ := field
    rw [lookup] at h
    split at h
    · obtain rfl : value = w := Option.some.inj h
      simp only [List.cons.sizeOf_spec, Prod.mk.sizeOf_spec]
      omega
    · have := ih h
      simp only [List.cons.sizeOf_spec]
      omega

theorem sizeOf_lt_of_field? (h : v.field? name = some w) : sizeOf w < sizeOf v := by
  unfold field? at h
  split at h
  · have := sizeOf_lt_of_lookup h
    simp only [mapping.sizeOf_spec]
    omega
  · simp at h

/-- **Induction over children**: what holds of a value if it holds of the items of its children
holds of every value. -/
@[elab_as_elim]
theorem child_induction {motive : Value → Prop}
    (step : ∀ v, (∀ items u, v.field? "children".toText = some (.list items) → u ∈ items →
      motive u) → motive v) (v : Value) : motive v :=
  step v fun _ u _hitems _hu => child_induction step u
termination_by sizeOf v
decreasing_by
  have hlist := sizeOf_lt_of_field? _hitems
  have hitem := List.sizeOf_lt_of_mem _hu
  simp only [list.sizeOf_spec] at hlist
  omega

end Value

/-! ## Judgements -/

/-- The kind of the type that a fault complains of, where that is a list or a mapping. -/
def Fault.compositeKind? : Fault → Option Kind
  | .unknownType (.list _) => some .list
  | .unknownType (.mapping _) => some .mapping
  | _ => none

/-- **The failure that a first fault is**, if it lies along `p` from the value at `path`. A list or
a mapping as the type of a child is met before the child is looked at, so it has no place. -/
def LoadError.ofFault (path p : Path) (f : Fault) : LoadError :=
  match f.compositeKind?, p with
  | some kind, _ :: _ => .compositeType kind
  | _, _ => .malformed (path ++ p) f

namespace LoadError

variable {path p : Path} {f : Fault} {s : Step}

theorem ofFault_nil (path : Path) (f : Fault) : ofFault path [] f = .malformed path f := by
  unfold ofFault
  split
  · next h => simp at h
  · rw [List.append_nil]

theorem ofFault_of_none (h : f.compositeKind? = none) (path p : Path) :
    ofFault path p f = .malformed (path ++ p) f := by
  unfold ofFault
  rw [h]

/-- A fault further inside is the same failure, seen from one step further out. -/
theorem ofFault_step (h : p = [] → f.compositeKind? = none) (path : Path) (s : Step) :
    ofFault (path ++ [s]) p f = ofFault path (s :: p) f := by
  cases hkind : f.compositeKind? with
  | none =>
    rw [ofFault_of_none hkind, ofFault_of_none hkind, List.append_assoc]
    rfl
  | some kind =>
    cases p with
    | nil => simp [h rfl] at hkind
    | cons s' p =>
      unfold ofFault
      rw [hkind]

end LoadError

namespace Loading

variable {α β : Type}

/-- A computation **judges a value rightly**, the value being at `path` and standing for `place`: it
gives a good result if the value is well formed, and else it fails with the first fault. -/
def Judges (x : Loading α) (place : Place) (v : Value) (path : Path) (Good : α → Prop) : Prop :=
  (∃ a, x.run.value = .ok a ∧ place.WellFormed v ∧ Good a) ∨
    ∃ p f, place.FirstFault v p f ∧ x.run.value = .error (.ofFault path p f)

/-- A computation **judges parts rightly**, parts of one value at `path`: it gives a good result if
all are well formed, and else it fails with the first fault in them. -/
def JudgesParts (x : Loading α) (parts : List Slot) (path : Path) (Good : α → Prop) : Prop :=
  (∃ a, x.run.value = .ok a ∧ (∀ part ∈ parts, part.place.WellFormed part.value) ∧ Good a) ∨
    ∃ before part after p f, parts = before ++ part :: after ∧
      (∀ b ∈ before, b.place.WellFormed b.value) ∧ part.place.FirstFault part.value p f ∧
      x.run.value = .error (.ofFault path (part.step :: p) f)

variable {x : Loading α} {k : α → Loading β} {place : Place} {v : Value} {path : Path}
  {Good : α → Prop} {Good' : β → Prop} {parts parts' : List Slot} {f : Fault}

/-- A value with a fault by itself is judged by failing with it. -/
theorem judges_of_fault (hf : place.fault? v = some f)
    (hx : x.run.value = .error (.malformed path f)) : Judges x place v path Good :=
  .inr ⟨[], f, ⟨place, v, .here place v, hf⟩, by rw [LoadError.ofFault_nil, hx]⟩

/-- A value without a fault by itself is judged by its parts. -/
theorem JudgesParts.judges (h : JudgesParts x (place.parts v) path Good)
    (hf : place.fault? v = none) : Judges x place v path Good := by
  rcases h with ⟨a, hx, hparts, ha⟩ | ⟨before, part, after, p, f, hparts, hsound, hfirst, hx⟩
  · exact .inl ⟨a, hx, ⟨hf, hparts⟩, ha⟩
  · exact .inr ⟨part.step :: p, f, hfirst.step hf hparts hsound, hx⟩

/-- One part is judged as the value that it is, unless a composite type is complained of. -/
theorem Judges.part {s : Step} (h : Judges x place v (path ++ [s]) Good)
    (hf : ∀ f, place.fault? v = some f → f.compositeKind? = none) :
    JudgesParts x [⟨s, place, v⟩] path Good := by
  rcases h with ⟨a, hx, hv, ha⟩ | ⟨p, f, hfirst, hx⟩
  · refine .inl ⟨a, hx, ?_, ha⟩
    simpa using hv
  · refine .inr ⟨[], ⟨s, place, v⟩, [], p, f, rfl, by simp, hfirst, ?_⟩
    rw [hx, LoadError.ofFault_step]
    rintro rfl
    obtain ⟨place', v', hleads, hfault⟩ := hfirst
    cases hleads with
    | here => exact hf f hfault

/-- A judgement is right about less. -/
theorem Judges.imp {Good₁ : α → Prop} (h : Judges x place v path Good)
    (hgood : ∀ a, Good a → Good₁ a) : Judges x place v path Good₁ := by
  rcases h with ⟨a, hx, hv, ha⟩ | hfails
  · exact .inl ⟨a, hx, hv, hgood a ha⟩
  · exact .inr hfails

theorem JudgesParts.imp {Good₁ : α → Prop} (h : JudgesParts x parts path Good)
    (hgood : ∀ a, Good a → Good₁ a) : JudgesParts x parts path Good₁ := by
  rcases h with ⟨a, hx, hv, ha⟩ | hfails
  · exact .inl ⟨a, hx, hv, hgood a ha⟩
  · exact .inr hfails

/-- A last step that only puts the result together judges nothing more. -/
theorem Judges.map (h : Judges x place v path Good) {g : α → β}
    (hg : ∀ a, Good a → Good' (g a)) : Judges (g <$> x) place v path Good' := by
  rw [map_eq_pure_bind]
  rcases h with ⟨a, hx, hv, ha⟩ | ⟨p, f, hfirst, hx⟩
  · exact .inl ⟨g a, Logged.value_bind_of_ok hx _, hv, hg a ha⟩
  · exact .inr ⟨p, f, hfirst, Logged.value_bind_of_error hx _⟩

/-- What gives a good result without looking at anything judges no parts rightly. -/
theorem judgesParts_nil {a : α} (hx : x.run.value = .ok a) (ha : Good a) :
    JudgesParts x [] path Good :=
  .inl ⟨a, hx, by simp, ha⟩

/-- **Two steps judge the parts of both**, those of the first before those of the second. -/
theorem JudgesParts.bind (hx : JudgesParts x parts path Good)
    (hk : ∀ a, Good a → JudgesParts (k a) parts' path Good') :
    JudgesParts (x >>= k) (parts ++ parts') path Good' := by
  rcases hx with ⟨a, hx, hparts, ha⟩ | ⟨before, part, after, p, f, rfl, hsound, hfirst, hx⟩
  -- Behind a step that succeeds, all its parts count among those that come before.
  · rcases hk a ha with
      ⟨b, hb, hparts', hgood⟩ | ⟨before, part, after, p, f, rfl, hsound, hfirst, hb⟩
    · refine .inl ⟨b, by rw [Logged.value_bind_of_ok hx, hb], fun part hpart => ?_, hgood⟩
      exact (List.mem_append.1 hpart).elim (hparts part) (hparts' part)
    · refine .inr ⟨parts ++ before, part, after, p, f, by simp, fun b hmem => ?_, hfirst,
        by rw [Logged.value_bind_of_ok hx, hb]⟩
      exact (List.mem_append.1 hmem).elim (hparts b) (hsound b)
  · exact .inr ⟨before, part, after ++ parts', p, f, by simp, hsound, hfirst,
      Logged.value_bind_of_error hx k⟩

/-! ## Fields -/

variable {fields : List (Text × Value)} {r : FieldRule} {w : Value} {name : Text}

/-- Nothing in a field is a composite type. -/
theorem compositeKind?_of_fault? (h : r.fault? w = some f) : f.compositeKind? = none := by
  unfold FieldRule.fault? at h
  split at h
  · simp at h
  · obtain rfl := Option.some.inj h
    unfold FieldRule.mismatch
    split <;> rfl

/-- A field that is missing is no composite type. -/
theorem compositeKind?_of_missing? {rules : List FieldRule}
    (h : FieldRule.missing? rules v = some f) : f.compositeKind? = none := by
  obtain ⟨r, -, rfl⟩ := Option.map_eq_some_iff.1 h
  rfl

/-- A field is judged by its absence, or as the value that is in it. -/
theorem judgesParts_field (habsent : v.field? r.name = none → ∃ a, x.run.value = .ok a ∧ Good a)
    (hthere : ∀ w, v.field? r.name = some w →
      Judges x (.field r) w (path ++ [.field r.name]) Good) :
    JudgesParts x (r.parts v) path Good := by
  cases hw : v.field? r.name with
  | none =>
    obtain ⟨a, hx, ha⟩ := habsent hw
    rw [FieldRule.parts, hw]
    exact judgesParts_nil hx ha
  | some w =>
    rw [FieldRule.parts, hw]
    exact (hthere w hw).part fun f hf => compositeKind?_of_fault? hf

/-- A text is judged by its kind; null is none unless it is allowed. -/
theorem judges_textOf {required : Bool} (h : w = .null → required = true) (name : Text)
    (path : Path) :
    Judges (textOf w name path) (.field ⟨name, .text, required⟩) w (path ++ [.field name])
      fun s => w = .string s := by
  have hfault (hw : w.kind ≠ .string) (hnull : w.kind = .null → required = true) :
      (Place.field ⟨name, .text, required⟩).fault? w = some (.notText name w.kind) := by
    refine if_neg fun hmem => ?_
    cases required <;> simp_all [FieldRule.kinds]
  cases w with
  | string s => exact .inl ⟨s, rfl, ⟨rfl, nofun⟩, rfl⟩
  | null => exact judges_of_fault (hfault nofun fun _ => h rfl) rfl
  | _ => exact judges_of_fault (hfault nofun nofun) rfl

/-- A field that is there and has to be a text is judged rightly. -/
theorem judgesParts_requireText (hw : lookup fields name = some w) (path : Path) :
    JudgesParts (requireText fields name path)
      (FieldRule.parts (.mapping fields) ⟨name, .text, true⟩) path
      fun s => lookup fields name = some (.string s) := by
  have hread : requireText fields name path = textOf w name path := by
    rw [requireText, require, hw, pure_bind]
  refine judgesParts_field (fun habsent => ?_) fun w' hw' => ?_
  · exact absurd (hw.symm.trans habsent) (by simp)
  · obtain rfl : w = w' := Option.some.inj (hw.symm.trans hw')
    rw [hread]
    refine (judges_textOf (fun _ => rfl) name path).imp fun s hs => ?_
    rw [hw, hs]

/-- A field that has to be there fails where it is not. -/
theorem value_requireText_of_none (hw : lookup fields name = none) (path : Path) :
    (requireText fields name path).run.value = .error (.malformed path (.missing name)) := by
  have hrequire :
      (require fields name path).run.value = .error (.malformed path (.missing name)) := by
    rw [require, hw]
    rfl
  exact Logged.value_bind_of_error hrequire _

/-- A field that may be a text is judged rightly. -/
theorem judgesParts_optionalText (fields : List (Text × Value)) (name : Text) (path : Path) :
    JudgesParts (optionalText fields name path)
      (FieldRule.parts (.mapping fields) ⟨name, .text, false⟩) path
      ((Value.mapping fields).TellsText name) := by
  refine judgesParts_field (fun habsent => ⟨none, ?_, .absent habsent⟩) fun w hw => ?_
  · rw [optionalText, show lookup fields name = none from habsent]
    rfl
  by_cases hnull : w = .null
  · subst hnull
    refine .inl ⟨none, ?_, ⟨rfl, nofun⟩, .null hw⟩
    rw [optionalText, show lookup fields name = some .null from hw]
    rfl
  · have hread : optionalText fields name path = some <$> textOf w name path := by
      rw [optionalText, show lookup fields name = some w from hw]
      cases w with
      | null => exact absurd rfl hnull
      | _ => rfl
    rw [hread]
    refine (judges_textOf (fun h => absurd h hnull) name path).map fun s hs => ?_
    exact .text (hs ▸ hw)

/-- A list in a field, `read` by its items. It is empty where the field is absent or null. -/
def listOf (w : Option Value) (name : Text) (path : Path) (read : List Value → Loading (List α)) :
    Loading (List α) :=
  match w with
  | none | some .null => pure []
  | some (.list items) => read items
  | some v => fail (path ++ [.field name]) (.notList name v.kind)

/-- A field that may be a list is judged rightly if its items are. -/
theorem judgesParts_listOf {read : List Value → Loading (List α)}
    {GoodItems : List Value → List α → Prop} (hshape : r.shape ≠ .text)
    (hrequired : r.required = false) (hnil : GoodItems [] [])
    (hread : ∀ items, lookup fields r.name = some (.list items) →
      JudgesParts (read items) (r.shape.parts 0 items) (path ++ [.field r.name])
        (GoodItems items)) :
    JudgesParts (listOf (lookup fields r.name) r.name path read) (r.parts (.mapping fields)) path
      fun as => ∃ items, (Value.mapping fields).Lists r.name items ∧ GoodItems items as := by
  refine judgesParts_field (fun habsent => ⟨[], ?_, [], .absent habsent, hnil⟩) fun w hw => ?_
  · rw [show lookup fields r.name = none from habsent]
    rfl
  have hlookup : lookup fields r.name = some w := hw
  have hkinds : r.kinds = [.list, .null] := by simp [FieldRule.kinds, hshape, hrequired]
  have hfault (hlist : w.kind ≠ .list) (hnull : w.kind ≠ .null) :
      (Place.field r).fault? w = some (.notList r.name w.kind) := by
    have hw : w.kind ∉ r.kinds := by simp [hkinds, hlist, hnull]
    exact (if_neg hw).trans (congrArg some (if_neg hshape))
  rw [hlookup]
  -- Null is allowed, a list is read, and any other kind is the fault that is reported.
  cases w with
  | null => exact .inl ⟨[], rfl, ⟨if_pos (by rw [hkinds]; decide), nofun⟩, [], .null hw, hnil⟩
  | list items =>
    refine JudgesParts.judges ?_ (if_pos (by rw [hkinds]; exact List.mem_cons_self))
    exact (hread items hlookup).imp fun as has => ⟨items, .list hw, has⟩
  | _ => exact judges_of_fault (hfault nofun nofun) rfl

end Loading

/-! ## Attributes -/

namespace Attribute

open Loading

/-- **An attribute is judged rightly.** -/
theorem judges_ofValue (v : Value) (path : Path) :
    Judges (Attribute.ofValue v path) .attribute v path v.DescribesAttribute := by
  cases v with
  | mapping fields =>
    cases hname : lookup fields "name".toText with
    | none =>
      refine judges_of_fault (f := .missing "name".toText) ?_ ?_
      · simp [Place.fault?, Place.rules, Attribute.rules, FieldRule.missing?, field?, hname]
      · exact Logged.value_bind_of_error (value_requireText_of_none hname path) _
    | some w =>
      refine JudgesParts.judges ?_ ?_
      · refine (judgesParts_requireText hname path).bind fun s hs => ?_
        refine (judgesParts_optionalText fields _ path).bind fun value hvalue => ?_
        exact judgesParts_nil rfl ⟨hs, hvalue⟩
      · simp [Place.fault?, Place.rules, Attribute.rules, FieldRule.missing?, field?, hname]
  | _ => exact judges_of_fault rfl rfl

/-- An attribute is no node, so no type is complained of. -/
theorem compositeKind?_of_fault? {v : Value} {f : Fault} (h : Place.attribute.fault? v = some f) :
    f.compositeKind? = none := by
  cases v with
  | mapping fields => exact compositeKind?_of_missing? h
  | _ => rw [← Option.some.inj h]; rfl

/-- The items of a list of attributes are judged rightly. -/
theorem judgesParts_ofItems (path : Path) (items : List Value) (i : Nat) :
    JudgesParts (Attribute.ofItems path i items) (Shape.attributes.parts i items)
      (path ++ [.field "attrs".toText]) (List.Forall₂ DescribesAttribute items) := by
  induction items generalizing i with
  | nil => exact judgesParts_nil rfl .nil
  | cons v vs ih =>
    have hv := judges_ofValue v (path ++ [.field "attrs".toText] ++ [.index i])
    have hparts : Shape.attributes.parts i (v :: vs) =
        [⟨.index i, .attribute, v⟩] ++ (Shape.attributes.parts (i + 1) vs ++ []) := by
      rw [List.append_nil, Shape.parts]
      rfl
    rw [hparts, Attribute.ofItems, List.append_cons path]
    refine (hv.part fun f hf => compositeKind?_of_fault? hf).bind fun a ha => ?_
    exact (ih (i + 1)).bind fun as has => judgesParts_nil rfl (.cons ha has)

/-- The attributes of an element are a list in a field. -/
theorem ofFields_eq (fields : List (Text × Value)) (path : Path) :
    Attribute.ofFields fields path = listOf (lookup fields "attrs".toText) "attrs".toText path
      (Attribute.ofItems path 0) := by
  unfold Attribute.ofFields
  rfl

/-- The attributes of an element are judged rightly. -/
theorem judgesParts_ofFields (fields : List (Text × Value)) (path : Path) :
    JudgesParts (Attribute.ofFields fields path)
      (FieldRule.parts (.mapping fields) ⟨"attrs".toText, .attributes, false⟩) path
      fun attrs => ∃ pairs, (Value.mapping fields).Lists "attrs".toText pairs ∧
        List.Forall₂ DescribesAttribute pairs attrs := by
  rw [ofFields_eq]
  exact judgesParts_listOf (r := ⟨"attrs".toText, .attributes, false⟩) (by decide) rfl .nil
    fun items _ => judgesParts_ofItems path items 0

end Attribute

/-! ## Nodes -/

namespace Node

open Loading

variable {v : Value} {fields : List (Text × Value)}

/-- **The composite type of a child** is the one that is complained of where the child is looked at
as a node. -/
theorem compositeType?_eq (v : Value) :
    compositeType? v = (Place.node.fault? v).bind Fault.compositeKind? := by
  cases v with
  | mapping fields =>
    cases htype : lookup fields "type".toText with
    | none => simp [Place.node_fault?_of_none htype, compositeType?, field?, htype,
        Fault.compositeKind?]
    | some type =>
      cases ht : NodeType.ofValue? type with
      | none =>
        rw [Place.node_fault?_of_unknown htype ht, Option.bind_some]
        cases type <;> simp [compositeType?, field?, htype, Fault.compositeKind?]
      | some t =>
        obtain rfl := NodeType.ofValue?_eq_some_iff.1 ht
        rw [Place.node_fault?_of_type htype]
        cases hmissing : FieldRule.missing? t.rules (.mapping fields) with
        | none => simp [compositeType?, field?, htype]
        | some f => simp [compositeType?, field?, htype, compositeKind?_of_missing? hmissing]
  | _ => rfl

/-- The type of a `docType` is no list and no mapping. -/
theorem compositeType?_of_isDeclaration {v : Value} (h : isDeclaration v = true) :
    compositeType? v = none := by
  unfold isDeclaration at h
  split at h
  · next s hs => rw [compositeType?, hs]
  · simp at h

/-- The children of a mapping are a list in a field. -/
theorem loadChildren_eq (fields : List (Text × Value)) (path : Path) :
    loadChildren fields path = listOf (lookup fields "children".toText) "children".toText path
      fun items => loadItems items 0 path := by
  induction fields with
  | nil => rfl
  | cons field rest ih =>
    obtain ⟨key, v⟩ := field
    rw [loadChildren, lookup]
    split
    · cases v <;> rfl
    · exact ih

/-- The items of a list of nodes are judged rightly if each is as a node. -/
theorem judgesParts_loadItems {items : List Value} (path : Path)
    (h : ∀ u ∈ items, ∀ path, Judges (load u path) .node u path u.Describes) (i : Nat) :
    JudgesParts (loadItems items i path) (Shape.nodes.parts i items)
      (path ++ [.field "children".toText]) (DescribesAll items) := by
  induction items generalizing i with
  | nil => exact judgesParts_nil rfl .nil
  | cons v vs ih =>
    have hvs := ih (fun u hu => h u (List.mem_cons_of_mem _ hu)) (i + 1)
    have hv := h v List.mem_cons_self (path ++ [.field "children".toText] ++ [.index i])
    rw [loadItems, Shape.parts, List.append_cons path]
    cases hcomposite : compositeType? v with
    | some kind =>
      -- The list or mapping is looked up before the child is, which the schema sees as its fault.
      have hdeclaration : ¬ isDeclaration v = true := by
        intro h
        simp [compositeType?_of_isDeclaration h] at hcomposite
      rw [compositeType?_eq] at hcomposite
      obtain ⟨f, hf, hkind⟩ := Option.bind_eq_some_iff.1 hcomposite
      refine .inr ⟨[], _, _, [], f, by rw [if_neg hdeclaration]; rfl, by simp,
        ⟨.node, v, .here .node v, hf⟩, ?_⟩
      unfold LoadError.ofFault
      rw [hkind]
      rfl
    | none =>
      cases hdeclaration : isDeclaration v with
      | true =>
        simp only [if_true]
        exact hvs.imp fun ns hns => .declaration hdeclaration hns
      | false =>
        simp only [Bool.false_eq_true, if_false]
        rw [← List.singleton_append, ← List.append_nil (Shape.parts _ _ _)]
        refine (hv.part fun f hf => ?_).bind fun n hn => ?_
        · rw [compositeType?_eq, hf] at hcomposite
          exact hcomposite
        · exact hvs.bind fun ns hns => judgesParts_nil rfl (.node hn hns)

/-- The node of a type whose fields are read from a mapping. -/
def loadAs (fields : List (Text × Value)) (path : Path) : NodeType → Loading Node
  | .root => do
    let doctype ← optionalText fields "doctype".toText path
    let children ← loadChildren fields path
    pure (.document doctype children)
  | .element => do
    let name ← requireText fields "name".toText path
    let attrs ← Attribute.ofFields fields path
    let children ← loadChildren fields path
    pure (.element name attrs children)
  | .text => .text <$> optionalText fields "value".toText path
  | .comment => .comment <$> requireText fields "value".toText path

theorem load_of_type {t : NodeType} (h : lookup fields "type".toText = some (.string t.name))
    (path : Path) : load (.mapping fields) path = loadAs fields path t := by
  rw [load, require, h]
  simp only [pure_bind, NodeType.ofValue?_eq_some_iff.2 rfl]
  cases t <;> rfl

/-- A mapping of a known type is judged rightly if its children are. -/
theorem judges_load_of_type {t : NodeType}
    (htype : lookup fields "type".toText = some (.string t.name)) (path : Path)
    (hchildren : JudgesParts (loadChildren fields path)
      (FieldRule.children.parts (.mapping fields)) path fun ns => ∃ items,
        (Value.mapping fields).Lists "children".toText items ∧ DescribesAll items ns) :
    Judges (load (.mapping fields) path) .node (.mapping fields) path
      (Value.mapping fields).Describes := by
  rw [load_of_type htype]
  cases t with
  | root =>
    refine JudgesParts.judges ?_ (Place.node_fault?_of_type htype)
    rw [Place.node_parts htype]
    refine (judgesParts_optionalText fields _ path).bind fun doctype hdoctype => ?_
    refine hchildren.bind fun children ⟨items, hitems, hall⟩ => ?_
    exact judgesParts_nil rfl (.root htype hdoctype hitems hall)
  | element =>
    cases hname : lookup fields "name".toText with
    | none =>
      refine judges_of_fault (f := .missing "name".toText) ?_ ?_
      · rw [Place.node_fault?_of_type htype]
        simp [NodeType.rules, FieldRule.missing?, field?, hname]
      · exact Logged.value_bind_of_error (value_requireText_of_none hname path) _
    | some w =>
      refine JudgesParts.judges ?_ ?_
      · rw [Place.node_parts htype]
        refine (judgesParts_requireText hname path).bind fun name hname => ?_
        refine (Attribute.judgesParts_ofFields fields path).bind
          fun attrs ⟨pairs, hpairs, hattrs⟩ => ?_
        refine hchildren.bind fun children ⟨items, hitems, hall⟩ => ?_
        exact judgesParts_nil rfl (.element htype hname hpairs hattrs hitems hall)
      · rw [Place.node_fault?_of_type htype]
        simp [NodeType.rules, FieldRule.missing?, FieldRule.children, field?, hname]
  | text =>
    refine JudgesParts.judges ?_ (Place.node_fault?_of_type htype)
    rw [Place.node_parts htype, loadAs, map_eq_pure_bind]
    refine (judgesParts_optionalText fields _ path).bind fun value hvalue => ?_
    exact judgesParts_nil rfl (.text htype hvalue)
  | comment =>
    cases hvalue : lookup fields "value".toText with
    | none =>
      refine judges_of_fault (f := .missing "value".toText) ?_ ?_
      · rw [Place.node_fault?_of_type htype]
        simp [NodeType.rules, FieldRule.missing?, field?, hvalue]
      · rw [loadAs, map_eq_pure_bind]
        exact Logged.value_bind_of_error (value_requireText_of_none hvalue path) _
    | some w =>
      refine JudgesParts.judges ?_ ?_
      · rw [Place.node_parts htype, loadAs, map_eq_pure_bind]
        refine (judgesParts_requireText hvalue path).bind fun value hvalue => ?_
        exact judgesParts_nil rfl (.comment htype hvalue)
      · rw [Place.node_fault?_of_type htype]
        simp [NodeType.rules, FieldRule.missing?, field?, hvalue]

/-- **Loading judges every value rightly.** -/
theorem judges_load (v : Value) (path : Path) : Judges (load v path) .node v path v.Describes := by
  induction v using Value.child_induction generalizing path with
  | step v ih =>
    cases v with
    | mapping fields =>
      cases htype : lookup fields "type".toText with
      | none =>
        refine judges_of_fault (Place.node_fault?_of_none htype) ?_
        rw [load, require, htype]
        rfl
      | some type =>
        -- A type that is none of the four ends the loading, whatever the other fields are.
        cases ht : NodeType.ofValue? type with
        | none =>
          refine judges_of_fault (Place.node_fault?_of_unknown htype ht) ?_
          rw [load, require, htype]
          simp only [pure_bind, ht]
          rfl
        | some t =>
          obtain rfl := NodeType.ofValue?_eq_some_iff.1 ht
          refine judges_load_of_type htype path ?_
          rw [loadChildren_eq]
          refine judgesParts_listOf (r := .children) (by decide) rfl .nil fun items hitems => ?_
          exact judgesParts_loadItems path (fun u hu => ih items u hitems hu) 0
    | _ => exact judges_of_fault rfl rfl

end Node

end TemplateLayout
