import TemplateLayout.Node.Loading

/-! # The schema of tree data
Tree data is well formed if every mapping in it has the fields that its type asks for. The rules are
a table, one row for each field in the order in which fields are read. What a value stands for
decides which rules hold for it, and from the table follow the fault that a value has by itself and
the parts of it that are looked at next.

A value that is not well formed has a first fault: a path along which everything read before is well
formed leads to a value that has a fault by itself.

* `NodeType.rules`, `Attribute.rules` — the table;
* `Place`, `Place.fault?`, `Place.parts` — what a value stands for, its own fault, its parts;
* `Place.WellFormed` — no fault, and all parts well formed;
* `Place.Leads`, `Place.FirstFault` — where a fault is that comes first;
* `Place.FirstFault.unique` — there is only one such fault;
* `Place.Leads.follow` — its path can be followed step by step.
-/

namespace TemplateLayout

open Value

/-! ## Rules -/

/-- What a field holds. -/
inductive Shape where
  /-- A text. -/
  | text
  /-- A list of attributes. -/
  | attributes
  /-- A list of nodes. -/
  | nodes
  deriving DecidableEq, Repr

/-- A **rule** for one field of a mapping. A field that is not required may be absent or null. -/
structure FieldRule where
  /-- The name of the field. -/
  name : Text
  /-- What it holds. -/
  shape : Shape
  /-- Whether it has to be there. -/
  required : Bool
  deriving DecidableEq, Repr

/-- The rule for children. -/
def FieldRule.children : FieldRule := ⟨"children".toText, .nodes, false⟩

/-- The fields of a node, in the order in which they are read. -/
def NodeType.rules : NodeType → List FieldRule
  | .root => [⟨"doctype".toText, .text, false⟩, .children]
  | .element => [⟨"name".toText, .text, true⟩, ⟨"attrs".toText, .attributes, false⟩, .children]
  | .text => [⟨"value".toText, .text, false⟩]
  | .comment => [⟨"value".toText, .text, true⟩]

/-- The fields of an attribute, in the order in which they are read. -/
def Attribute.rules : List FieldRule :=
  [⟨"name".toText, .text, true⟩, ⟨"value".toText, .text, false⟩]

/-- What a value **stands for**. -/
inductive Place where
  /-- A node. -/
  | node
  /-- An attribute. -/
  | attribute
  /-- What is in a field. -/
  | field (rule : FieldRule)

/-- A **part** of a value, with the step that leads to it and with what it stands for. -/
structure Slot where
  /-- The step. -/
  step : Step
  /-- What the part stands for. -/
  place : Place
  /-- The part. -/
  value : Value

namespace FieldRule

/-- The kinds of value that a field admits. -/
def kinds (r : FieldRule) : List Kind :=
  (if r.shape = .text then .string else .list) :: if r.required then [] else [.null]

/-- The fault of a value of the wrong kind in a field. -/
def mismatch (r : FieldRule) (got : Kind) : Fault :=
  if r.shape = .text then .notText r.name got else .notList r.name got

/-- What is wrong with the kind of a value in a field. -/
def fault? (r : FieldRule) (v : Value) : Option Fault :=
  if v.kind ∈ r.kinds then none else some (r.mismatch v.kind)

/-- The first required field that a value lacks. -/
def missing? (rules : List FieldRule) (v : Value) : Option Fault :=
  (rules.find? fun r => r.required && (v.field? r.name).isNone).map fun r => .missing r.name

/-- The parts of a value under a rule: one where the field is there, and else none. -/
def parts (v : Value) (r : FieldRule) : List Slot :=
  match v.field? r.name with
  | some w => [⟨.field r.name, .field r, w⟩]
  | none => []

end FieldRule

/-- The parts of a list that starts at position `i`. A `docType` among nodes is none of them. -/
def Shape.parts (shape : Shape) : Nat → List Value → List Slot
  | _, [] => []
  | i, v :: vs =>
    match shape with
    | .text => []
    | .attributes => ⟨.index i, .attribute, v⟩ :: shape.parts (i + 1) vs
    | .nodes =>
      if Node.isDeclaration v then shape.parts (i + 1) vs
      else ⟨.index i, .node, v⟩ :: shape.parts (i + 1) vs

namespace Place

/-- The rules for a value that stands for a node or an attribute, or why there are none. -/
def rules : Place → Value → Except Fault (List FieldRule)
  | .node, .mapping fields =>
    match lookup fields "type".toText with
    | none => .error (.missing "type".toText)
    | some type =>
      match NodeType.ofValue? type with
      | none => .error (.unknownType type)
      | some t => .ok t.rules
  | .node, v => .error (.nodeNotMapping v.kind)
  | .attribute, .mapping _ => .ok Attribute.rules
  | .attribute, v => .error (.attributeNotMapping v.kind)
  | .field _, _ => .ok []

/-- The **fault that a value has by itself**, whatever its parts are. -/
def fault? : Place → Value → Option Fault
  | .field r, v => r.fault? v
  | place, v =>
    match place.rules v with
    | .ok rules => FieldRule.missing? rules v
    | .error f => some f

/-- The **parts of a value**, in the order in which they are looked at. -/
def parts : Place → Value → List Slot
  | .field r, .list items => r.shape.parts 0 items
  | .field _, _ => []
  | place, v =>
    match place.rules v with
    | .ok rules => rules.flatMap (FieldRule.parts v)
    | .error _ => []

/-- A value is **well formed** if it has no fault by itself and its parts are well formed. -/
inductive WellFormed : Place → Value → Prop where
  /-- No fault, and none in the parts. -/
  | mk {place : Place} {v : Value} (fault : place.fault? v = none)
      (parts : ∀ part ∈ place.parts v, WellFormed part.place part.value) : WellFormed place v

/-- A path **leads** from a value to one inside it, what both stand for being known, if everything
that is looked at before is well formed. -/
inductive Leads : Place → Value → Path → Place → Value → Prop where
  /-- No step. -/
  | here (place : Place) (v : Value) : Leads place v [] place v
  /-- A step to a part, the parts before it being well formed. -/
  | step {place place' : Place} {v v' : Value} {p : Path} {before after : List Slot} {part : Slot}
      (fault : place.fault? v = none) (parts : place.parts v = before ++ part :: after)
      (sound : ∀ b ∈ before, WellFormed b.place b.value)
      (rest : Leads part.place part.value p place' v') :
      Leads place v (part.step :: p) place' v'

/-- The **first fault** of a value: a path leads to a value that has the fault by itself. -/
def FirstFault (place : Place) (v : Value) (p : Path) (f : Fault) : Prop :=
  ∃ place' v', Leads place v p place' v' ∧ place'.fault? v' = some f

end Place

/-! ## Types -/

/-- The type that a value names. -/
theorem NodeType.ofValue?_eq_some_iff {v : Value} {t : NodeType} :
    NodeType.ofValue? v = some t ↔ v = .string t.name := by
  constructor
  · intro h
    unfold ofValue? at h
    split at h
    · next s =>
      have hname := List.find?_some (p := fun t : NodeType => t.name == s) h
      rw [beq_iff_eq.1 hname]
    · simp at h
  · rintro rfl
    cases t <;> decide

namespace Place

variable {fields : List (Text × Value)} {type : Value} {t : NodeType}

theorem node_fault?_of_none (h : lookup fields "type".toText = none) :
    Place.node.fault? (.mapping fields) = some (.missing "type".toText) := by
  rw [fault?, rules, h]
  simp

theorem node_fault?_of_unknown (h : lookup fields "type".toText = some type)
    (ht : NodeType.ofValue? type = none) :
    Place.node.fault? (.mapping fields) = some (.unknownType type) := by
  simp only [fault?, rules, h, ht]

/-- The rules for a node are those of its type. -/
theorem node_rules (h : lookup fields "type".toText = some (.string t.name)) :
    Place.node.rules (.mapping fields) = .ok t.rules := by
  simp only [rules, h, NodeType.ofValue?_eq_some_iff.2 rfl]

theorem node_fault?_of_type (h : lookup fields "type".toText = some (.string t.name)) :
    Place.node.fault? (.mapping fields) = FieldRule.missing? t.rules (.mapping fields) := by
  simp only [fault?, node_rules h]

theorem node_parts (h : lookup fields "type".toText = some (.string t.name)) :
    Place.node.parts (.mapping fields) = t.rules.flatMap (FieldRule.parts (.mapping fields)) := by
  simp only [parts, node_rules h]

end Place

/-! ## First faults -/

namespace Place

variable {place place' place'' : Place} {v v' v'' : Value} {p q : Path} {f g : Fault}
  {before after : List Slot} {part : Slot}

/-- A path goes on where another ends. -/
theorem Leads.trans (h : Leads place v p place' v') (h' : Leads place' v' q place'' v'') :
    Leads place v (p ++ q) place'' v'' := by
  induction h with
  | here place v => exact h'
  | step fault parts sound _ ih => exact .step fault parts sound (ih h')

/-- The first fault of a part is that of the whole, if nothing before is wrong. -/
theorem FirstFault.step (hfault : place.fault? v = none)
    (hparts : place.parts v = before ++ part :: after)
    (hsound : ∀ b ∈ before, WellFormed b.place b.value)
    (h : FirstFault part.place part.value p f) : FirstFault place v (part.step :: p) f := by
  obtain ⟨place', v', hleads, hf⟩ := h
  exact ⟨place', v', .step hfault hparts hsound hleads, hf⟩

/-- What is well formed has no first fault. -/
theorem WellFormed.not_firstFault (h : WellFormed place v) : ¬ FirstFault place v p f := by
  rintro ⟨place', v', hleads, hf⟩
  induction hleads with
  | here place v =>
    obtain ⟨hfault, -⟩ := h
    simp [hfault] at hf
  | step fault parts sound _ ih =>
    obtain ⟨-, hparts⟩ := h
    exact ih (hparts _ (by simp [parts])) hf

/-- Two parts of a list are one, if each has a first fault and all before it is well formed. -/
theorem part_unique {before' after' : List Slot} {part' : Slot}
    (h : before ++ part :: after = before' ++ part' :: after')
    (hbefore : ∀ b ∈ before, WellFormed b.place b.value)
    (hbefore' : ∀ b ∈ before', WellFormed b.place b.value)
    (hpart : FirstFault part.place part.value p f)
    (hpart' : FirstFault part'.place part'.value q g) : part = part' := by
  induction before generalizing before' with
  | nil =>
    cases before' with
    | nil => exact (List.cons.inj h).1
    | cons b before' =>
      -- The part would be among those that are well formed.
      obtain rfl : part = b := (List.cons.inj h).1
      exact absurd hpart (hbefore' part List.mem_cons_self).not_firstFault
  | cons b before ih =>
    cases before' with
    | nil =>
      obtain rfl : b = part' := (List.cons.inj h).1
      exact absurd hpart' (hbefore b List.mem_cons_self).not_firstFault
    | cons b' before' =>
      exact ih (List.cons.inj h).2 (fun c hc => hbefore c (List.mem_cons_of_mem _ hc))
        fun c hc => hbefore' c (List.mem_cons_of_mem _ hc)

/-- **The first fault is unique.** -/
theorem FirstFault.unique (h : FirstFault place v p f) (h' : FirstFault place v q g) :
    p = q ∧ f = g := by
  obtain ⟨place₁, v₁, hleads, hf⟩ := h
  induction hleads generalizing q with
  | here place v =>
    obtain ⟨place₂, v₂, hleads', hg⟩ := h'
    cases hleads' with
    | here => exact ⟨rfl, Option.some.inj (hf.symm.trans hg)⟩
    | step fault => simp [fault] at hf
  | step fault parts sound hrest ih =>
    obtain ⟨place₂, v₂, hleads', hg⟩ := h'
    cases hleads' with
    | here => simp [fault] at hg
    | step fault' parts' sound' hrest' =>
      -- Both take their first step to the same part, and from there the induction goes on.
      obtain rfl := part_unique (parts.symm.trans parts') sound sound' ⟨_, _, hrest, hf⟩
        ⟨_, _, hrest', hg⟩
      obtain ⟨rfl, rfl⟩ := ih ⟨_, _, hrest', hg⟩ hf
      exact ⟨rfl, rfl⟩

end Place

/-! ## Following a path -/

/-- The value that **one step** leads to: a field of a mapping that is there, or a position of a
list that is within it. -/
def Value.step? : Value → Step → Option Value
  | v, .field name => v.field? name
  | .list items, .index (.ofNat i) => items[i]?
  | _, .index _ => none

/-- The value that a path **leads to**, if every step can be made. -/
def Value.follow : Value → Path → Option Value
  | v, [] => some v
  | v, s :: p => (v.step? s).bind (Value.follow · p)

/-- The parts of a list stand at their positions in it. -/
theorem Shape.step?_of_mem_parts {shape : Shape} {items all : List Value} {i : Nat} {part : Slot}
    (hall : all.drop i = items) (h : part ∈ shape.parts i items) :
    (Value.list all).step? part.step = some part.value := by
  induction items generalizing i with
  | nil => simp [parts] at h
  | cons v vs ih =>
    have hhere : (Value.list all).step? (.index i) = some v := by
      show all[i]? = some v
      rw [← List.head?_drop, hall, List.head?_cons]
    have hrest : all.drop (i + 1) = vs := by
      rw [← List.tail_drop, hall, List.tail_cons]
    cases shape with
    | text => simp [parts] at h
    | attributes =>
      rw [parts] at h
      rcases List.mem_cons.1 h with rfl | h
      · exact hhere
      · exact ih hrest h
    | nodes =>
      simp only [parts] at h
      split at h
      · exact ih hrest h
      · rcases List.mem_cons.1 h with rfl | h
        · exact hhere
        · exact ih hrest h

namespace Place

variable {place place' : Place} {v v' : Value} {p : Path} {part : Slot}

/-- One step leads to a part. -/
theorem step?_of_mem_parts (h : part ∈ place.parts v) : v.step? part.step = some part.value := by
  unfold parts at h
  split at h
  · exact Shape.step?_of_mem_parts rfl h
  · simp at h
  · split at h
    · obtain ⟨r, -, hr⟩ := List.mem_flatMap.1 h
      rw [FieldRule.parts] at hr
      split at hr
      · next w hw =>
        rw [List.mem_singleton.1 hr]
        exact hw
      · simp at hr
    · simp at h

/-- **A path that leads to a value can be followed to it.** -/
theorem Leads.follow (h : Leads place v p place' v') : v.follow p = some v' := by
  induction h with
  | here place v => rfl
  | step fault parts sound _ ih =>
    rw [Value.follow, step?_of_mem_parts (by rw [parts]; simp)]
    exact ih

end Place

end TemplateLayout
