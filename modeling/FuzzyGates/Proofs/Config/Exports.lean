import FuzzyGates.Config.Schema
import FuzzyGates.Proofs.Session.Contents

/-!
# Exports pass the check of configurations

An export has the shape that configurations must have, so checking it finds nothing wrong.
The configuration holds the degrees of the export as numbers with a fraction, and the
trees that its serialized logic describes.

* `mappingOf_eq` — a mapping with text keys passes if its values do.
* `gateField_gateDocument`, `gatesField_toDocument` — the same for the parts of an export.
* **`ofDocument_toDocument`** — the configuration of an export.
-/

namespace FuzzyGates

/-- A gate in a configuration. -/
def GateContents.config (c : GateContents) : GateConfig :=
  ⟨c.degrees.mapEntries fun _ x => .float x, c.expression⟩

/-- The expression that is held for a gate, if any, has a serialized form. -/
def GateContents.Exportable (c : GateContents) : Prop := ∀ e ∈ c.expression, e.Concrete

namespace Config

variable {α β : Type}

theorem all_ok (l : List β) (value : β → α) :
    Checked.all (l.map fun b => (.ok (value b) : Checked α)) = .ok (l.map value) := by
  induction l with
  | nil => rfl
  | cons b rest ih =>
      rw [List.map_cons, Checked.all, ih]
      rfl

theorem mappingOf_eq {check : List Place → Document → Except Failure (Checked α)} (l : List β)
    {key : β → String} {document : β → Document} {value : β → α}
    (h : ∀ b ∈ l, ∀ place, check place (document b) = .ok (.ok (value b))) (place : List Place) :
    mappingOf check place (.mapping (l.map fun b => (.text (key b), document b))) =
      .ok (.ok (.ofList (l.map fun b => (key b, value b)))) := by
  have hchecked : (l.map fun b => (Atom.text (key b), document b)).mapM (fun p => do
      let value ← check (place ++ [placeOf p.1]) p.2
      return (textKey place p.1).both value) =
      (.ok (l.map fun b => .ok (key b, value b)) :
        Except Failure (List (Checked (String × α)))) := by
    induction l with
    | nil => rfl
    | cons b rest ih =>
        rw [List.map_cons, List.mapM_cons, ih fun c hc => h c (List.mem_cons_of_mem _ hc),
          h b List.mem_cons_self]
        rfl
  unfold mappingOf
  dsimp only
  rw [hchecked]
  simp only [bind, Except.bind, all_ok]
  rfl

theorem mappingOf_degree (b : Bindings) (place : List Place) :
    mappingOf (fun p d => .ok (degree p d)) place (Export.bindingsDocument b) =
      .ok (.ok (b.mapEntries fun _ x => .float x)) := by
  have hdegree : ∀ p ∈ b.entries, ∀ place : List Place,
      (.ok (degree place (.atom (.float p.2))) : Except Failure (Checked Number)) =
        .ok (.ok (.float p.2)) := fun _ _ _ => rfl
  refine (mappingOf_eq b.entries hdegree place).trans ?_
  rw [← OrderedMap.ofList_entries (b.mapEntries fun _ x => Number.float x)]
  rfl

theorem expressionField_form {e : Expr} (h : e.Concrete) (place : List Place) :
    expressionField place (Logic.form e) = .ok (.ok (some e)) := by
  have hread : Logic.decode (Logic.form e) = .ok e := Logic.decodeAt_form h []
  unfold expressionField
  split
  · next hnull => exact absurd hnull (Logic.isForm_form h).not_null
  · rw [hread]
    rfl

/-- A record with known fields only, none of which holds a surrogate. -/
theorem closed_eq {fields : List String} {entries : List (Atom × Document)}
    (h : ∀ p ∈ entries, ∃ s ∈ fields, p.1 = .text s ∧ hasSurrogate (.text s) = false)
    (place : List Place) (x : α) : closed place fields entries (.ok x) = .ok x := by
  have hfind : entries.find? (fun p => hasSurrogate p.1) = none := by
    rw [List.find?_eq_none]
    intro p hp
    obtain ⟨s, -, hkey, hs⟩ := h p hp
    simp [hkey, hs]
  have hstray : strayKeys place fields entries = .ok () := by
    unfold strayKeys
    rw [List.filterMap_eq_nil_iff.mpr]
    · rfl
    · intro p hp
      obtain ⟨s, hmem, hkey, -⟩ := h p hp
      simp [hkey, hmem]
  unfold closed
  rw [hfind, hstray]
  rfl

theorem optional_field {check : List Place → Document → Except Failure (Checked α)}
    {entries : List (Atom × Document)} {field : String} {d : Document}
    (h : Document.field? entries field = some d) (default : α) (place : List Place) :
    optional default check place entries field = check (place ++ [.key field]) d := by
  unfold optional
  rw [h]

theorem optional_missing {check : List Place → Document → Except Failure (Checked α)}
    {entries : List (Atom × Document)} {field : String} (h : Document.field? entries field = none)
    (default : α) (place : List Place) :
    optional default check place entries field = .ok (.ok default) := by
  unfold optional
  rw [h]
  rfl

theorem gateField_gateDocument {c : GateContents} (h : c.Exportable) (place : List Place) :
    gateField place (Export.gateDocument c.exported.2) = .ok (.ok c.config) := by
  obtain ⟨g, degrees, expression⟩ := c
  have hvariables := mappingOf_degree degrees (place ++ [.key "variables"])
  unfold gateField Export.gateDocument
  cases expression with
  | none =>
      dsimp only [GateContents.exported, Option.map_none]
      rw [optional_field (by simp [Document.field?]; rfl),
        optional_missing (by simp [Document.field?]), hvariables]
      simp only [bind, Except.bind, Checked.both, Except.map]
      rw [closed_eq]
      · rfl
      · intro p hp
        rw [List.mem_singleton.mp hp]
        exact ⟨_, by decide, rfl, by decide⟩
  | some e =>
      dsimp only [GateContents.exported, Option.map_some]
      rw [optional_field (by simp [Document.field?]; rfl),
        optional_field (by simp [Document.field?]; rfl), hvariables,
        expressionField_form (h e rfl)]
      simp only [bind, Except.bind, Checked.both, Except.map]
      rw [closed_eq]
      · rfl
      · intro p hp
        rw [List.mem_cons, List.mem_singleton] at hp
        rcases hp with rfl | rfl
        · exact ⟨"variables", by decide, rfl, by decide⟩
        · exact ⟨"expression", by decide, rfl, by decide⟩

/-! ### All gates -/

theorem mapM_gates (cs : List GateContents) :
    (cs.map fun c => (c.gate.name, c.config)).mapM
      (fun p => (Gate.ofName? p.1).map fun g => (g, p.2)) =
        some (cs.map fun c => (c.gate, c.config)) := by
  induction cs with
  | nil => rfl
  | cons c rest ih =>
      rw [List.map_cons, List.mapM_cons, ih, Gate.ofName?_name]
      rfl

/-- Gates under names that are all different. -/
def gatesOf (cs : List GateContents) : OrderedMap Gate GateConfig :=
  .ofList (cs.map fun c => (c.gate, c.config))

theorem entries_gatesOf {cs : List GateContents} (h : (cs.map GateContents.gate).Nodup) :
    (gatesOf cs).entries = cs.map fun c => (c.gate, c.config) := by
  refine OrderedMap.entries_ofList ?_
  rw [List.map_map]
  exact h

theorem gatesField_toDocument {cs : List GateContents} {gates : OrderedMap String GateExport}
    (hgates : gates.entries = cs.map GateContents.exported) (h : ∀ c ∈ cs, c.Exportable)
    (place : List Place) :
    gatesField place (.mapping (gates.entries.map fun p => (.text p.1, Export.gateDocument p.2))) =
      .ok (.ok (gatesOf cs)) := by
  have hnames : (cs.map fun c => c.gate.name).Nodup := by
    have hkeys := gates.nodup_keys
    rw [hgates, List.map_map] at hkeys
    exact hkeys
  have hmapping : mappingOf gateField place
      (.mapping (gates.entries.map fun p => (.text p.1, Export.gateDocument p.2))) =
      .ok (.ok (.ofList (cs.map fun c => (c.gate.name, c.config)))) := by
    rw [hgates, List.map_map]
    exact mappingOf_eq cs (fun c hc place => gateField_gateDocument (h c hc) place) place
  have hentries : (OrderedMap.ofList (cs.map fun c => (c.gate.name, c.config))).entries =
      cs.map fun c => (c.gate.name, c.config) := by
    refine OrderedMap.entries_ofList ?_
    rw [List.map_map]
    exact hnames
  have hnamed : "" ∉ (OrderedMap.ofList (cs.map fun c => (c.gate.name, c.config))).keys := by
    unfold OrderedMap.keys
    rw [hentries, List.map_map, List.mem_map]
    rintro ⟨c, -, hempty⟩
    exact c.gate.nonempty hempty
  unfold gatesField
  rw [hmapping]
  show (.ok (nameGates place _) : Except Failure (Checked (OrderedMap Gate GateConfig))) = _
  unfold nameGates
  rw [if_neg hnamed, hentries, mapM_gates]
  rfl

/-! ### The whole export -/

/-- **The configuration of an export.** -/
theorem ofDocument_toDocument {cs : List GateContents} {e : Export}
    (hgates : e.gates.entries = cs.map GateContents.exported) (h : ∀ c ∈ cs, c.Exportable) :
    ofDocument e.toDocument =
      .ok ⟨{}, e.globals.mapEntries fun _ x => .float x, gatesOf cs⟩ := by
  have hglobals := mappingOf_degree e.globals [.key "globals"]
  have hfields := gatesField_toDocument hgates h [.key "gates"]
  have hcheck : check e.toDocument =
      .ok (.ok ⟨{}, e.globals.mapEntries fun _ x => .float x, gatesOf cs⟩) := by
    unfold check Export.toDocument
    dsimp only
    rw [optional_missing (by simp [Document.field?]),
      optional_field (by simp [Document.field?]; rfl),
      optional_field (by simp [Document.field?]; rfl)]
    show (mappingOf _ [.key "globals"] _ >>= fun globals =>
      gatesField [.key "gates"] _ >>= fun gates => _) = _
    rw [hglobals, hfields]
    simp only [bind, Except.bind, Checked.both, Except.map]
    rw [closed_eq]
    · rfl
    · intro p hp
      rw [List.mem_cons, List.mem_singleton] at hp
      rcases hp with rfl | rfl
      · exact ⟨"globals", by decide, rfl, by decide⟩
      · exact ⟨"gates", by decide, rfl, by decide⟩
  have hvoid : e.toDocument.isVoid = false := rfl
  unfold ofDocument
  simp only [hvoid, Bool.false_eq_true, ↓reduceIte, hcheck]
  rfl

end Config

end FuzzyGates
