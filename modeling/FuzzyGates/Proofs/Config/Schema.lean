import FuzzyGates.Proofs.Logic.TextKeys
import FuzzyGates.Proofs.Session.Regular
import Mathlib.Data.Set.List

/-!
# What the schema accepts

A document describes a configuration if it is a mapping with no other fields than those of the
globals and the gates, if the globals are numbers under texts, and if each gate has the name of
one and no other fields than its degrees and its expression, which is null or serialized logic.
Checking a document yields exactly the configuration that it describes.

* `Lists`, `Lists.forall₂_entries` — a mapping that lists what a map holds, in order.
* `Describes` — the documents that describe a configuration, once it is said how keys are read.
* `Decides` — a check finds nothing wrong exactly with what describes its result;
  `decides_mappingOf`, `decides_gateField`, `decides_gatesField`, `check_eq_ok_iff`.
* **`schema_is_exact`** — what is accepted, as which configuration, and that all else is refused.
-/

namespace FuzzyGates

namespace Config

variable {α β : Type}

/-! ### Documents that describe a configuration -/

/-- The text that a key is. -/
def textOf? : Atom → Option String
  | .text s => some s
  | _ => none

/-- The text that a key stands for, which is the key or what its bytes encode. -/
def spelled? : Atom → Option String
  | .text s => some s
  | .bytes bs => Text.decodeBytes? bs
  | _ => none

/-- A document lists what a map holds: each key of the document stands for a key of the map and
has a value that describes what is bound to it, in the same order.  Of two keys that stand for
the same, the first has the place and the last has the value. -/
def Lists {κ : Type} [DecidableEq κ] (key? : Atom → Option κ) (Describes : Document → α → Prop)
    (d : Document) (m : OrderedMap κ α) : Prop :=
  ∃ entries pairs, d = .mapping entries ∧ m = .ofList pairs ∧
    List.Forall₂ (fun e p => key? e.1 = some p.1 ∧ Describes e.2 p.2) entries pairs

/-- If no two keys stand for the same, a map that is listed holds exactly the entries, in their
order. -/
theorem Lists.forall₂_entries {κ : Type} [DecidableEq κ] {key? : Atom → Option κ}
    {Describes : Document → α → Prop} {entries : List (Atom × Document)} {m : OrderedMap κ α}
    (h : Lists key? Describes (.mapping entries) m)
    (hkeys : (entries.map fun e => key? e.1).Nodup) :
    List.Forall₂ (fun e p => key? e.1 = some p.1 ∧ Describes e.2 p.2) entries m.entries := by
  obtain ⟨_, pairs, heq, rfl, hpairs⟩ := h
  cases heq
  have hsame : (entries.map fun e => key? e.1) = (pairs.map Prod.fst).map some := by
    rw [List.map_map]
    exact List.forall₂_eq_eq_eq ▸ (List.forall₂_map_left_iff.mpr
      (List.forall₂_map_right_iff.mpr (hpairs.imp fun e p hp => hp.1)))
  rw [hsame] at hkeys
  rw [OrderedMap.entries_ofList hkeys.of_map]
  exact hpairs

/-- All keys are names of fields. -/
def OnlyFields (fields : List String) (entries : List (Atom × Document)) : Prop :=
  ∀ p ∈ entries, ∃ s ∈ fields, p.1 = .text s

/-- A field describes something, or is missing and this is the default. -/
def HasField (entries : List (Atom × Document)) (field : String) (default : α)
    (Describes : Document → α → Prop) (x : α) : Prop :=
  match Document.field? entries field with
  | some d => Describes d x
  | none => x = default

/-- A document is a number. -/
def IsNumber (d : Document) (n : Number) : Prop := d.number? = some n

/-- A document is null, or serialized logic that is read as an expression. -/
def DescribesExpression (d : Document) (e : Option Expr) : Prop :=
  (d = .atom .null ∧ e = none) ∨ ∃ t, Logic.decode d = .ok t ∧ e = some t

section Keys

variable (key? : Atom → Option String)

/-- A document describes the contents of a gate. -/
def DescribesGate (d : Document) (c : GateConfig) : Prop :=
  ∃ entries, d = .mapping entries ∧ OnlyFields ["variables", "expression"] entries ∧
    HasField entries "variables" ∅ (Lists key? IsNumber) c.degrees ∧
    HasField entries "expression" none DescribesExpression c.expression

/-- The gate that a key names. -/
def gateOf? (a : Atom) : Option Gate := (key? a).bind Gate.ofName?

/-- A document describes a configuration without options for logging.  Which texts the keys of
its mappings stand for is a matter of how they are read. -/
def Describes (d : Document) (c : Config) : Prop :=
  c.logging = {} ∧ ∃ entries, d = .mapping entries ∧ OnlyFields ["globals", "gates"] entries ∧
    HasField entries "globals" ∅ (Lists key? IsNumber) c.globals ∧
    HasField entries "gates" ∅ (Lists (gateOf? key?) (DescribesGate key?)) c.gates

end Keys

/-! ### Checks -/

theorem both_eq_ok_iff {a : Checked α} {b : Checked β} {p : α × β} :
    a.both b = .ok p ↔ a = .ok p.1 ∧ b = .ok p.2 := by
  cases a <;> cases b <;> simp [Checked.both, Prod.ext_iff]

theorem all_eq_ok_iff {checks : List (Checked α)} {as : List α} :
    Checked.all checks = .ok as ↔ checks = as.map .ok := by
  constructor
  · intro h
    induction checks generalizing as with
    | nil =>
        cases h
        rfl
    | cons c rest ih =>
        rw [Checked.all] at h
        obtain ⟨p, hboth, rfl⟩ := map_eq_ok_iff.mp h
        obtain ⟨rfl, hrest⟩ := both_eq_ok_iff.mp hboth
        rw [ih hrest]
        rfl
  · rintro rfl
    simpa using all_ok as id

theorem textKey_eq_ok_iff {place : List Place} {a : Atom} {s : String} :
    textKey place a = .ok s ↔ spelled? a = some s := by
  unfold textKey text spelled?
  split
  · simp
  · split <;> simp [*, issue]
  · simp [issue]

theorem degree_eq_ok_iff {place : List Place} {d : Document} {n : Number} :
    degree place d = .ok n ↔ IsNumber d n := by
  unfold degree IsNumber
  cases d.number? <;> simp

/-- A check finds nothing wrong exactly with what describes the value that it yields. -/
def Decides (check : List Place → Document → Except Failure (Checked α))
    (Describes : Document → α → Prop) : Prop :=
  ∀ place d a, check place d = .ok (.ok a) ↔ Describes d a

theorem decides_degree : Decides (fun place d => .ok (degree place d)) IsNumber := by
  intro place d n
  simp [degree_eq_ok_iff]

theorem decides_mappingOf {check : List Place → Document → Except Failure (Checked α)}
    {Describes : Document → α → Prop} (h : Decides check Describes) :
    Decides (mappingOf check) (Lists spelled? Describes) := by
  intro place d m
  have hentry : ∀ (e : Atom × Document) (p : String × α),
      (∃ value, check (place ++ [placeOf e.1]) e.2 = .ok value ∧
        (textKey place e.1).both value = .ok p) ↔
        spelled? e.1 = some p.1 ∧ Describes e.2 p.2 := by
    intro e p
    rw [← h (place ++ [placeOf e.1])]
    constructor
    · rintro ⟨value, hvalue, hboth⟩
      obtain ⟨hkey, rfl⟩ := both_eq_ok_iff.mp hboth
      exact ⟨textKey_eq_ok_iff.mp hkey, hvalue⟩
    · rintro ⟨hkey, hvalue⟩
      exact ⟨_, hvalue, both_eq_ok_iff.mpr ⟨textKey_eq_ok_iff.mpr hkey, rfl⟩⟩
  cases d with
  | mapping entries =>
      unfold mappingOf Lists
      simp only [bind_return_eq_ok_iff, mapM_eq_ok_iff, map_eq_ok_iff, all_eq_ok_iff]
      constructor
      · rintro ⟨_, hchecked, pairs, rfl, rfl⟩
        rw [List.forall₂_map_right_iff] at hchecked
        exact ⟨entries, pairs, rfl, rfl, hchecked.imp fun e p => (hentry e p).mp⟩
      · rintro ⟨_, pairs, heq, rfl, hpairs⟩
        cases heq
        refine ⟨pairs.map .ok, ?_, pairs, rfl, rfl⟩
        rw [List.forall₂_map_right_iff]
        exact hpairs.imp fun e p => (hentry e p).mpr
  | _ => simp [mappingOf, Lists, pure, Except.pure, issue]

theorem decides_degrees : Decides (mappingOf fun place d => .ok (degree place d))
    (Lists spelled? IsNumber) := decides_mappingOf decides_degree

theorem optional_eq_ok_iff {check : List Place → Document → Except Failure (Checked α)}
    {Describes : Document → α → Prop} (h : Decides check Describes) {default x : α}
    {place : List Place} {entries : List (Atom × Document)} {field : String} :
    optional default check place entries field = .ok (.ok x) ↔
      HasField entries field default Describes x := by
  unfold optional HasField
  cases Document.field? entries field with
  | some d => exact h _ d x
  | none => simp [pure, Except.pure, eq_comm]

theorem strayKeys_eq_ok_iff (place : List Place) {fields : List String}
    {entries : List (Atom × Document)} :
    strayKeys place fields entries = .ok () ↔ OnlyFields fields entries := by
  unfold strayKeys OnlyFields
  simp only [ite_eq_left_iff, List.isEmpty_iff, List.filterMap_eq_nil_iff, reduceCtorEq, imp_false,
    Decidable.not_not]
  refine forall₂_congr fun p _ => ?_
  split
  · next s hs => simp [hs]
  · next hs =>
      have hnone : ¬ ∃ s ∈ fields, p.1 = .text s := fun ⟨s, _, heq⟩ => hs s heq
      simp [hnone]

/-- A record has the known fields and no others.  None of the known ones holds a surrogate. -/
theorem closed_eq_ok_iff {fields : List String}
    (hfields : ∀ s ∈ fields, hasSurrogate (.text s) = false) {place : List Place}
    {entries : List (Atom × Document)} {known : Checked α} {x : α} :
    closed place fields entries known = .ok x ↔ known = .ok x ∧ OnlyFields fields entries := by
  constructor
  · intro h
    unfold closed at h
    split at h
    · cases h
    · obtain ⟨p, hboth, rfl⟩ := map_eq_ok_iff.mp h
      obtain ⟨hknown, hstray⟩ := both_eq_ok_iff.mp hboth
      exact ⟨hknown, (strayKeys_eq_ok_iff place).mp hstray⟩
  · rintro ⟨rfl, honly⟩
    refine closed_eq (fun p hp => ?_) place x
    obtain ⟨s, hs, hkey⟩ := honly p hp
    exact ⟨s, hs, hkey, hfields s hs⟩

/-! ### The parts of a configuration -/

theorem decides_expressionField : Decides expressionField DescribesExpression := by
  intro place d e
  unfold expressionField DescribesExpression
  split
  · have hnull : ∀ t, Logic.decode (.atom .null) ≠ .ok t := fun t => nofun
    simp [pure, Except.pure, hnull, eq_comm]
  · next hnull =>
      have hd : d ≠ .atom .null := hnull
      cases hread : Logic.decode d with
      | ok t => simp [hd, pure, Except.pure, eq_comm]
      | error f => cases f <;> simp [hd, pure, Except.pure, issue]

theorem decides_gateField : Decides gateField (DescribesGate spelled?) := by
  intro place d c
  cases d with
  | mapping entries =>
      have hfields : ∀ s ∈ ["variables", "expression"], hasSurrogate (.text s) = false := by decide
      unfold gateField DescribesGate
      simp only [bind_eq_ok_iff, pure, Except.pure, Except.ok.injEq, closed_eq_ok_iff hfields,
        map_eq_ok_iff, both_eq_ok_iff]
      constructor
      · rintro ⟨_, hdegrees, _, hexpression, ⟨p, ⟨rfl, rfl⟩, rfl⟩, honly⟩
        exact ⟨entries, rfl, honly, (optional_eq_ok_iff decides_degrees).mp hdegrees,
          (optional_eq_ok_iff decides_expressionField).mp hexpression⟩
      · rintro ⟨_, heq, honly, hdegrees, hexpression⟩
        cases heq
        exact ⟨_, (optional_eq_ok_iff decides_degrees).mpr hdegrees,
          _, (optional_eq_ok_iff decides_expressionField).mpr hexpression,
          ⟨(c.degrees, c.expression), ⟨rfl, rfl⟩, rfl⟩, honly⟩
  | _ => simp [gateField, DescribesGate, pure, Except.pure, issue]

/-- An entry under the name of its gate. -/
def named (p : Gate × α) : String × α := (p.1.name, p.2)

theorem named_injective : Function.Injective (named : Gate × α → String × α) := by
  rintro ⟨g, x⟩ ⟨h, y⟩ heq
  obtain ⟨hname, rfl⟩ := Prod.ext_iff.mp heq
  exact Prod.ext (Gate.ext hname) rfl

theorem mapM_gates_eq_some_iff {l : List (String × α)} {gates : List (Gate × α)} :
    (l.mapM fun p => (Gate.ofName? p.1).map fun g => (g, p.2)) = some gates ↔
      l = gates.map named := by
  induction l generalizing gates with
  | nil => cases gates <;> simp
  | cons p rest ih =>
      simp only [List.mapM_cons, Option.bind_eq_bind, Option.bind_eq_some_iff,
        Option.map_eq_some_iff, Gate.ofName?_eq_some_iff, ih, pure, Option.some.injEq]
      constructor
      · rintro ⟨_, ⟨g, hg, rfl⟩, _, rfl, rfl⟩
        exact congrArg (· :: _) (Prod.ext hg.symm rfl)
      · intro h
        cases gates with
        | nil => cases h
        | cons q gates =>
            obtain ⟨rfl, rfl⟩ := List.cons.inj h
            exact ⟨q, ⟨q.1, rfl, rfl⟩, gates, rfl, rfl⟩

theorem nameGates_eq_ok_iff {place : List Place} {gates : OrderedMap String GateConfig}
    {m : OrderedMap Gate GateConfig} :
    nameGates place gates = .ok m ↔ gates.entries = m.entries.map named := by
  unfold nameGates
  constructor
  · intro h
    split at h
    · cases h
    · split at h
      · next entries hentries =>
          cases h
          have hnamed := mapM_gates_eq_some_iff.mp hentries
          have hnodup : (entries.map Prod.fst).Nodup := by
            have hkeys := gates.nodup_keys
            rw [hnamed, List.map_map] at hkeys
            exact Gate.nodup_names_iff.mp hkeys
          rw [OrderedMap.entries_ofList hnodup, hnamed]
      · cases h
  · intro h
    have hempty : "" ∉ gates.keys := by
      unfold OrderedMap.keys
      rw [h, List.map_map, List.mem_map]
      rintro ⟨p, -, hname⟩
      exact p.1.nonempty hname
    rw [if_neg hempty, mapM_gates_eq_some_iff.mpr h]
    exact congrArg Except.ok m.ofList_entries

/-- Listing gates by name is listing contents under texts all of which name gates. -/
theorem lists_gateOf?_iff {key? : Atom → Option String} {Describes : Document → α → Prop}
    {d : Document} {m : OrderedMap Gate α} :
    Lists (gateOf? key?) Describes d m ↔
      ∃ contents, Lists key? Describes d contents ∧ contents.entries = m.entries.map named := by
  constructor
  · rintro ⟨entries, pairs, rfl, rfl, hpairs⟩
    refine ⟨.ofList (pairs.map named), ⟨entries, pairs.map named, rfl, rfl, ?_⟩,
      OrderedMap.entries_ofList_map (fun _ _ => Gate.ext) pairs⟩
    rw [List.forall₂_map_right_iff]
    refine hpairs.imp fun e p hp => ⟨?_, hp.2⟩
    obtain ⟨s, hs, hgate⟩ := Option.bind_eq_some_iff.mp hp.1
    rw [hs, ← Gate.ofName?_eq_some_iff.mp hgate]
    rfl
  · rintro ⟨_, ⟨entries, contents, rfl, rfl, hpairs⟩, hentries⟩
    -- every text that is bound names a gate
    have hnamed : contents ∈ Set.range (List.map (named : Gate × α → String × α)) := by
      rw [Set.range_list_map]
      intro p hp
      have hkey : p.1 ∈ (OrderedMap.ofList contents).keys :=
        OrderedMap.mem_keys_ofList.mpr (List.mem_map_of_mem hp)
      rw [OrderedMap.keys, hentries, List.map_map] at hkey
      obtain ⟨q, -, hq⟩ := List.mem_map.mp hkey
      exact ⟨(q.1, p.2), Prod.ext hq rfl⟩
    obtain ⟨pairs, rfl⟩ := hnamed
    rw [List.forall₂_map_right_iff] at hpairs
    have hm : (OrderedMap.ofList pairs).entries = m.entries := by
      refine List.map_injective_iff.mpr named_injective ?_
      rw [← hentries]
      exact (OrderedMap.entries_ofList_map (fun _ _ => Gate.ext) pairs).symm
    refine ⟨entries, pairs, rfl, OrderedMap.ext hm.symm, ?_⟩
    refine hpairs.imp fun e p hp => ⟨?_, hp.2⟩
    unfold gateOf?
    rw [hp.1]
    exact Gate.ofName?_name p.1

theorem decides_gatesField :
    Decides gatesField (Lists (gateOf? spelled?) (DescribesGate spelled?)) := by
  intro place d m
  rw [lists_gateOf?_iff]
  unfold gatesField
  rw [bind_return_eq_ok_iff]
  constructor
  · rintro ⟨checked, hchecked, hnamed⟩
    obtain ⟨gates, rfl, hnamed⟩ := bind_eq_ok_iff.mp hnamed
    exact ⟨gates, (decides_mappingOf decides_gateField _ _ _).mp hchecked,
      nameGates_eq_ok_iff.mp hnamed⟩
  · rintro ⟨gates, hlists, hnamed⟩
    exact ⟨_, (decides_mappingOf decides_gateField _ _ _).mpr hlists,
      bind_eq_ok_iff.mpr ⟨gates, rfl, nameGates_eq_ok_iff.mpr hnamed⟩⟩

/-- A field that is missing makes no difference to the fields that there are. -/
theorem onlyFields_cons_of_missing {field : String} {fields : List String}
    {entries : List (Atom × Document)} (h : Document.field? entries field = none) :
    OnlyFields (field :: fields) entries ↔ OnlyFields fields entries := by
  refine forall₂_congr fun p hp => ?_
  have hkey : p.1 ≠ .text field := by
    have hfind := List.find?_eq_none.mp (Option.map_eq_none_iff.mp h) p hp
    simpa using hfind
  simp [hkey]

/-- Without options for logging, a check finds nothing wrong with what describes a
configuration. -/
theorem check_eq_ok_iff {entries : List (Atom × Document)}
    (hlogging : Document.field? entries "logging" = none) {c : Config} :
    check (.mapping entries) = .ok (.ok c) ↔ Describes spelled? (.mapping entries) c := by
  have hfields : ∀ s ∈ ["logging", "globals", "gates"], hasSurrogate (.text s) = false := by decide
  unfold check Describes
  simp only [bind_eq_ok_iff, pure, Except.pure, Except.ok.injEq, closed_eq_ok_iff hfields,
    map_eq_ok_iff, both_eq_ok_iff, optional_missing hlogging, onlyFields_cons_of_missing hlogging]
  constructor
  · rintro ⟨_, rfl, _, hglobals, _, hgates, ⟨p, ⟨⟨hnone, rfl⟩, rfl⟩, rfl⟩, honly⟩
    exact ⟨(Except.ok.inj hnone).symm, entries, rfl, honly,
      (optional_eq_ok_iff decides_degrees).mp hglobals,
      (optional_eq_ok_iff decides_gatesField).mp hgates⟩
  · rintro ⟨hnone, _, heq, honly, hglobals, hgates⟩
    cases heq
    obtain ⟨logging, globals, gates⟩ := c
    cases hnone
    exact ⟨_, rfl, _, (optional_eq_ok_iff decides_degrees).mpr hglobals,
      _, (optional_eq_ok_iff decides_gatesField).mpr hgates,
      ⟨((_, globals), gates), ⟨⟨rfl, rfl⟩, rfl⟩, rfl⟩, honly⟩

theorem ofDocument_eq_ok_iff {entries : List (Atom × Document)} {c : Config} :
    ofDocument (.mapping entries) = .ok c ↔ check (.mapping entries) = .ok (.ok c) := by
  have hvoid : (if (Document.mapping entries).isVoid then .mapping [] else .mapping entries) =
      Document.mapping entries := by
    split
    · next h => rw [List.isEmpty_iff.mp h]
    · rfl
  unfold ofDocument
  rw [hvoid, bind_eq_ok_iff]
  constructor
  · rintro ⟨checked, hchecked, hresult⟩
    cases checked with
    | ok config =>
        cases hresult
        exact hchecked
    | error issues => cases hresult
  · exact fun h => ⟨.ok c, h, rfl⟩

/-- Without options for logging, the configuration that is read is the one that a mapping
describes. -/
theorem ofDocument_eq_ok_iff_describes {entries : List (Atom × Document)}
    (hlogging : Document.field? entries "logging" = none) {c : Config} :
    ofDocument (.mapping entries) = .ok c ↔ Describes spelled? (.mapping entries) c :=
  ofDocument_eq_ok_iff.trans (check_eq_ok_iff hlogging)

/-! ### The schema -/

/-- **The schema is exact.**  A mapping without options for logging, whose serialized logic has
text keys and numbers that are degrees, is accepted exactly if it describes a configuration, which
then is the one that is read.  Otherwise it is refused. -/
theorem schema_is_exact {entries : List (Atom × Document)}
    (hlogging : Document.field? entries "logging" = none)
    (hlogic : ∀ d ∈ serializedLogic (.mapping entries), d.InRange ∧ d.TextKeyed) :
    (∀ c, ofDocument (.mapping entries) = .ok c ↔ Describes spelled? (.mapping entries) c) ∧
      ((¬ ∃ c, Describes spelled? (.mapping entries) c) →
        ∃ issues, ofDocument (.mapping entries) = .error (.config (.schema issues))) := by
  refine ⟨fun c => ofDocument_eq_ok_iff_describes hlogging, fun hnone => ?_⟩
  have hbreak : (serializedLogic (.mapping entries)).findSome? Logic.breakOff? = none :=
    List.findSome?_eq_none_iff.mpr fun d hd =>
      Logic.breakOff?_eq_none (hlogic d hd).1 (hlogic d hd).2
  have hcases := ofDocument_cases (.mapping entries)
  rw [hbreak] at hcases
  rcases hcases with ⟨c, hc⟩ | hrefused
  · exact absurd ⟨c, (ofDocument_eq_ok_iff_describes hlogging).mp hc⟩ hnone
  · exact hrefused

/-- Serialized logic with one operator, a name and a number. -/
def sampleLogic : Document := Logic.entry "add" (.list [.ofText "A", .atom (.int 1)])

/-- The data of a gate, of whose degrees one is whole. -/
def sampleGate : Document :=
  .mapping [(.text "expression", sampleLogic),
    (.text "variables", .mapping [(.text "A", .atom (.int 1)), (.bytes [66], .atom (.float 0.5))])]

/-- The data of a configuration with one gate. -/
def sampleEntries : List (Atom × Document) := [(.text "gates", .mapping [(.text "g", sampleGate)])]

/-- The configuration that these data describe. -/
def sampleConfig : Config where
  logging := {}
  globals := ∅
  gates := .ofList [(⟨"g", by decide, by decide⟩,
    ⟨.ofList [("A", .int 1), ("B", .float 0.5)],
      some (.join .add (.var ⟨"A", by decide⟩) (.value (Float.ofInt 1)))⟩)]

/-- The data of a configuration with a truth value for a degree. -/
def refusedEntries : List (Atom × Document) :=
  [(.text "globals", .mapping [(.text "X", .atom (.bool true))])]

theorem schema_is_exact_one_gate :
    Document.field? sampleEntries "logging" = none ∧
      (∀ d ∈ serializedLogic (.mapping sampleEntries), d.InRange ∧ d.TextKeyed) ∧
      ofDocument (.mapping sampleEntries) = .ok sampleConfig ∧
      ∃ issues, ofDocument (.mapping refusedEntries) = .error (.config (.schema issues)) := by
  have hlogging : Document.field? sampleEntries "logging" = none := by decide
  have hone : (Document.atom (.int 1)).InRange :=
    (Document.inRange_toAtom (n := .int 1)).mpr (by decide +kernel)
  have hrange : sampleLogic.InRange := by
    simpa [sampleLogic, Logic.inRange_entry, Document.inRange_list, Document.inRange_text] using
      hone
  have hkeys : sampleLogic.TextKeyed := by
    simpa [sampleLogic, Logic.textKeyed_entry, Document.textKeyed_list] using
      ⟨.atom _, .atom _⟩
  have hlogic : ∀ d ∈ serializedLogic (.mapping sampleEntries), d.InRange ∧ d.TextKeyed :=
    List.forall_mem_singleton.mpr ⟨hrange, hkeys⟩
  have hread : Logic.decode sampleLogic =
      .ok (.join .add (.var ⟨"A", by decide⟩) (.value (Float.ofInt 1))) :=
    Logic.decodeAt_of_denotes
      (.join (by decide) (.text ⟨"A", by decide⟩) (.number (.int 1))) hrange []
  have hgate : DescribesGate spelled? sampleGate
      ⟨.ofList [("A", .int 1), ("B", .float 0.5)],
        some (.join .add (.var ⟨"A", by decide⟩) (.value (Float.ofInt 1)))⟩ := by
    refine ⟨_, rfl, by simp [OnlyFields], ?_, .inr ⟨_, hread, rfl⟩⟩
    exact ⟨_, [("A", .int 1), ("B", .float 0.5)], rfl, rfl,
      .cons ⟨rfl, rfl⟩ (.cons ⟨by decide, rfl⟩ .nil)⟩
  have hsample : Describes spelled? (.mapping sampleEntries) sampleConfig :=
    ⟨rfl, _, rfl, by simp [OnlyFields, sampleEntries], rfl,
      ⟨_, [(_, _)], rfl, rfl, .cons ⟨rfl, hgate⟩ .nil⟩⟩
  have hrefused : ¬ ∃ c, Describes spelled? (.mapping refusedEntries) c := by
    rintro ⟨c, -, _, hentries, -, hglobals, -⟩
    cases hentries
    obtain ⟨_, pairs, hentries, -, hpairs⟩ := (hglobals : Lists spelled? IsNumber _ _)
    cases hentries
    cases hpairs with
    | cons hpair _ => cases hpair.2
  exact ⟨hlogging, hlogic, ((schema_is_exact hlogging hlogic).1 _).mpr hsample,
    (schema_is_exact (by decide) (List.forall_mem_nil _)).2 hrefused⟩

/-- A mapping whose one global has a string of bytes as its key. -/
def bytesKeyed : List (Atom × Document) :=
  [(.text "globals", .mapping [(.bytes [88], .atom (.float 0.5))])]

/-- Keys need not be texts: bytes that encode one are accepted in its place. -/
theorem schema_accepts_bytes_as_keys :
    Document.field? bytesKeyed "logging" = none ∧
      (∀ d ∈ serializedLogic (.mapping bytesKeyed), d.InRange ∧ d.TextKeyed) ∧
      ofDocument (.mapping bytesKeyed) = .ok ⟨{}, .ofList [("X", .float 0.5)], ∅⟩ ∧
      ¬ ∃ c, Describes textOf? (.mapping bytesKeyed) c := by
  have hlogging : Document.field? bytesKeyed "logging" = none := by decide
  refine ⟨hlogging, List.forall_mem_nil _, (ofDocument_eq_ok_iff_describes hlogging).mpr ?_, ?_⟩
  · exact ⟨rfl, _, rfl, by simp [OnlyFields, bytesKeyed],
      ⟨_, [("X", .float 0.5)], rfl, rfl, .cons ⟨by decide, rfl⟩ .nil⟩, rfl⟩
  · rintro ⟨c, -, _, hentries, -, hglobals, -⟩
    cases hentries
    obtain ⟨_, pairs, hentries, -, hpairs⟩ := (hglobals : Lists textOf? IsNumber _ _)
    cases hentries
    cases hpairs with
    | cons hpair _ => cases hpair.1

end Config

end FuzzyGates
