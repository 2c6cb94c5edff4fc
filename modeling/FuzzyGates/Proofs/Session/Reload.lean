import Mathlib.Data.List.Basic
import FuzzyGates.Proofs.Config.Exports
import FuzzyGates.Proofs.Session.Evaluation
import FuzzyGates.Proofs.Session.Overlay

/-!
# An export reloads

A session that was worked with through its operations, and whose expressions have
serialized forms, can be exported, the export is accepted as a configuration, and a new
session made of it is the old one again: the same bindings in the same order and the same
expression for each gate.  Only the open blocks are not carried over, and the registry is
in the order of the export.

* `leads_load_gatesOf` — loading the configuration of an export into a new session.
* `rebuilt` — the session that the contents of a session are loaded into.
* `env_rebuilt`, `get?_registry_rebuilt`, `contents_rebuilt` — it is the session again.
* **`reloads_of_regular`** — the law for a session with a regular environment.
* **`export_reloads`** — the law at every point of every run.
-/

namespace FuzzyGates

/-! ### The configuration of an export -/

namespace Config

theorem degreesOf_float (b : Bindings) : degreesOf (b.mapEntries fun _ x => .float x) = b :=
  OrderedMap.ext (List.map_map.trans (List.map_id _))

theorem named_float {b : Bindings} (h : "" ∉ b.keys) :
    ∀ p ∈ (b.mapEntries fun _ x => Number.float x).entries, p.1 ≠ "" ∧ p.2.InRange := by
  intro p hp
  obtain ⟨q, hq, rfl⟩ := List.mem_map.mp hp
  exact ⟨fun hempty => h (hempty ▸ List.mem_map_of_mem hq), trivial⟩

/-- The configuration with given globals and gates has these gates. -/
theorem contents_gatesOf {cs : List GateContents} (h : (cs.map GateContents.gate).Nodup)
    (globals : OrderedMap String Number) : contents ⟨{}, globals, gatesOf cs⟩ = cs := by
  unfold contents
  rw [entries_gatesOf h, List.map_map]
  refine (List.map_congr_left fun c _ => ?_).trans (List.map_id cs)
  show GateContents.mk c.gate (degreesOf (c.degrees.mapEntries _)) c.expression = c
  rw [degreesOf_float]

end Config

namespace Session

/-- Loading the configuration of an export puts its gates into the new session. -/
theorem leads_load_gatesOf {cs : List GateContents} (hgates : (cs.map GateContents.gate).Nodup)
    (hnamed : ∀ c ∈ cs, "" ∉ c.degrees.keys) {globals : Bindings} (hglobals : "" ∉ globals.keys) :
    Leads (load ⟨{}, globals.mapEntries fun _ x => .float x, Config.gatesOf cs⟩) fresh
      (cs.foldl put { fresh with env := Environment.assignAll ∅ globalScope globals.entries })
      () := by
  let c : Config := ⟨{}, globals.mapEntries fun _ x => .float x, Config.gatesOf cs⟩
  have hloadable : c.Loadable := by
    refine ⟨rfl, Config.named_float hglobals, fun g hg => ?_⟩
    rw [Config.entries_gatesOf hgates] at hg
    obtain ⟨contents, hmem, rfl⟩ := List.mem_map.mp hg
    exact Config.named_float (hnamed contents hmem)
  have hload := leads_load hloadable fresh
  rw [putAll_assignments_eq_foldl hloadable, Config.contents_gatesOf hgates,
    Config.degreesOf_float] at hload
  exact hload

/-! ### The session that is built of contents -/

/-- The new session that is made of the contents of a session. -/
def rebuilt (s : Session) : Session :=
  s.contents.foldl put
    { fresh with env := Environment.assignAll ∅ globalScope s.env.globals.entries }

theorem nodup_contents {s : Session} (h : s.env.Regular) :
    (s.contents.map GateContents.gate).Nodup := by
  have hscopes : (s.env.gateScopes.map Prod.fst).Nodup := by
    have hkeys := s.env.scopes.nodup_keys
    rw [← h.map_gateScopes, List.map_map] at hkeys
    exact Gate.nodup_names_iff.mp hkeys
  unfold contents
  rw [List.map_append, List.map_map, List.map_map, List.nodup_append]
  refine ⟨hscopes, ?_, ?_⟩
  · exact (List.filter_sublist.map Prod.fst).nodup s.registry.nodup_keys
  · intro g hg g' hg' heq
    obtain ⟨p, hp, rfl⟩ := List.mem_map.mp hg
    obtain ⟨q, hq, rfl⟩ := List.mem_map.mp hg'
    have habsent : q.1.name ∉ s.env.scopes.keys := by simpa using (List.mem_filter.mp hq).2
    have hpq : p.1 = q.1 := heq
    exact habsent (hpq ▸ List.mem_map_of_mem (Environment.mem_gateScopes.mp hp))

/-- The gates with variables are those with a scope. -/
theorem filterMap_scope?_contents {s : Session} (h : s.env.Regular) :
    s.contents.filterMap GateContents.scope? = s.env.scopes.entries := by
  unfold contents
  rw [List.filterMap_append, List.filterMap_map, List.filterMap_map]
  have hscopes : s.env.gateScopes.filterMap
      (GateContents.scope? ∘ fun p => ⟨p.1, p.2, s.registry.get? p.1⟩) = s.env.scopes.entries := by
    rw [← h.map_gateScopes, ← List.filterMap_eq_map]
    refine List.filterMap_congr fun p hp => ?_
    exact if_neg (h.scope_nonempty _ (Environment.mem_gateScopes.mp hp))
  have hrest : (s.registry.entries.filter fun p => decide (p.1.name ∉ s.env.scopes.keys)).filterMap
      (GateContents.scope? ∘ fun p => ⟨p.1, ∅, some p.2⟩) = [] := by
    rw [List.filterMap_eq_nil_iff]
    intro p _
    rfl
  rw [hscopes, hrest, List.append_nil]

theorem named_contents {s : Session} (h : s.env.Regular) :
    ∀ c ∈ s.contents, "" ∉ c.degrees.keys := by
  intro c hc
  rcases List.mem_append.mp hc with hscope | hrest
  · obtain ⟨p, hp, rfl⟩ := List.mem_map.mp hscope
    exact h.scope_named _ (Environment.mem_gateScopes.mp hp)
  · obtain ⟨p, -, rfl⟩ := List.mem_map.mp hrest
    exact List.not_mem_nil

theorem exportable_contents {s : Session} (h : s.Exportable) :
    ∀ c ∈ s.contents, c.Exportable := by
  intro c hc e he
  rcases List.mem_append.mp hc with hscope | hrest
  · obtain ⟨p, -, rfl⟩ := List.mem_map.mp hscope
    exact h _ (OrderedMap.get?_eq_some_iff.mp he)
  · obtain ⟨p, hp, rfl⟩ := List.mem_map.mp hrest
    cases he
    exact h _ (List.mem_filter.mp hp).1

/-- The gates with an expression are those of the registry. -/
theorem mem_filterMap_binding?_contents {s : Session} (p : Gate × Expr) :
    p ∈ s.contents.filterMap GateContents.binding? ↔ p ∈ s.registry.entries := by
  obtain ⟨g, e⟩ := p
  rw [List.mem_filterMap]
  constructor
  · rintro ⟨c, hc, hbinding⟩
    obtain ⟨e', he, hpair⟩ := Option.map_eq_some_iff.mp hbinding
    cases hpair
    rcases List.mem_append.mp hc with hscope | hrest
    · obtain ⟨q, -, rfl⟩ := List.mem_map.mp hscope
      exact OrderedMap.get?_eq_some_iff.mp he
    · obtain ⟨q, hq, rfl⟩ := List.mem_map.mp hrest
      cases he
      exact (List.mem_filter.mp hq).1
  · intro hp
    by_cases hscope : g.name ∈ s.env.scopes.keys
    · obtain ⟨b, hb⟩ := OrderedMap.mem_keys_iff.mp hscope
      refine ⟨⟨g, b, s.registry.get? g⟩, List.mem_append_left _ ?_, ?_⟩
      · exact List.mem_map_of_mem (Environment.mem_gateScopes.mpr hb)
      · show (s.registry.get? g).map _ = _
        rw [OrderedMap.get?_eq_some_iff.mpr hp]
        rfl
    · refine ⟨⟨g, ∅, some e⟩, List.mem_append_right _ ?_, rfl⟩
      exact List.mem_map.mpr ⟨(g, e), List.mem_filter.mpr ⟨hp, decide_eq_true hscope⟩, rfl⟩

/-! ### The session again -/

theorem assignAll_globals (b : Bindings) :
    Environment.assignAll ∅ globalScope b.entries = { (∅ : Environment) with globals := b } := by
  rw [Environment.assignAll_global]
  exact congrArg (fun globals => { (∅ : Environment) with globals := globals })
    (OrderedMap.ofList_entries b)

theorem env_rebuilt {s : Session} (h : s.env.Regular) : s.rebuilt.env = s.env := by
  unfold rebuilt
  refine Environment.ext ?_ ?_
  · rw [globals_foldl_put, assignAll_globals]
  · rw [scopes_foldl_put (filterMap_scope?_contents h).symm, assignAll_globals]
    exact OrderedMap.empty_overlayWith _ _

theorem entries_registry_rebuilt {s : Session} (h : s.env.Regular) :
    s.rebuilt.registry.entries = s.contents.filterMap GateContents.binding? := by
  let expressions : Registry := ⟨s.contents.filterMap GateContents.binding?,
    OrderedMap.nodup_keys_filterMap GateContents.fst_of_mem_binding? (nodup_contents h)⟩
  have hregistry : s.rebuilt.registry = expressions :=
    (registry_foldl_put rfl _).trans (OrderedMap.empty_overlayWith _ _)
  rw [hregistry]

theorem get?_registry_rebuilt {s : Session} (h : s.env.Regular) (g : Gate) :
    s.rebuilt.registry.get? g = s.registry.get? g := by
  ext e
  rw [OrderedMap.get?_eq_some_iff, OrderedMap.get?_eq_some_iff, entries_registry_rebuilt h]
  exact mem_filterMap_binding?_contents (g, e)

theorem stack_rebuilt (s : Session) : s.rebuilt.stack = [] := stack_foldl_put s.contents _

/-- The gates of the new session are listed in the order of the old list. -/
theorem contents_rebuilt {s : Session} (h : s.env.Regular) : s.rebuilt.contents = s.contents := by
  have hfilter : s.rebuilt.registry.entries.filter
      (fun p => decide (p.1.name ∉ s.env.scopes.keys)) =
        s.registry.entries.filter fun p => decide (p.1.name ∉ s.env.scopes.keys) := by
    rw [entries_registry_rebuilt h]
    unfold contents
    rw [List.filterMap_append, List.filter_append, List.filterMap_map]
    -- what comes from the scopes is left out, and the rest is there as it was
    have hscopes : (s.env.gateScopes.filterMap
        (GateContents.binding? ∘ fun p => ⟨p.1, p.2, s.registry.get? p.1⟩)).filter
          (fun p => decide (p.1.name ∉ s.env.scopes.keys)) = [] := by
      rw [List.filter_eq_nil_iff]
      intro q hq
      obtain ⟨p, hp, hbinding⟩ := List.mem_filterMap.mp hq
      obtain ⟨e, -, rfl⟩ := Option.map_eq_some_iff.mp hbinding
      have hkey : p.1.name ∈ s.env.scopes.keys :=
        List.mem_map_of_mem (Environment.mem_gateScopes.mp hp)
      simpa using hkey
    have hrest (l : List (Gate × Expr)) :
        (l.map fun p => GateContents.mk p.1 ∅ (some p.2)).filterMap GateContents.binding? = l := by
      rw [List.filterMap_map]
      exact List.filterMap_some
    rw [hscopes, hrest, List.filter_filter]
    simp only [Bool.and_self, List.nil_append]
  unfold contents
  rw [env_rebuilt h, hfilter]
  simp only [get?_registry_rebuilt h]

theorem exportable_rebuilt {s : Session} (hregular : s.env.Regular) (h : s.Exportable) :
    s.rebuilt.Exportable := by
  intro p hp
  rw [entries_registry_rebuilt hregular] at hp
  exact h p ((mem_filterMap_binding?_contents p).mp hp)

/-- What a session answers depends on the bindings and on the expression of each gate. -/
theorem answers_congr {s t : Session} (henv : t.env = s.env)
    (hregistry : ∀ g, t.registry.get? g = s.registry.get? g) (d : Document)
    (journal : Log.Journal) :
    ((evaluate d).run ⟨t, journal⟩).1 = ((evaluate d).run ⟨s, journal⟩).1 ∧
      ((evaluateGate d).run ⟨t, journal⟩).1 = ((evaluateGate d).run ⟨s, journal⟩).1 := by
  have hexpression : t.expressionOf? = s.expressionOf? := by
    funext scope
    cases scope with
    | global => rfl
    | gate g => exact hregistry g
  constructor
  · rw [fst_run_evaluate, fst_run_evaluate]
    simp only [henv]
  · rw [fst_run_evaluateGate, fst_run_evaluateGate]
    simp only [henv, hexpression]

/-- The copy of a session: it has the same bindings in the same order, the same expression for
each gate, no open block, the same export and the same answers. -/
structure IsCopy (t s : Session) : Prop where
  env : t.env = s.env
  registry : ∀ g, t.registry.get? g = s.registry.get? g
  stack : t.stack = []
  exported : t.exported = s.exported
  evaluate : ∀ d journal,
    ((evaluate d).run ⟨t, journal⟩).1 = ((evaluate d).run ⟨s, journal⟩).1
  evaluateGate : ∀ d journal,
    ((evaluateGate d).run ⟨t, journal⟩).1 = ((evaluateGate d).run ⟨s, journal⟩).1

theorem exported_rebuilt {s : Session} (hregular : s.env.Regular) (h : s.Exportable) :
    s.rebuilt.exported = s.exported := by
  have hcopy : s.rebuilt.env.Regular := (env_rebuilt hregular).symm ▸ hregular
  obtain ⟨gates, hexport, hgates⟩ := exported_eq hregular h
  obtain ⟨gates', hexport', hgates'⟩ := exported_eq hcopy (exportable_rebuilt hregular h)
  rw [contents_rebuilt hregular, ← hgates] at hgates'
  rw [hexport, hexport', env_rebuilt hregular, OrderedMap.ext hgates']

theorem isCopy_rebuilt {s : Session} (hregular : s.env.Regular) (h : s.Exportable) :
    s.rebuilt.IsCopy s where
  env := env_rebuilt hregular
  registry := get?_registry_rebuilt hregular
  stack := stack_rebuilt s
  exported := exported_rebuilt hregular h
  evaluate d journal :=
    (answers_congr (env_rebuilt hregular) (get?_registry_rebuilt hregular) d journal).1
  evaluateGate d journal :=
    (answers_congr (env_rebuilt hregular) (get?_registry_rebuilt hregular) d journal).2

/-- The export of a session is accepted, and the session made of it is a copy. -/
def Reloads (s : Session) : Prop :=
  ∃ e config copy, s.exported = .ok e ∧ Config.ofDocument e.toDocument = .ok config ∧
    (∀ journal, (ofConfig config journal).1 = .ok copy) ∧ copy.IsCopy s

/-- **A session with a regular environment reloads** if its expressions can be written. -/
theorem reloads_of_regular {s : Session} (hregular : s.env.Regular) (h : s.Exportable) :
    s.Reloads := by
  obtain ⟨gates, hexport, hgates⟩ := exported_eq hregular h
  have hconfig := Config.ofDocument_toDocument (e := ⟨s.env.globals, gates⟩) hgates
    (exportable_contents h)
  have hload := leads_load_gatesOf (nodup_contents hregular) (named_contents hregular)
    hregular.globals_named
  refine ⟨_, _, s.rebuilt, hexport, hconfig, ?_, isCopy_rebuilt hregular h⟩
  intro journal
  obtain ⟨journal', hrun⟩ := hload journal
  unfold ofConfig
  rw [hrun]
  rfl

end Session

namespace Program

open World

/-- **An export reloads.**  At every point of every run whose tasks put no bindings into
environments directly, a session whose expressions have serialized forms can be exported, its
export is accepted as a configuration, and the session made of it is a copy of the session. -/
theorem export_reloads {level : Int} {program : List Step}
    (hprogram : onlyAll Task.Indirect program) {before later : List Moment}
    (hrun : moments program (.start level) = before ++ later) (name : String)
    (hconcrete : ((lastWorld (.start level) before).session name).Exportable) :
    ((lastWorld (.start level) before).session name).Reloads :=
  Session.reloads_of_regular (regular_of_indirect hprogram hrun name) hconcrete

/-- A session with a global, a gate with a variable and an expression, and a gate with an
expression only, exported in the middle of a block. -/
theorem export_reloads_inside_block :
    let e : Expr := .join .and (.var ⟨"x", by decide⟩) (.complement (.var ⟨"y", by decide⟩))
    let assign (name : String) (x : Degree) : Step :=
      .task "s" false (.act (.assignValue (.ok (.ofText name)) (.ok (.atom (.float x)))
        (.ok (.atom .null))))
    let bind (gate : String) : Step :=
      .task "s" false (.act (.assignExpression (.ok (.ofText gate)) (.ok (.ofExpr e))))
    let program : List Step :=
      [assign "x" 0.5, bind "b", .block "s" false (.gate (.ok (.ofText "a")))
        [assign "y" 0.25, bind "a"]]
    let before := (moments program (.start 0)).take 5
    let s := (lastWorld (.start 0) before).session "s"
    onlyAll Task.Indirect program ∧ s.Exportable ∧ s.depth = 1 ∧
      s.registry.keys.map Gate.name = ["b", "a"] ∧ s.env.scopes.keys = ["a"] ∧ s.Reloads := by
  intro e assign bind program before s
  have hprogram : onlyAll Task.Indirect program := by
    simp [program, assign, bind, onlyAll, Step.Only, Task.Indirect]
  have hexportable : s.Exportable := by
    unfold Session.Exportable
    decide +kernel
  exact ⟨hprogram, hexportable, by decide +kernel, by decide +kernel, by decide +kernel,
    export_reloads hprogram (List.take_append_drop 5 _).symm "s" hexportable⟩

end Program

end FuzzyGates
