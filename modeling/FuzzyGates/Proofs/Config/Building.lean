import FuzzyGates.Proofs.Config.Exports
import FuzzyGates.Proofs.Document.Range
import FuzzyGates.Proofs.Session.Loading

/-!
# Building a session from a document

Building a session reads a configuration from a document and loads it into a fresh session.
Most of what can be wrong is collected and reported as a refusal of the configuration.  Four
things are not: reading serialized logic can break off on a number that is no degree or on
keys without an order, a format of log lines can turn out to have no field, and the load can
refuse an assignment that the check has let pass.

* `raised?` — the failure of a computation; `raised?_bind_of_none`, `raised?_mapM`.
* `Logic.breakOff?`, `Config.serializedLogic` — the failure that ends a check at once, and the
  documents that it can come from.
* `raised?_check` — a check fails with the first of these failures, if there is one.
* `fst_ofConfig` — how loading into a fresh session ends.
* **`building_escapes_iff`** — which failures of building are no refusals, and when.
-/

namespace FuzzyGates

variable {α β : Type}

/-! ### The failure of a computation -/

/-- The failure of a computation, if it fails. -/
def raised? : Except Failure α → Option Failure
  | .error f => some f
  | .ok _ => none

/-- A computation with a result fails as what follows it. -/
theorem raised?_bind_of_none {x : Except Failure α} {k : α → Except Failure β}
    {r : Option Failure} (hx : raised? x = none) (hk : ∀ a, raised? (k a) = r) :
    raised? (x >>= k) = r := by
  cases x with
  | error f => cases hx
  | ok a => exact hk a

/-- What is made of a result does not fail. -/
theorem raised?_bind_pure (x : Except Failure α) (g : α → β) :
    raised? (x >>= fun a => pure (g a)) = raised? x := by
  cases x <;> rfl

/-- A traversal fails with the first failure on its way. -/
theorem raised?_mapM (f : α → Except Failure β) (l : List α) :
    raised? (l.mapM f) = l.findSome? fun a => raised? (f a) := by
  induction l with
  | nil => rfl
  | cons a rest ih =>
      rw [List.mapM_cons, List.findSome?_cons, ← ih]
      cases hfirst : f a with
      | error e => rfl
      | ok b => cases hrest : rest.mapM f <;> rfl

/-! ### Checks that end at once -/

/-- The failure that serialized logic ends a check with.  Everything else that is wrong with it
is an issue of the configuration. -/
def Logic.breakOff? (d : Document) : Option Failure :=
  match Logic.decode d with
  | .error .tooLarge => some .tooLarge
  | .error (.unordered later earlier) => some (.wrongKind (.order later earlier))
  | _ => none

/-- A whole number that is no degree ends a check. -/
theorem Logic.breakOff?_int {n : Int} (h : (Number.int n).degree? = none) :
    Logic.breakOff? (.atom (.int n)) = some .tooLarge := by
  have hdecode : Logic.decode (.atom (.int n)) = .error .tooLarge := by
    show (Logic.decodeDegree (.int n) >>= fun x => pure (.value x) :
      Except Logic.ReadError Expr) = _
    unfold Logic.decodeDegree
    rw [h]
    rfl
  unfold Logic.breakOff?
  rw [hdecode]

namespace Config

/-- The serialized logic that the data of a gate hold. -/
def gateLogic? : Document → Option Document
  | .mapping fields => Document.field? fields "expression"
  | _ => none

/-- The serialized logic that the data of all gates hold. -/
def gatesLogic : Document → List Document
  | .mapping gates => gates.filterMap fun p => gateLogic? p.2
  | _ => []

/-- The serialized logic that the data of a configuration hold, in order. -/
def serializedLogic : Document → List Document
  | .mapping entries => ((Document.field? entries "gates").map gatesLogic).getD []
  | _ => []

theorem raised?_expressionField (place : List Place) (d : Document) :
    raised? (expressionField place d) = Logic.breakOff? d := by
  unfold expressionField
  split
  · rfl
  · unfold Logic.breakOff?
    cases Logic.decode d with
    | ok e => rfl
    | error e => cases e <;> rfl

theorem raised?_optional (default : α)
    (check : List Place → Document → Except Failure (Checked α)) (place : List Place)
    (entries : List (Atom × Document)) (field : String) :
    raised? (optional default check place entries field) =
      (Document.field? entries field).bind fun d => raised? (check (place ++ [.key field]) d) := by
  unfold optional
  cases Document.field? entries field <;> rfl

theorem raised?_mappingOf (check : List Place → Document → Except Failure (Checked α))
    (place : List Place) (entries : List (Atom × Document)) :
    raised? (mappingOf check place (.mapping entries)) =
      entries.findSome? fun p => raised? (check (place ++ [placeOf p.1]) p.2) := by
  refine (raised?_bind_pure _ _).trans ((raised?_mapM _ entries).trans ?_)
  have hentry (p : Atom × Document) := raised?_bind_pure (check (place ++ [placeOf p.1]) p.2)
    (textKey place p.1).both
  simp only [hentry]

/-- A mapping of degrees is checked to its end. -/
theorem raised?_degrees (place : List Place) (d : Document) :
    raised? (mappingOf (fun p d => .ok (degree p d)) place d) = none := by
  cases d with
  | mapping entries =>
      rw [raised?_mappingOf]
      exact List.findSome?_eq_none_iff.mpr fun _ _ => rfl
  | _ => rfl

/-- A field that is checked to its end ends no check. -/
theorem raised?_bind_optional {check : List Place → Document → Except Failure (Checked α)}
    (h : ∀ place d, raised? (check place d) = none) {default : α} {place : List Place}
    {entries : List (Atom × Document)} {field : String} {k : Checked α → Except Failure β}
    {r : Option Failure} (hk : ∀ c, raised? (k c) = r) :
    raised? (optional default check place entries field >>= k) = r := by
  refine raised?_bind_of_none ?_ hk
  rw [raised?_optional]
  cases Document.field? entries field with
  | none => rfl
  | some d => exact h _ d

theorem raised?_loggingField (place : List Place) (d : Document) :
    raised? (loggingField place d) = none := by
  cases d with
  | mapping entries =>
      refine raised?_bind_optional (fun _ _ => rfl) fun level => ?_
      refine raised?_bind_optional (fun _ _ => rfl) fun format => ?_
      exact raised?_bind_optional (fun _ _ => rfl) fun enabled => rfl
  | _ => rfl

/-- Checking a gate ends at once only over its serialized logic. -/
theorem raised?_gateField (place : List Place) (d : Document) :
    raised? (gateField place d) = (gateLogic? d).bind Logic.breakOff? := by
  cases d with
  | mapping fields =>
      refine raised?_bind_optional raised?_degrees fun degrees => ?_
      refine (raised?_bind_pure _ _).trans ((raised?_optional _ _ _ _ _).trans ?_)
      simp only [raised?_expressionField]
      rfl
  | _ => rfl

theorem raised?_gatesField (place : List Place) (d : Document) :
    raised? (gatesField place d) = (gatesLogic d).findSome? Logic.breakOff? := by
  refine (raised?_bind_pure _ _).trans ?_
  cases d with
  | mapping gates =>
      rw [raised?_mappingOf]
      simp only [raised?_gateField, gatesLogic, ← List.head?_filterMap, List.filterMap_filterMap]
  | _ => rfl

/-- **A check ends at once with the first failure of its serialized logic**, if there is one. -/
theorem raised?_check (d : Document) :
    raised? (check d) = (serializedLogic d).findSome? Logic.breakOff? := by
  cases d with
  | mapping entries =>
      -- the fields are checked in this order, and only the gates hold serialized logic
      refine raised?_bind_optional raised?_loggingField fun logging => ?_
      refine raised?_bind_optional raised?_degrees fun globals => ?_
      refine (raised?_bind_pure _ _).trans ((raised?_optional _ _ _ _ _).trans ?_)
      simp only [raised?_gatesField, serializedLogic]
      cases Document.field? entries "gates" <;> rfl
  | _ => rfl

/-- A document without content holds no serialized logic. -/
theorem serializedLogic_of_isVoid {d : Document} (h : d.isVoid = true) :
    serializedLogic d = [] := by
  cases d with
  | mapping entries =>
      have hentries : entries = [] := List.isEmpty_iff.mp h
      rw [hentries]
      rfl
  | _ => rfl

/-- Reading a configuration breaks off over its serialized logic, or else yields a configuration
or issues. -/
theorem ofDocument_cases (d : Document) :
    match (serializedLogic d).findSome? Logic.breakOff? with
    | some f => ofDocument d = .error f
    | none => (∃ c, ofDocument d = .ok c) ∨
        ∃ issues, ofDocument d = .error (.config (.schema issues)) := by
  have hraised : raised? (check (if d.isVoid then .mapping [] else d)) =
      (serializedLogic d).findSome? Logic.breakOff? := by
    rw [raised?_check]
    cases hvoid : d.isVoid with
    | false => rfl
    | true => rw [serializedLogic_of_isVoid hvoid]; rfl
  unfold ofDocument
  rw [← hraised]
  rcases check (if d.isVoid then .mapping [] else d) with f | issues | c
  · rfl
  · exact .inr ⟨issues, rfl⟩
  · exact .inl ⟨c, rfl⟩

/-- What is no mapping is read as the empty configuration if it is void, and refused else. -/
theorem ofDocument_of_not_mapping {d : Document} (h : ∀ entries, d ≠ .mapping entries) :
    ofDocument d = if d.isVoid then .ok ⟨{}, ∅, ∅⟩
      else .error (.config (.schema [⟨[], .record "SessionConfig"⟩])) := by
  unfold ofDocument
  cases hvoid : d.isVoid with
  | true => rfl
  | false =>
      cases d with
      | mapping entries => exact absurd rfl (h entries)
      | _ => rfl

end Config

open Config (Assignment)
open Config.Assignment (putAll firstRefusal outcome)

namespace Session

/-- The refusal that loading a configuration meets first. -/
def loadRefusal? (c : Config) : Option Failure :=
  c.logging.refusal?.or (firstRefusal c.assignments)

theorem fst_ofConfig (c : Config) (journal : Log.Journal) :
    (ofConfig c journal).1 = match loadRefusal? c with
      | some f => .error f
      | none => .ok (putAll c.assignments fresh) := by
  have hload := ends_load c fresh
  unfold loadRefusal?
  cases hlogging : c.logging.refusal? with
  | some f =>
      rw [hlogging] at hload
      obtain ⟨journal', hrun⟩ := hload journal
      rw [ofConfig, hrun]
      rfl
  | none =>
      rw [hlogging] at hload
      obtain ⟨journal', hrun⟩ := hload journal
      rw [ofConfig, hrun, Option.none_or]
      unfold outcome
      cases hfirst : firstRefusal c.assignments with
      | some f => rfl
      | none =>
          rw [Assignment.untilRefused_of_none hfirst]
          rfl

/-- A session built from a document. -/
def ofDocument (d : Document) (journal : Log.Journal) : Except Failure Session := do
  (ofConfig (← Config.ofDocument d) journal).1

end Session

/-! ### What is not reported as a refusal -/

/-- The failures that come up while a session is built and are no refusals of the configuration. -/
inductive Failure.Escapes : Failure → Prop
  | tooLarge : Escapes .tooLarge
  | order (later earlier : Atom) : Escapes (.wrongKind (.order later earlier))
  | format (f : String) : Escapes (.wrongChoice (.format f))
  | unnamed : Escapes (.badTarget (.ofText ""))

theorem Failure.Escapes.ne_config {f : Failure} (h : f.Escapes) (e : ConfigError) :
    f ≠ .config e := by
  rintro rfl
  cases h

theorem Logic.escapes_of_breakOff? {d : Document} {f : Failure} (h : Logic.breakOff? d = some f) :
    f.Escapes := by
  unfold Logic.breakOff? at h
  split at h
  · cases h
    exact .tooLarge
  · cases h
    exact .order _ _
  · cases h

theorem Config.Assignment.escapes_of_refusal? {a : Assignment} {f : Failure}
    (h : a.refusal? = some f) : f.Escapes := by
  cases a with
  | expression g e => cases h
  | degree scope name value =>
      simp only [refusal?] at h
      split at h
      · next hname =>
          cases h
          exact hname ▸ .unnamed
      · split at h
        · cases h
          exact .tooLarge
        · cases h

theorem LoggingOptions.escapes_of_refusal? {o : LoggingOptions} {f : Failure}
    (h : o.refusal? = some f) : f.Escapes := by
  unfold refusal? at h
  split at h
  · split at h
    · cases h
      exact .format _
    · cases h
  · cases h

namespace Session

theorem escapes_of_loadRefusal? {c : Config} {f : Failure} (h : loadRefusal? c = some f) :
    f.Escapes := by
  rcases Option.or_eq_some_iff.mp h with hlogging | ⟨-, hfirst⟩
  · exact LoggingOptions.escapes_of_refusal? hlogging
  · obtain ⟨a, -, -, ha⟩ := Config.Assignment.exists_of_firstRefusal hfirst
    exact Config.Assignment.escapes_of_refusal? ha

/-- Building a session breaks off with a failure: it ends the check, or else the load of the
configuration that has been read. -/
def BreaksOff (d : Document) (f : Failure) : Prop :=
  (Config.serializedLogic d).findSome? Logic.breakOff? = some f ∨
    ∃ c, Config.ofDocument d = .ok c ∧ loadRefusal? c = some f

theorem BreaksOff.escapes {d : Document} {f : Failure} (h : BreaksOff d f) : f.Escapes := by
  rcases h with hbreak | ⟨c, -, hrefusal⟩
  · obtain ⟨x, -, hx⟩ := List.exists_of_findSome?_eq_some hbreak
    exact Logic.escapes_of_breakOff? hx
  · exact escapes_of_loadRefusal? hrefusal

theorem BreaksOff.ofDocument_eq {d : Document} {f : Failure} (h : BreaksOff d f)
    (journal : Log.Journal) : ofDocument d journal = .error f := by
  unfold ofDocument
  rcases h with hbreak | ⟨c, hc, hrefusal⟩
  · have hread := Config.ofDocument_cases d
    rw [hbreak] at hread
    dsimp only at hread
    rw [hread]
    rfl
  · rw [hc]
    show (ofConfig c journal).1 = _
    rw [fst_ofConfig, hrefusal]

theorem breaksOff_of_ofDocument_eq {d : Document} {journal : Log.Journal} {f : Failure}
    (h : ofDocument d journal = .error f) (hf : ∀ e, f ≠ .config e) : BreaksOff d f := by
  have hread := Config.ofDocument_cases d
  unfold ofDocument at h
  cases hbreak : (Config.serializedLogic d).findSome? Logic.breakOff? with
  | some f' =>
      rw [hbreak] at hread
      dsimp only at hread
      rw [hread] at h
      cases h
      exact .inl hbreak
  | none =>
      rw [hbreak] at hread
      rcases hread with ⟨c, hread⟩ | ⟨issues, hread⟩
      · rw [hread] at h
        have hload : (ofConfig c journal).1 = .error f := h
        rw [fst_ofConfig] at hload
        cases hrefusal : loadRefusal? c with
        | some f' =>
            rw [hrefusal] at hload
            cases hload
            exact .inr ⟨c, hread, hrefusal⟩
        | none =>
            rw [hrefusal] at hload
            cases hload
      · rw [hread] at h
        cases h
        exact absurd rfl (hf _)

/-- **Building a session fails with a refusal of the configuration, except** where serialized
logic breaks off the check or the load refuses what the check has let pass, and then with that
failure.  What is no mapping is refused unless it is void. -/
theorem building_escapes_iff (d : Document) (journal : Log.Journal) :
    (∀ f, (ofDocument d journal = .error f ∧ ∀ e, f ≠ .config e) ↔ f.Escapes ∧ BreaksOff d f) ∧
    ((∃ entries, d = .mapping entries) ∨
      Config.ofDocument d = if d.isVoid then .ok ⟨{}, ∅, ∅⟩
        else .error (.config (.schema [⟨[], .record "SessionConfig"⟩]))) := by
  constructor
  · intro f
    constructor
    · rintro ⟨herror, hf⟩
      have hbreaks := breaksOff_of_ofDocument_eq herror hf
      exact ⟨hbreaks.escapes, hbreaks⟩
    · rintro ⟨hf, hbreaks⟩
      exact ⟨hbreaks.ofDocument_eq journal, hf.ne_config⟩
  · by_cases hmapping : ∃ entries, d = .mapping entries
    · exact .inl hmapping
    · exact .inr (Config.ofDocument_of_not_mapping fun entries heq => hmapping ⟨entries, heq⟩)

/-- The data of a gate whose expression is the least whole number that is no degree. -/
def tooLargeLogic : Document :=
  .mapping [(.text "gates", .mapping [(.text "g", .mapping [(.text "expression",
    .atom (.int Decimal.overflowBound))])])]

/-- Not every failure of building a session is a refusal of the configuration, and not all data
that are neither null nor a mapping are refused. -/
theorem building_not_only_refuses :
    ¬((∃ s, ofDocument tooLargeLogic (.start .unconfigured) = .ok s) ∨
      ∃ e, ofDocument tooLargeLogic (.start .unconfigured) = .error (.config e)) ∧
    Config.ofDocument (.list []) = .ok ⟨{}, ∅, ∅⟩ := by
  have hdegree : (Number.int Decimal.overflowBound).degree? = none :=
    Number.degree?_eq_none_iff.mpr (Number.not_inRange_natCast (Nat.le_refl _))
  have hbreaks : BreaksOff tooLargeLogic .tooLarge := by
    have hlogic : Config.serializedLogic tooLargeLogic =
        [.atom (.int Decimal.overflowBound)] := rfl
    refine .inl ?_
    rw [hlogic, List.findSome?_cons, Logic.breakOff?_int hdegree]
  have hfails := hbreaks.ofDocument_eq (.start .unconfigured)
  constructor
  · rintro (⟨s, hs⟩ | ⟨e, he⟩)
    · rw [hfails] at hs
      cases hs
    · rw [hfails] at he
      cases he
  · rfl

end Session

end FuzzyGates
