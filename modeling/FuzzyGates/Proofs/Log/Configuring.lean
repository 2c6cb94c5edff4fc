import FuzzyGates.Log.Logger
import FuzzyGates.Proofs.Failure

/-!
# Configuring the logger

Configuring gives the logger a level, and a handler of its own that level and a format.  The
level is looked up first; whether the format is one shows only after the level has been given.
So a configuration is refused in two ways, one without a trace and one that leaves the level.

* `GivesLevel`, `levelOf_eq_ok_iff`, `GivesFormat`, `formatOf_eq_ok_iff` — which documents give a
  level or a format.
* `filter_own_withOwn`, `withOwn_withOwn`, `withOwn_eq_self_iff` — changing the own handler.
* `Logger.levelled`, `Logger.configured` — the logger after the level, and after the format too.
* `configure_eq`, `configure_eq_ok_iff`, `configure_eq_error_iff` — what configuring comes to.
* `configure_traceless_iff` — when a refusal leaves no trace.
* `own_configured`, `foreign_configured` — one own handler, the others as they were.
-/

namespace FuzzyGates.Log

/-! ### Levels and formats -/

/-- A document gives a level: the name of one in any case, a whole number or a truth value. -/
inductive GivesLevel : Document → Level → Prop
  | name {s : String} {l : LevelName} (h : s.toList.map LevelName.upper = l.text.toList) :
      GivesLevel (.ofText s) (.number l.severity)
  | number (n : Int) : GivesLevel (.atom (.int n)) (.number n)
  | truth (b : Bool) : GivesLevel (.atom (.bool b)) (.flag b)

theorem LevelName.ofText?_eq_some_iff {s : String} {l : LevelName} :
    ofText? s = some l ↔ s.toList.map upper = l.text.toList := by
  constructor
  · intro h
    have hfound := List.find?_some h
    exact (of_decide_eq_true hfound).symm
  · intro h
    -- no two names are spelled alike, so the first one found is the one
    have hspelled : ofText? s = all.find? fun m => m.text.toList = l.text.toList := by
      rw [ofText?, h]
    rw [hspelled]
    cases l <;> decide

theorem levelOf_eq_ok_iff {d : Document} {v : Level} : levelOf d = .ok v ↔ GivesLevel d v := by
  constructor
  · intro h
    unfold levelOf at h
    split at h
    · next s =>
        cases hname : LevelName.ofText? s with
        | none =>
            rw [hname] at h
            cases h
        | some l =>
            rw [hname] at h
            cases h
            exact .name (LevelName.ofText?_eq_some_iff.mp hname)
    · cases h
      exact .number _
    · cases h
      exact .truth _
    · cases h
  · intro h
    cases h with
    | name hname =>
        show levelOf (.atom (.text _)) = _
        simp only [levelOf, LevelName.ofText?_eq_some_iff.mpr hname]
    | number n => rfl
    | truth b => rfl

theorem levelOf_text (l : LevelName) : levelOf (.ofText l.text) = .ok (.number l.severity) := by
  have hupper : l.text.toList.map LevelName.upper = l.text.toList := by cases l <;> decide
  exact levelOf_eq_ok_iff.mpr (.name hupper)

theorem GivesLevel.unique {d : Document} {v w : Level} (hv : GivesLevel d v)
    (hw : GivesLevel d w) : v = w := by
  rw [← levelOf_eq_ok_iff] at hv hw
  exact Except.ok.inj (hv.symm.trans hw)

/-- A document gives a format: a text with a field gives itself, and what is void gives the
format of the bare message. -/
inductive GivesFormat : Document → String → Prop
  | text {s : String} (h : hasField s.toList = true) : GivesFormat (.ofText s) s
  | void {d : Document} (h : d.isVoid = true) : GivesFormat d messageFormat

theorem formatOf_text {f : String} (h : f ≠ "") : formatOf (.ofText f) =
    if hasField f.toList then .ok f else .error (.wrongChoice (.format f)) := by
  have hvoid : (Document.ofText f).isVoid = false := by simp [Document.ofText, Document.isVoid, h]
  simp only [formatOf, hvoid, Bool.false_eq_true, ↓reduceIte]
  rfl

theorem formatOf_eq_ok_iff {d : Document} {f : String} :
    formatOf d = .ok f ↔ GivesFormat d f := by
  constructor
  · intro h
    unfold formatOf at h
    split at h
    · next hvoid =>
        cases h
        exact .void hvoid
    · split at h
      · next s _ =>
          cases hfield : hasField s.toList with
          | false =>
              rw [hfield] at h
              cases h
          | true =>
              rw [hfield] at h
              cases h
              exact .text hfield
      · cases h
  · intro h
    cases h with
    | text hfield =>
        have hne : f ≠ "" := by
          rintro rfl
          exact absurd hfield (by decide)
        rw [formatOf_text hne, if_pos hfield]
    | void hvoid => simp [formatOf, hvoid]

namespace Handler

/-- The handler at a level. -/
def atLevel (v : Level) (h : Handler) : Handler := { h with level := v }

/-- The handler with a format. -/
def withFormat (format : String) (h : Handler) : Handler := { h with format := some format }

variable {v : Level} {h : Handler}

theorem atLevel_eq_self_iff : h.atLevel v = h ↔ h.level = v := by
  constructor
  · intro heq
    exact congrArg level heq.symm
  · rintro rfl
    rfl

end Handler

namespace Logger

/-! ### Changing the own handler -/

section WithOwn

variable {f g : Handler → Handler} {hs : List Handler}

/-- Changing the own handler changes the first of the own handlers, whatever stands between. -/
theorem filter_own_withOwn (hf : ∀ h : Handler, h.own → (f h).own) :
    (withOwn f hs).filter (fun h => h.own) = withOwn f (hs.filter fun h => h.own) := by
  induction hs with
  | nil => simp [withOwn, hf]
  | cons h rest ih =>
      by_cases ho : h.own = true
      · simp [withOwn, ho, hf h ho]
      · simp [withOwn, ho, ih]

/-- Changing the own handler twice changes it once by both changes: the second finds the handler
that the first has changed or added. -/
theorem withOwn_withOwn (hf : ∀ h : Handler, h.own → (f h).own) :
    withOwn g (withOwn f hs) = withOwn (g ∘ f) hs := by
  induction hs with
  | nil => simp [withOwn, hf]
  | cons h rest ih =>
      by_cases ho : h.own = true
      · simp [withOwn, ho, hf h ho]
      · simp [withOwn, ho, ih]

/-- Nothing is changed only if there is an own handler and the first one is as it should be. -/
theorem withOwn_eq_self_iff :
    withOwn f hs = hs ↔ ∃ h, hs.find? (fun h => h.own) = some h ∧ f h = h := by
  induction hs with
  | nil => simp [withOwn]
  | cons h rest ih =>
      by_cases ho : h.own = true
      · simp [withOwn, ho]
      · simp [withOwn, ho, ih]

end WithOwn

/-! ### The logger after configuring -/

/-- The handlers that configuring has put there. -/
def own (l : Logger) : List Handler := l.handlers.filter fun h => h.own

/-- The handlers of other origin. -/
def foreign (l : Logger) : List Handler := l.handlers.filter fun h => !h.own

/-- The logger at a level, with a handler of its own at that level. -/
def levelled (v : Level) (l : Logger) : Logger :=
  ⟨v, withOwn (Handler.atLevel v) l.handlers⟩

/-- The logger at a level, with a handler of its own at that level that has a format. -/
def configured (v : Level) (format : String) (l : Logger) : Logger :=
  ⟨v, withOwn (Handler.withFormat format ∘ Handler.atLevel v) l.handlers⟩

variable {l : Logger} {v : Level} {format : String}

/-- The logger is at a level, and has a handler of its own that is at it too. -/
def At (v : Level) (l : Logger) : Prop :=
  l.level = v ∧ ∃ h, l.handlers.find? (fun h => h.own) = some h ∧ h.level = v

/-- A level is given without a trace only to a logger that is at it already. -/
theorem levelled_eq_self_iff : l.levelled v = l ↔ l.At v := by
  obtain ⟨level, handlers⟩ := l
  rw [levelled, At, mk.injEq, withOwn_eq_self_iff, eq_comm (a := v)]
  simp only [Handler.atLevel_eq_self_iff]

@[simp] theorem foreign_levelled : (l.levelled v).foreign = l.foreign :=
  foreign_withOwn (Handler.atLevel v) (fun _ ho => ho) l.handlers

@[simp] theorem foreign_configured : (l.configured v format).foreign = l.foreign :=
  foreign_withOwn (Handler.withFormat format ∘ Handler.atLevel v) (fun _ ho => ho) l.handlers

/-- At most one own handler becomes exactly one, changed if it was there and added if not. -/
theorem own_withOwn {f : Handler → Handler} (hf : ∀ h : Handler, h.own → (f h).own)
    (h : l.own.length ≤ 1) : ∃ before : Handler, before.own ∧
      (withOwn f l.handlers).filter (fun h => h.own) = [f before] := by
  have hmem (k : Handler) (hk : k ∈ l.own) : k.own := (List.mem_filter.mp hk).2
  rw [filter_own_withOwn hf]
  change ∃ before : Handler, before.own ∧ withOwn f l.own = [f before]
  match hown : l.own with
  | [] => exact ⟨⟨true, .number 0, none⟩, rfl, rfl⟩
  | [k] =>
      have hk := hmem k (by simp [hown])
      exact ⟨k, hk, by simp [withOwn, hk]⟩
  | _ :: _ :: _ => simp [hown] at h

theorem length_own_levelled (h : l.own.length ≤ 1) : (l.levelled v).own.length = 1 := by
  obtain ⟨before, -, hown⟩ := own_withOwn (f := Handler.atLevel v) (fun _ ho => ho) h
  exact congrArg List.length hown

/-- Afterwards the own handler is the one that was asked for, and the only one. -/
theorem own_configured (h : l.own.length ≤ 1) :
    (l.configured v format).own = [⟨true, v, some format⟩] := by
  obtain ⟨before, hbefore, hown⟩ :=
    own_withOwn (f := Handler.withFormat format ∘ Handler.atLevel v) (fun _ ho => ho) h
  have hresult : (Handler.withFormat format ∘ Handler.atLevel v) before =
      ⟨true, v, some format⟩ := by
    show (⟨before.own, v, some format⟩ : Handler) = _
    rw [hbefore]
  rw [← hresult]
  exact hown

end Logger

/-! ### Configuring -/

open Logger

variable {level format : Document} {l after : Logger}

/-- What configuring comes to: nothing, the level only, or the level and the format. -/
theorem configure_eq (level format : Document) (l : Logger) : configure level format l =
    match levelOf level with
    | .error e => (.error e, l)
    | .ok v =>
        match formatOf format with
        | .error e => (.error e, l.levelled v)
        | .ok f => (.ok (), l.configured v f) := by
  unfold configure
  cases levelOf level with
  | error e => rfl
  | ok v =>
      cases formatOf format with
      | error e => rfl
      | ok f =>
          have htwice : withOwn (Handler.withFormat f) (l.levelled v).handlers =
              (l.configured v f).handlers := withOwn_withOwn fun _ ho => ho
          show (_, (⟨v, withOwn (Handler.withFormat f) (l.levelled v).handlers⟩ : Logger)) = _
          rw [htwice]
          rfl

theorem configure_eq_ok_iff : configure level format l = (.ok (), after) ↔
    ∃ v f, GivesLevel level v ∧ GivesFormat format f ∧ after = l.configured v f := by
  simp only [← levelOf_eq_ok_iff, ← formatOf_eq_ok_iff]
  rw [configure_eq]
  cases levelOf level with
  | error e => simp
  | ok v => cases formatOf format <;> simp [eq_comm]

/-- A configuration is refused for its level, and then nothing has changed, or for its format,
and then the level has been given. -/
theorem configure_eq_error_iff {e : Failure} : configure level format l = (.error e, after) ↔
    (levelOf level = .error e ∧ after = l) ∨
      ∃ v, GivesLevel level v ∧ formatOf format = .error e ∧ after = l.levelled v := by
  simp only [← levelOf_eq_ok_iff]
  rw [configure_eq]
  cases levelOf level with
  | error e => simp [eq_comm]
  | ok v => cases formatOf format <;> simp [eq_comm]

/-- No refusal leaves a trace exactly if the document for the level gives none, if the logger is
at the level already, or if the format is granted, so that there is no refusal. -/
theorem configure_traceless_iff :
    (∀ e after, configure level format l = (.error e, after) → after = l) ↔
      (∀ v, ¬ GivesLevel level v) ∨ (∃ v, GivesLevel level v ∧ l.At v) ∨
        ∃ f, GivesFormat format f := by
  constructor
  · intro h
    cases hlevel : levelOf level with
    | error e =>
        refine .inl fun v hv => ?_
        rw [levelOf_eq_ok_iff.mpr hv] at hlevel
        cases hlevel
    | ok v =>
        have hv := levelOf_eq_ok_iff.mp hlevel
        cases hformat : formatOf format with
        | error e =>
            have hrefused : configure level format l = (.error e, l.levelled v) :=
              configure_eq_error_iff.mpr (.inr ⟨v, hv, hformat, rfl⟩)
            have hleft : l.levelled v = l := h e _ hrefused
            exact .inr (.inl ⟨v, hv, levelled_eq_self_iff.mp hleft⟩)
        | ok f => exact .inr (.inr ⟨f, formatOf_eq_ok_iff.mp hformat⟩)
  · intro h e after hrefused
    rcases configure_eq_error_iff.mp hrefused with ⟨-, hafter⟩ | ⟨v, hv, hformat, hafter⟩
    · exact hafter
    · rcases h with hnone | ⟨w, hw, hat⟩ | ⟨f, hf⟩
      · exact absurd hv (hnone v)
      · have hvw : v = w := GivesLevel.unique hv hw
        rw [hafter, hvw]
        exact levelled_eq_self_iff.mpr hat
      · rw [formatOf_eq_ok_iff.mpr hf] at hformat
        cases hformat

end FuzzyGates.Log
