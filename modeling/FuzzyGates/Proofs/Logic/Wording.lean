import FuzzyGates.Failure
import FuzzyGates.Proofs.Logic.Grammar
import Mathlib.Data.List.Induction

/-!
# How offences are worded

What a report says, without recourse to the functions that write it: the text of a path grows with
each step on the way down, and each rule has its words.

* `Form.Named`, `Form.Spelled` — the canonical names, and all spellings.
* `Path.Written` — the texts of paths.
* `Reason.Worded` — the words for the rules.
* **`message_eq_iff`** — a report is the text of its path and the words for its rule.
-/

namespace FuzzyGates

namespace Logic

/-! ### Names of forms -/

/-- The canonical names of the forms. -/
inductive Form.Named : Form → String → Prop
  | value : Named .value "value"
  | var : Named .var "var"
  | add : Named (.apply (.join .add)) "add"
  | mult : Named (.apply (.join .mult)) "mult"
  | and : Named (.apply (.join .and)) "and"
  | or : Named (.apply (.join .or)) "or"
  | xor : Named (.apply (.join .xor)) "xor"
  | complement : Named (.apply .complement) "complement"
  | alphaCut : Named (.apply .alphaCut) "alpha_cut"

theorem Form.named_tag (f : Form) : f.Named f.tag := by
  cases f with
  | value => exact .value
  | var => exact .var
  | apply o =>
      cases o with
      | complement => exact .complement
      | alphaCut => exact .alphaCut
      | join c =>
          cases c with
          | add => exact .add
          | mult => exact .mult
          | and => exact .and
          | or => exact .or
          | xor => exact .xor

/-- The spellings of the forms: their names and the alternative spellings of some operators. -/
inductive Form.Spelled : Form → String → Prop
  | name {f : Form} {s : String} (h : f.Named s) : Spelled f s
  | exclamation : Spelled (.apply .complement) "!"
  | not : Spelled (.apply .complement) "not"
  | plus : Spelled (.apply (.join .add)) "+"
  | asterisk : Spelled (.apply (.join .mult)) "*"
  | multi : Spelled (.apply (.join .mult)) "multi"
  | min : Spelled (.apply (.join .and)) "min"
  | max : Spelled (.apply (.join .or)) "max"
  | alphaCut : Spelled (.apply .alphaCut) "alphaCut"

/-- The alternative spellings are spellings of the form whose name they stand for. -/
theorem Form.exists_spelled : ∀ p ∈ aliases, ∃ f : Form, f.tag = p.2 ∧ f.Spelled p.1 := by
  simp only [aliases, List.forall_mem_cons]
  exact ⟨⟨_, rfl, .exclamation⟩, ⟨_, rfl, .not⟩, ⟨_, rfl, .plus⟩, ⟨_, rfl, .asterisk⟩,
    ⟨_, rfl, .min⟩, ⟨_, rfl, .max⟩, ⟨_, rfl, .alphaCut⟩, ⟨_, rfl, .multi⟩, nofun⟩

/-- A spelling of a form has the name of the form as its canonical spelling. -/
theorem Form.spelled_iff {f : Form} {s : String} : f.Spelled s ↔ canonical s = f.tag := by
  constructor
  · intro h
    cases h with
    | name hname => cases hname <;> rfl
    | _ => rfl
  · intro h
    unfold canonical at h
    split at h
    · next p hp =>
        have hspelling := List.find?_some hp
        obtain ⟨g, hname, hspelled⟩ := exists_spelled p (List.mem_of_find?_eq_some hp)
        rw [of_decide_eq_true hspelling, tag_inj (hname.trans h)] at hspelled
        exact hspelled
    · rw [h]
      exact .name f.named_tag

/-- The keys that announce a form are its spellings. -/
theorem Form.ofKey?_eq_some_iff_spelled {key : Atom} {f : Form} :
    Form.ofKey? key = some f ↔ ∃ s, key = .text s ∧ f.Spelled s := by
  simp only [Form.ofKey?_eq_some_iff, Form.spelled_iff]

/-! ### Paths -/

/-- The text of a path: `$` for the root, then the name of each operator after a dot and the index
of each operand in brackets. -/
inductive Path.Written : Path → String → Prop
  | root : Written [] "$"
  | operator {path : Path} {text : String} (h : Written path text) (name : String) :
      Written (path ++ [.operator name]) (text ++ "." ++ name)
  | operand {path : Path} {text : String} (h : Written path text) (i : Nat) :
      Written (path ++ [.operand i]) (text ++ "[" ++ toString i ++ "]")

theorem Path.text_append (path rest : Path) :
    Path.text (path ++ rest) = Path.text path ++ String.join (rest.map Segment.text) := by
  unfold Path.text
  rw [List.map_append, String.join_append, String.append_assoc]

theorem Path.text_operator (path : Path) (name : String) :
    Path.text (path ++ [.operator name]) = Path.text path ++ "." ++ name := by
  rw [text_append, String.append_assoc]
  rfl

theorem Path.text_operand (path : Path) (i : Nat) :
    Path.text (path ++ [.operand i]) = Path.text path ++ "[" ++ toString i ++ "]" := by
  rw [text_append, String.append_assoc, String.append_assoc]
  rfl

/-- Each path has one text. -/
theorem Path.written_iff {path : Path} {text : String} :
    Path.Written path text ↔ text = Path.text path := by
  constructor
  · intro h
    induction h with
    | root => rfl
    | operator _ name ih => rw [text_operator, ih]
    | operand _ i ih => rw [text_operand, ih]
  · rintro rfl
    induction path using List.reverseRecOn with
    | nil => exact .root
    | append_singleton path s ih =>
        cases s with
        | operator name =>
            rw [text_operator]
            exact ih.operator name
        | operand i =>
            rw [text_operand]
            exact ih.operand i

/-! ### Rules -/

/-- The words for a rule that is broken.  Keys are listed with their kinds visible, as the items of
a list are. -/
inductive Reason.Worded : Reason → String → Prop
  | truthValue : Worded .truthValue "booleans are not fuzzy values"
  | emptyName : Worded .emptyName "empty variable name"
  | wrongKind (kind : String) :
      Worded (.wrongKind kind) ("expected number, string or object, got " ++ kind)
  | operatorCount (keys : List Atom) :
      Worded (.operatorCount keys) ("expression object must have exactly one operator, got " ++
        ("[" ++ ", ".intercalate (keys.map Atom.fullText) ++ "]"))
  | unknownOperator (name : String) :
      Worded (.unknownOperator (.text name)) ("unknown operator '" ++ name ++ "'")
  | unknownKey {key : Atom} (h : ∀ name, key ≠ .text name) :
      Worded (.unknownOperator key) ("unknown operator '" ++ key.plainText ++ "'")
  | variableName : Worded .variableName "variable name must be a non-empty string"
  | notNumber : Worded .notNumber "expected a number"
  | argumentCount (n : Nat) :
      Worded (.argumentCount n) ("expected a list of " ++ toString n ++ " argument(s)")
  | thresholdNotNumber : Worded .thresholdNotNumber "threshold must be a number"

theorem itemsText_map_atom (keys : List Atom) :
    Document.itemsText (keys.map .atom) = ", ".intercalate (keys.map Atom.fullText) := by
  induction keys with
  | nil => rfl
  | cons key rest ih =>
      cases rest with
      | nil => simp [Document.itemsText, Document.fullText]
      | cons next rest =>
          simp only [List.map_cons] at ih ⊢
          rw [String.intercalate_cons_cons, ← ih]
          rfl

theorem fullText_list_atom (keys : List Atom) : (Document.list (keys.map .atom)).fullText =
    "[" ++ ", ".intercalate (keys.map Atom.fullText) ++ "]" := by
  rw [← itemsText_map_atom]
  rfl

theorem message_operatorCount (keys : List Atom) : (Reason.operatorCount keys).message =
    "expression object must have exactly one operator, got " ++
      ("[" ++ ", ".intercalate (keys.map Atom.fullText) ++ "]") := by
  rw [← fullText_list_atom]
  rfl

/-- Each rule has its words. -/
theorem Reason.worded_iff {reason : Reason} {words : String} :
    reason.Worded words ↔ words = reason.message := by
  constructor
  · intro h
    cases h with
    | operatorCount keys => exact (message_operatorCount keys).symm
    | _ => rfl
  · rintro rfl
    cases reason with
    | truthValue => exact .truthValue
    | emptyName => exact .emptyName
    | wrongKind kind => exact .wrongKind kind
    | operatorCount keys =>
        rw [message_operatorCount]
        exact .operatorCount keys
    | unknownOperator key =>
        by_cases htext : ∃ name, key = .text name
        · obtain ⟨name, rfl⟩ := htext
          exact .unknownOperator name
        · exact .unknownKey fun name h => htext ⟨name, h⟩
    | variableName => exact .variableName
    | notNumber => exact .notNumber
    | argumentCount n => exact .argumentCount n
    | thresholdNotNumber => exact .thresholdNotNumber

/-- **A report is the text of its path and the words for its rule**, with a colon between. -/
theorem message_eq_iff (path : Path) (reason : Reason) (message : String) :
    (Failure.ofRead (.malformed path reason)).message = message ↔
      ∃ text words, Path.Written path text ∧ reason.Worded words ∧
        message = text ++ ": " ++ words := by
  have hmessage : (Failure.ofRead (.malformed path reason)).message =
      Path.text path ++ ": " ++ reason.message := rfl
  rw [hmessage]
  constructor
  · rintro rfl
    exact ⟨_, _, Path.written_iff.mpr rfl, Reason.worded_iff.mpr rfl, rfl⟩
  · rintro ⟨text, words, htext, hwords, rfl⟩
    rw [Path.written_iff.mp htext, Reason.worded_iff.mp hwords]

/-- The second operand of an alpha cut is its threshold. -/
example : (Failure.ofRead (.malformed [.operator "complement", .operand 0, .operator "alpha_cut",
    .operand 1] .thresholdNotNumber)).message =
      "$.complement[0].alpha_cut[1]: threshold must be a number" := by
  decide

end Logic

end FuzzyGates
