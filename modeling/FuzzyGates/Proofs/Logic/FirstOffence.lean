import FuzzyGates.Proofs.Logic.BreakOff
import FuzzyGates.Proofs.Logic.Position
import FuzzyGates.Proofs.Logic.Wording

/-!
# The first offence

Each position that reading visits has a rule of its own, which looks at nothing that stands
elsewhere.  A document is refused for the first position that breaks its rule, and what has been
visited before is well formed.  So it does not matter where in a larger document a part stands:
all that changes in the report is the beginning of the path.

* `Spot.Obeys`, `Spot.Breaks` — the rules.
* `Spot.Obeys.not_breaks`, `Spot.Breaks.unique` — a rule is kept or broken, and in one way only.
* `FirstOffence`, `FirstOffence.unique` — the first position that breaks its rule.
* `wellFormed_of_denotes` — where a tree is denoted all rules are kept.
* `firstOffence_of_decodeAt` — what is refused has a first offence, and it is the one reported.
* `decodeAt_eq_malformed_iff` — when a document is refused, and what is reported then.
* **`reading_reports_first_offence`** — the report on a document, alone and inside another.
-/

namespace FuzzyGates

namespace Logic

/-! ### The rules -/

/-- The kinds of document that can be no nodes, each with its name. -/
inductive Foreign : Document → String → Prop
  | null : Foreign (.atom .null) "NoneType"
  | bytes (bs : List UInt8) : Foreign (.atom (.bytes bs)) "bytes"
  | date (d : Calendar.Date) : Foreign (.atom (.date d)) "date"
  | moment (m : Calendar.Moment) : Foreign (.atom (.moment m)) "datetime"
  | gate (g : Gate) : Foreign (.atom (.gate g)) "Gate"
  | pair (a b : Document) : Foreign (.pair a b) "tuple"
  | list (items : List Document) : Foreign (.list items) "list"
  | set (elements : List Atom) : Foreign (.set elements) "set"

/-- Whether a document is a name. -/
def isName : Document → Bool
  | .atom (.text s) => s ≠ ""
  | _ => false

/-- The rule of a position is kept. -/
inductive Spot.Obeys : Spot → Prop
  | expr (e : Expr) : Obeys (.node (.atom (.expr e)))
  | number {d : Document} (h : d.number?.isSome = true) : Obeys (.node d)
  | text {s : String} (h : s ≠ "") : Obeys (.node (.atom (.text s)))
  | operator {key : Atom} {f : Form} (h : Form.ofKey? key = some f) (arg : Document) :
      Obeys (.node (.mapping [(key, arg)]))
  | name {arg : Document} (h : isName arg = true) : Obeys (.arguments .var arg)
  | nameItem {a : Document} (h : isName a = true) : Obeys (.arguments .var (.list [a]))
  | literal {arg : Document} (h : arg.number?.isSome = true) : Obeys (.arguments .value arg)
  /-- The operand of a complement may stand without a list. -/
  | operand {arg : Document} (h : ∀ items, arg ≠ .list items) :
      Obeys (.arguments (.apply .complement) arg)
  | operands {o : Operator} {items : List Document} (h : items.length = o.arity) :
      Obeys (.arguments (.apply o) (.list items))
  | threshold {d : Document} (h : d.number?.isSome = true) : Obeys (.threshold d)

/-- The rule of a position is broken, for a reason that is reported. -/
inductive Spot.Breaks : Spot → Reason → Prop
  | truthValue (b : Bool) : Breaks (.node (.atom (.bool b))) .truthValue
  | emptyName {s : String} (h : s = "") : Breaks (.node (.atom (.text s))) .emptyName
  | wrongKind {d : Document} {kind : String} (h : Foreign d kind) :
      Breaks (.node d) (.wrongKind kind)
  /-- The keys of a mapping are not one, and can be listed. -/
  | operatorCount {entries : List (Atom × Document)} (h : entries.length ≠ 1) {sorted : List Atom}
      (hsort : Atom.sort (entries.map Prod.fst) = .ok sorted)
      (hkeys : sorted.all Atom.isWritable = true) :
      Breaks (.node (.mapping entries)) (.operatorCount sorted)
  | unknownOperator {key : Atom} (h : Form.ofKey? key = none) (hkey : key.isWritable = true)
      (arg : Document) : Breaks (.node (.mapping [(key, arg)])) (.unknownOperator key)
  | nameCount {items : List Document} (h : items.length ≠ 1) :
      Breaks (.arguments .var (.list items)) (.argumentCount 1)
  | name {arg : Document} (hlist : ∀ items, arg ≠ .list items) (h : isName arg = false) :
      Breaks (.arguments .var arg) .variableName
  | nameItem {a : Document} (h : isName a = false) :
      Breaks (.arguments .var (.list [a])) .variableName
  | literal {arg : Document} (h : arg.number? = none) : Breaks (.arguments .value arg) .notNumber
  | operands {o : Operator} {items : List Document} (h : items.length ≠ o.arity) :
      Breaks (.arguments (.apply o) (.list items)) (.argumentCount o.arity)
  /-- Only the operand of a complement may stand without a list. -/
  | noList {o : Operator} (ho : o ≠ .complement) {arg : Document}
      (h : ∀ items, arg ≠ .list items) : Breaks (.arguments (.apply o) arg) (.argumentCount o.arity)
  | threshold {d : Document} (h : d.number? = none) : Breaks (.threshold d) .thresholdNotNumber

/-- A number is a literal and not of a foreign kind. -/
theorem Foreign.number? {d : Document} {kind : String} (h : Foreign d kind) : d.number? = none := by
  cases h <;> rfl

/-- **A rule that is kept is not broken.** -/
theorem Spot.Obeys.not_breaks {s : Spot} (h : s.Obeys) (reason : Reason) : ¬ s.Breaks reason := by
  intro hbreaks
  cases h with
  | expr e =>
      cases hbreaks with
      | wrongKind hkind => cases hkind
  | number hnumber =>
      cases hbreaks with
      | truthValue b => cases hnumber
      | emptyName => cases hnumber
      | wrongKind hkind =>
          rw [hkind.number?] at hnumber
          cases hnumber
      | operatorCount => cases hnumber
      | unknownOperator => cases hnumber
  | text hs =>
      cases hbreaks with
      | emptyName hempty => exact hs hempty
      | wrongKind hkind => cases hkind
  | operator hform arg =>
      cases hbreaks with
      | wrongKind hkind => cases hkind
      | operatorCount hlength => exact hlength rfl
      | unknownOperator hnone =>
          rw [hform] at hnone
          cases hnone
  | name hname =>
      cases hbreaks with
      | nameCount => cases hname
      | name _ hnot =>
          rw [hname] at hnot
          cases hnot
      | nameItem => cases hname
  | nameItem hname =>
      cases hbreaks with
      | nameCount hlength => exact hlength rfl
      | name hlist => exact hlist _ rfl
      | nameItem hnot =>
          rw [hname] at hnot
          cases hnot
  | literal hnumber =>
      cases hbreaks with
      | literal hnone =>
          rw [hnone] at hnumber
          cases hnumber
  | operand hlist =>
      cases hbreaks with
      | operands => exact hlist _ rfl
      | noList ho => exact ho rfl
  | operands hlength =>
      cases hbreaks with
      | operands hother => exact hother hlength
      | noList _ hlist => exact hlist _ rfl
  | threshold hnumber =>
      cases hbreaks with
      | threshold hnone =>
          rw [hnone] at hnumber
          cases hnumber

/-- **A rule is broken in one way only.** -/
theorem Spot.Breaks.unique {s : Spot} {first second : Reason} (h : s.Breaks first)
    (h' : s.Breaks second) : first = second := by
  cases h with
  | truthValue b =>
      cases h' with
      | truthValue => rfl
      | wrongKind hkind => cases hkind
  | emptyName hs =>
      cases h' with
      | emptyName => rfl
      | wrongKind hkind => cases hkind
  | wrongKind hkind =>
      cases h' with
      | wrongKind hother => cases hkind <;> cases hother <;> rfl
      | truthValue | emptyName | operatorCount | unknownOperator => cases hkind
  | operatorCount hlength hsort =>
      cases h' with
      | wrongKind hkind => cases hkind
      | operatorCount _ hother =>
          rw [hsort] at hother
          cases hother
          rfl
      | unknownOperator => exact absurd rfl hlength
  | unknownOperator hnone hkey arg =>
      cases h' with
      | wrongKind hkind => cases hkind
      | operatorCount hlength => exact absurd rfl hlength
      | unknownOperator => rfl
  | nameCount hlength =>
      cases h' with
      | nameCount => rfl
      | name hlist => exact absurd rfl (hlist _)
      | nameItem => exact absurd rfl hlength
  | name hlist =>
      cases h' with
      | name => rfl
      | nameCount | nameItem => exact absurd rfl (hlist _)
  | nameItem hname =>
      cases h' with
      | nameItem => rfl
      | nameCount hlength => exact absurd rfl hlength
      | name hlist => exact absurd rfl (hlist _)
  | literal =>
      cases h' with
      | literal => rfl
  | operands =>
      cases h' with
      | operands | noList => rfl
  | noList =>
      cases h' with
      | operands | noList => rfl
  | threshold =>
      cases h' with
      | threshold => rfl

/-! ### The first offence -/

/-- All positions keep their rules. -/
def WellFormed (l : List Position) : Prop := ∀ q ∈ l, q.spot.Obeys

/-- The first position that breaks its rule, all before it being well formed. -/
def FirstOffence (l : List Position) (path : Path) (reason : Reason) : Prop :=
  ∃ before spot after, l = before ++ ⟨path, spot⟩ :: after ∧ WellFormed before ∧
    spot.Breaks reason

section Lists

variable {l l' : List Position} {q : Position} {path : Path} {reason : Reason}

theorem wellFormed_nil : WellFormed [] := fun _ h => nomatch h

theorem wellFormed_cons : WellFormed (q :: l) ↔ q.spot.Obeys ∧ WellFormed l :=
  List.forall_mem_cons

theorem wellFormed_append : WellFormed (l ++ l') ↔ WellFormed l ∧ WellFormed l' :=
  List.forall_mem_append

theorem FirstOffence.here (h : q.spot.Breaks reason) (l : List Position) :
    FirstOffence (q :: l) q.path reason :=
  ⟨[], q.spot, l, rfl, wellFormed_nil, h⟩

theorem FirstOffence.later (h : FirstOffence l path reason) (hq : q.spot.Obeys) :
    FirstOffence (q :: l) path reason := by
  obtain ⟨before, spot, after, rfl, hbefore, hspot⟩ := h
  exact ⟨q :: before, spot, after, rfl, wellFormed_cons.mpr ⟨hq, hbefore⟩, hspot⟩

theorem FirstOffence.append_left (h : FirstOffence l path reason) (l' : List Position) :
    FirstOffence (l ++ l') path reason := by
  obtain ⟨before, spot, after, rfl, hbefore, hspot⟩ := h
  exact ⟨before, spot, after ++ l', by simp, hbefore, hspot⟩

theorem FirstOffence.append_right (h : FirstOffence l' path reason) (hl : WellFormed l) :
    FirstOffence (l ++ l') path reason := by
  obtain ⟨before, spot, after, rfl, hbefore, hspot⟩ := h
  exact ⟨l ++ before, spot, after, by simp, wellFormed_append.mpr ⟨hl, hbefore⟩, hspot⟩

theorem FirstOffence.not_wellFormed (h : FirstOffence l path reason) : ¬ WellFormed l := by
  obtain ⟨before, spot, after, rfl, -, hspot⟩ := h
  intro hl
  exact (hl ⟨path, spot⟩ (by simp)).not_breaks reason hspot

theorem not_firstOffence_nil : ¬ FirstOffence [] path reason :=
  fun h => h.not_wellFormed wellFormed_nil

/-- The first offence is at the first position, or that one keeps its rule. -/
theorem firstOffence_cons : FirstOffence (q :: l) path reason ↔
    (q.path = path ∧ q.spot.Breaks reason) ∨ (q.spot.Obeys ∧ FirstOffence l path reason) := by
  constructor
  · rintro ⟨before, spot, after, heq, hbefore, hspot⟩
    cases before with
    | nil =>
        cases heq
        exact .inl ⟨rfl, hspot⟩
    | cons first before =>
        cases heq
        obtain ⟨hfirst, hbefore⟩ := wellFormed_cons.mp hbefore
        exact .inr ⟨hfirst, before, spot, after, rfl, hbefore, hspot⟩
  · rintro (⟨rfl, hspot⟩ | ⟨hq, h⟩)
    · exact .here hspot l
    · exact h.later hq

/-- **There is one first offence.** -/
theorem FirstOffence.unique {path' : Path} {reason' : Reason} (h : FirstOffence l path reason)
    (h' : FirstOffence l path' reason') : path = path' ∧ reason = reason' := by
  induction l with
  | nil => exact absurd h not_firstOffence_nil
  | cons q l ih =>
      rcases firstOffence_cons.mp h with ⟨rfl, hspot⟩ | ⟨hq, hrest⟩
      · rcases firstOffence_cons.mp h' with ⟨rfl, hspot'⟩ | ⟨hq, -⟩
        · exact ⟨rfl, hspot.unique hspot'⟩
        · exact absurd hspot (hq.not_breaks reason)
      · rcases firstOffence_cons.mp h' with ⟨rfl, hspot'⟩ | ⟨-, hrest'⟩
        · exact absurd hspot' (hq.not_breaks reason')
        · exact ih hrest hrest'

/-- The offences of a part are those of the part by itself, further down. -/
theorem firstOffence_map_inside (outer : Path) : FirstOffence (l.map (.inside outer)) path reason ↔
    ∃ rest, path = outer ++ rest ∧ FirstOffence l rest reason := by
  induction l with
  | nil => simp [not_firstOffence_nil]
  | cons q l ih =>
      simp only [List.map_cons, firstOffence_cons, ih, Position.inside]
      constructor
      · rintro (⟨rfl, hspot⟩ | ⟨hq, rest, rfl, hrest⟩)
        · exact ⟨q.path, rfl, .inl ⟨rfl, hspot⟩⟩
        · exact ⟨rest, rfl, .inr ⟨hq, hrest⟩⟩
      · rintro ⟨rest, rfl, ⟨rfl, hspot⟩ | ⟨hq, hrest⟩⟩
        · exact .inl ⟨rfl, hspot⟩
        · exact .inr ⟨hq, rest, rfl, hrest⟩

end Lists

/-! ### What is read is well formed -/

theorem isSome_number? (n : Number) : (Document.atom n.toAtom).number?.isSome = true := by
  rw [Document.number?_toAtom]
  rfl

theorem isName_text (n : Name) : isName (.ofText n.text) = true := decide_eq_true n.nonempty

/-- **Where a tree is denoted all rules are kept.** -/
theorem wellFormed_of_denotes {d : Document} {e : Expr} (h : Denotes d e) (path : Path) :
    WellFormed (positionsAt path d) := by
  induction h generalizing path with
  | expr e =>
      rw [positionsAt_of_ne path (by simp [Document.ofExpr])]
      exact wellFormed_cons.mpr ⟨.expr e, wellFormed_nil⟩
  | number n =>
      rw [positionsAt_of_ne path (by simp)]
      exact wellFormed_cons.mpr ⟨.number (isSome_number? n), wellFormed_nil⟩
  | text n =>
      rw [positionsAt_of_ne path (by simp [Document.ofText])]
      exact wellFormed_cons.mpr ⟨.text n.nonempty, wellFormed_nil⟩
  | var hs n =>
      have hform := Form.ofKey?_text (f := .var) hs
      unfold entry
      rw [positionsAt_var path hform]
      simp only [wellFormed_cons]
      exact ⟨.operator hform _, .name (isName_text n), wellFormed_nil⟩
  | varItem hs n =>
      have hform := Form.ofKey?_text (f := .var) hs
      unfold entry
      rw [positionsAt_var path hform]
      simp only [wellFormed_cons]
      exact ⟨.operator hform _, .nameItem (isName_text n), wellFormed_nil⟩
  | value hs n =>
      have hform := Form.ofKey?_text (f := .value) hs
      unfold entry
      rw [positionsAt_value path hform]
      simp only [wellFormed_cons]
      exact ⟨.operator hform _, .literal (isSome_number? n), wellFormed_nil⟩
  | complement hs hlist _ ih =>
      have hform := Form.ofKey?_text (f := .apply .complement) hs
      unfold entry
      rw [positionsAt_complement path hform hlist]
      simp only [wellFormed_cons]
      exact ⟨.operator hform _, .operand hlist, ih _⟩
  | complementItem hs _ ih =>
      have hform := Form.ofKey?_text (f := .apply .complement) hs
      unfold entry
      rw [positionsAt_complementItem path hform]
      simp only [wellFormed_cons]
      exact ⟨.operator hform _, .operands rfl, ih _⟩
  | alphaCut hs _ t ih =>
      have hform := Form.ofKey?_text (f := .apply .alphaCut) hs
      unfold entry
      rw [positionsAt_alphaCut path hform]
      simp only [wellFormed_cons]
      exact ⟨.operator hform _, .operands rfl, .threshold (isSome_number? t), ih _⟩
  | @join s c hs a b l r _ _ iha ihb =>
      have hform := Form.ofKey?_text (f := .apply (.join c)) hs
      unfold entry
      rw [positionsAt_join path hform]
      simp only [wellFormed_cons, wellFormed_append]
      exact ⟨.operator hform _, .operands rfl, iha _, ihb _⟩

/-! ### What is refused -/

theorem malformed_inj {path p : Path} {reason reason' : Reason}
    (h : (.error (.malformed path reason) : Except ReadError Expr) =
      .error (.malformed p reason')) : path = p ∧ reason = reason' := by
  cases h
  exact ⟨rfl, rfl⟩

/-- A name is refused where it stands, for a rule that it breaks. -/
theorem breaks_of_decodeReference {path p : Path} {d : Document} {reason : Reason}
    (h : decodeReference path d = .error (.malformed p reason)) :
    p = path ∧ (Spot.arguments .var d).Breaks reason := by
  have hname : ∀ d, decodeName path d = .error (.malformed p reason) →
      p = path ∧ isName d = false ∧ reason = .variableName := by
    intro d hd
    unfold decodeName at hd
    split at hd
    · split at hd
      · cases hd
      · next s hnone =>
          cases hd
          rw [Name.ofText?_eq_none_iff.mp hnone]
          exact ⟨rfl, rfl, rfl⟩
    · next hnot =>
        cases hd
        refine ⟨rfl, ?_, rfl⟩
        unfold isName
        split
        · next s => exact (hnot s rfl).elim
        · rfl
  unfold decodeReference at h
  split at h
  · obtain ⟨rfl, hnot, rfl⟩ := hname _ h
    exact ⟨rfl, .nameItem hnot⟩
  · next items hitems =>
      cases h
      refine ⟨rfl, .nameCount fun hone => ?_⟩
      obtain ⟨a, ha⟩ := List.length_eq_one_iff.mp hone
      exact hitems a ha
  · next hitem hlist =>
      obtain ⟨rfl, hnot, rfl⟩ := hname _ h
      exact ⟨rfl, .name hlist hnot⟩

/-- Several keys, or none, are refused where they stand, unless they cannot be listed. -/
theorem breaks_of_operatorCountError {path p : Path} {entries : List (Atom × Document)}
    {reason : Reason} (hlength : entries.length ≠ 1)
    (h : operatorCountError path (entries.map Prod.fst) = .malformed p reason) :
    path = p ∧ (Spot.node (.mapping entries)).Breaks reason := by
  unfold operatorCountError at h
  split at h
  · next sorted hsort =>
      split at h
      · next hkeys =>
          cases h
          exact ⟨rfl, .operatorCount hlength hsort hkeys⟩
      · cases h
  · cases h

/-- What is no list of two is refused by an operator that takes two operands. -/
theorem breaks_of_ne_pair {o : Operator} (ho : o.arity = 2) {arg : Document}
    (h : ∀ a b, arg ≠ .list [a, b]) :
    (Spot.arguments (.apply o) arg).Breaks (.argumentCount 2) := by
  rw [← ho]
  by_cases hlist : ∃ items, arg = .list items
  · obtain ⟨items, rfl⟩ := hlist
    refine .operands fun hlength => ?_
    rw [ho] at hlength
    match items, hlength with
    | [a, b], _ => exact h a b rfl
  · refine .noList ?_ fun items hitems => hlist ⟨items, hitems⟩
    rintro rfl
    cases ho

/-- A node that breaks its rule is the first offence, since it is visited first. -/
theorem firstOffence_node (path : Path) {d : Document} {reason : Reason}
    (hentries : ∀ key arg, d ≠ .mapping [(key, arg)]) (h : (Spot.node d).Breaks reason) :
    FirstOffence (positionsAt path d) path reason := by
  rw [positionsAt_of_ne path hentries]
  exact .here h []

/-- What stands under a key that announces a form is visited next. -/
theorem firstOffence_arguments (path : Path) {key : Atom} {f : Form} {arg : Document}
    {reason : Reason} (hkey : Form.ofKey? key = some f)
    (h : (Spot.arguments f arg).Breaks reason) :
    FirstOffence (positionsAt path (.mapping [(key, arg)])) (path ++ [.operator f.tag]) reason := by
  obtain ⟨rest, hpositions⟩ := exists_positionsAt path hkey arg
  rw [hpositions]
  exact .later (.here h rest) (.operator hkey arg)

/-- **What is refused is refused for the first offence.** -/
theorem firstOffence_of_decodeAt {path p : Path} {d : Document} {reason : Reason}
    (h : decodeAt path d = .error (.malformed p reason)) :
    FirstOffence (positionsAt path d) p reason := by
  -- along the recursion of the reader; a part that has been read is well formed, so that the first
  -- offence is further on
  fun_induction decodeAt path d with
  -- a truth value
  | case2 path b =>
      obtain ⟨rfl, rfl⟩ := malformed_inj h
      exact firstOffence_node path (by simp) (.truthValue b)
  -- a whole number, which is never refused
  | case3 path n => cases (decodeDegree_eq_error_iff.mp (bind_return_eq_error_iff.mp h)).2
  -- a text
  | case6 path s hn =>
      obtain ⟨rfl, rfl⟩ := malformed_inj h
      exact firstOffence_node path (by simp) (.emptyName (Name.ofText?_eq_none_iff.mp hn))
  -- what can be no node
  | case7 path a hexpr hbool hint hfloat htext =>
      obtain ⟨rfl, rfl⟩ := malformed_inj h
      refine firstOffence_node path (by simp) (.wrongKind ?_)
      cases a with
      | expr e => exact (hexpr e rfl).elim
      | bool b => exact (hbool b rfl).elim
      | int n => exact (hint n rfl).elim
      | float x => exact (hfloat x rfl).elim
      | text s => exact (htext s rfl).elim
      | null => exact .null
      | bytes bs => exact .bytes bs
      | date d => exact .date d
      | moment m => exact .moment m
      | gate g => exact .gate g
  | case8 path a b =>
      obtain ⟨rfl, rfl⟩ := malformed_inj h
      exact firstOffence_node path (by simp) (.wrongKind (.pair a b))
  | case9 path items =>
      obtain ⟨rfl, rfl⟩ := malformed_inj h
      exact firstOffence_node path (by simp) (.wrongKind (.list items))
  | case10 path elements =>
      obtain ⟨rfl, rfl⟩ := malformed_inj h
      exact firstOffence_node path (by simp) (.wrongKind (.set elements))
  -- a key that announces no form
  | case11 path key arg hkey =>
      cases hwritable : key.isWritable with
      | false =>
          rw [hwritable] at h
          cases h
      | true =>
          rw [hwritable] at h
          obtain ⟨rfl, rfl⟩ := malformed_inj h
          rw [positionsAt_unknown path hkey]
          exact .here (.unknownOperator hkey hwritable arg) []
  -- a variable reference
  | case12 path key arg hkey =>
      obtain ⟨rfl, hbreaks⟩ := breaks_of_decodeReference (bind_return_eq_error_iff.mp h)
      exact firstOffence_arguments path hkey hbreaks
  -- a literal
  | case13 path key arg hkey n hn =>
      cases (decodeDegree_eq_error_iff.mp (bind_return_eq_error_iff.mp h)).2
  | case14 path key arg hkey hn =>
      obtain ⟨rfl, rfl⟩ := malformed_inj h
      exact firstOffence_arguments path hkey (.literal hn)
  -- a complement, with a list and without
  | case15 path key hkey here a =>
      rename_i ih
      rw [positionsAt_complementItem path hkey]
      exact .later (.later (ih (bind_return_eq_error_iff.mp h)) (.operands rfl)) (.operator hkey _)
  | case16 path key hkey here items hitems =>
      obtain ⟨rfl, rfl⟩ := malformed_inj h
      have hlength : items.length ≠ Operator.complement.arity := by
        intro hone
        obtain ⟨a, ha⟩ := List.length_eq_one_iff.mp hone
        exact hitems a ha
      exact firstOffence_arguments path hkey (.operands hlength)
  | case17 path key hkey here a _ hlist =>
      rename_i ih
      rw [positionsAt_complement path hkey hlist]
      exact .later (.later (ih (bind_return_eq_error_iff.mp h)) (.operand hlist)) (.operator hkey _)
  -- an alpha cut: its threshold, then its operand
  | case18 path key hkey here a t ht =>
      obtain ⟨rfl, rfl⟩ := malformed_inj h
      rw [positionsAt_alphaCut path hkey]
      exact .later (.later (.here (.threshold ht) _) (.operands rfl)) (.operator hkey _)
  | case19 path key hkey here a t n hn =>
      rename_i ih
      have ha : decodeAt (here ++ [.operand 0]) a = .error (.malformed p reason) := by
        rcases bind_eq_error_iff.mp h with ha | ⟨e, -, h⟩
        · exact ha
        · cases (decodeDegree_eq_error_iff.mp (bind_return_eq_error_iff.mp h)).2
      have ht : t.number?.isSome = true := by
        rw [hn]
        rfl
      rw [positionsAt_alphaCut path hkey]
      exact .later (.later (.later (ih ha) (.threshold ht)) (.operands rfl)) (.operator hkey _)
  | case20 path key arg hkey here harg =>
      obtain ⟨rfl, rfl⟩ := malformed_inj h
      exact firstOffence_arguments path hkey (breaks_of_ne_pair rfl harg)
  -- a connective: its left operand, then its right one
  | case21 path key c hkey here a b =>
      rename_i iha ihb
      rw [positionsAt_join path hkey]
      refine .later (.later ?_ (.operands rfl)) (.operator hkey _)
      rcases bind_eq_error_iff.mp h with ha | ⟨l, hl, h⟩
      · exact (iha ha).append_left _
      · exact (ihb (bind_return_eq_error_iff.mp h)).append_right
          (wellFormed_of_denotes (denotes_of_decodeAt hl) _)
  | case22 path key arg c hkey here harg =>
      obtain ⟨rfl, rfl⟩ := malformed_inj h
      exact firstOffence_arguments path hkey (breaks_of_ne_pair rfl harg)
  -- several keys, or none
  | case23 path entries hentries =>
      obtain ⟨rfl, hbreaks⟩ :=
        breaks_of_operatorCountError (length_ne_one hentries) (Except.error.inj h)
      refine firstOffence_node path (fun key arg hmapping => ?_) hbreaks
      exact hentries key arg (Document.mapping.inj hmapping)
  -- in all other cases the document is read
  | _ => cases h

/-- **When a document is refused, and what is reported then.**  There is a first offence, and
reading does not break off before it. -/
theorem decodeAt_eq_malformed_iff {path p : Path} {d : Document} {reason : Reason} :
    decodeAt path d = .error (.malformed p reason) ↔
      (∃ rest, p = path ++ rest ∧ FirstOffence (positions d) rest reason) ∧
        ∀ f, ¬ BreaksOff d f := by
  rw [← firstOffence_map_inside]
  constructor
  · intro h
    refine ⟨firstOffence_of_decodeAt h, fun f hf => ?_⟩
    rw [decodeAt_of_breaksOff hf path] at h
    cases h
    exact hf.breaks _ _ rfl
  · rintro ⟨hfirst, hbreaks⟩
    cases hd : decodeAt path d with
    | ok e =>
        have hall := wellFormed_of_denotes (denotes_of_decodeAt hd) path
        exact absurd hall hfirst.not_wellFormed
    | error f =>
        by_cases hf : f.Breaks
        · exact absurd (breaksOff_of_decodeAt hd hf) (hbreaks f)
        · obtain ⟨p', reason', rfl⟩ : ∃ p' reason', f = .malformed p' reason' := by
            simpa [ReadError.Breaks] using hf
          obtain ⟨rfl, rfl⟩ := (firstOffence_of_decodeAt hd).unique hfirst
          rfl

/-- A report inside a document is the text of the path to the document and what is said of the
document by itself. -/
theorem exists_message_under (rest : Path) (reason : Reason) :
    ∃ tail, ∀ path text, Path.Written path text →
      (Failure.ofRead (.malformed (path ++ rest) reason)).message = text ++ tail := by
  obtain ⟨words, hwords⟩ : ∃ words, reason.Worded words := ⟨_, Reason.worded_iff.mpr rfl⟩
  refine ⟨String.join (rest.map Segment.text) ++ ": " ++ words, fun path text htext => ?_⟩
  rw [message_eq_iff]
  refine ⟨_, words, Path.written_iff.mpr rfl, hwords, ?_⟩
  rw [Path.text_append, Path.written_iff.mp htext]
  simp only [String.append_assoc]

/-- **The report on a document.**  A document is refused exactly if it has a first offence and
reading does not break off, all positions visited before being well formed.  The report is the path
to the offence and the words for the rule that is broken there; on the path operators have their
canonical names, however they are spelled in the document.  Wherever the document stands, the same
tree is read, or the same offence is reported below the path to the document and in the same words,
or reading breaks off in the same way. -/
theorem reading_reports_first_offence (d : Document) :
    (∀ path reason, decode d = .error (.malformed path reason) ↔
      FirstOffence (positions d) path reason ∧ ∀ f, ¬ BreaksOff d f) ∧
    (∀ path reason message, (Failure.ofRead (.malformed path reason)).message = message ↔
      ∃ text words, Path.Written path text ∧ Reason.Worded reason words ∧
        message = text ++ ": " ++ words) ∧
    (∀ f : Form, f.Named f.tag ∧
      ∀ key, Form.ofKey? key = some f ↔ ∃ s, key = .text s ∧ f.Spelled s) ∧
    ((∃ e, ∀ path, decodeAt path d = .ok e) ∨
      (∃ rest reason tail, ∀ path, decodeAt path d = .error (.malformed (path ++ rest) reason) ∧
        ∀ text, Path.Written path text →
          (Failure.ofRead (.malformed (path ++ rest) reason)).message = text ++ tail) ∨
      ∃ f : ReadError, f.Breaks ∧ ∀ path, decodeAt path d = .error f) := by
  have hreport : ∀ path reason, decode d = .error (.malformed path reason) ↔
      FirstOffence (positions d) path reason ∧ ∀ f, ¬ BreaksOff d f := by
    intro path reason
    unfold decode
    rw [decodeAt_eq_malformed_iff]
    simp
  have hforms (f : Form) : f.Named f.tag ∧
      ∀ key, Form.ofKey? key = some f ↔ ∃ s, key = .text s ∧ f.Spelled s :=
    ⟨f.named_tag, fun key => Form.ofKey?_eq_some_iff_spelled⟩
  refine ⟨hreport, message_eq_iff, hforms, ?_⟩
  cases hd : decode d with
  | ok e =>
      obtain ⟨hdenotes, hrange⟩ := decodeAt_eq_ok_iff.mp hd
      exact .inl ⟨e, decodeAt_of_denotes hdenotes hrange⟩
  | error f =>
      by_cases hf : f.Breaks
      · exact .inr (.inr ⟨f, hf, decodeAt_of_breaksOff (breaksOff_of_decodeAt hd hf)⟩)
      · obtain ⟨rest, reason, rfl⟩ : ∃ rest reason, f = .malformed rest reason := by
          simpa [ReadError.Breaks] using hf
        obtain ⟨hfirst, hbreaks⟩ := (hreport rest reason).mp hd
        obtain ⟨tail, htail⟩ := exists_message_under rest reason
        refine .inr (.inl ⟨rest, reason, tail, fun path => ⟨?_, htail path⟩⟩)
        exact decodeAt_eq_malformed_iff.mpr ⟨⟨rest, rfl, hfirst⟩, hbreaks⟩

/-- The threshold is looked at before the operand, whose name is empty. -/
example :
    decode (entry "!" (.list [entry "alphaCut" (.list [.ofText "", .ofText "x"])])) =
      .error (.malformed [.operator "complement", .operand 0, .operator "alpha_cut", .operand 1]
        .thresholdNotNumber) := rfl

end Logic

end FuzzyGates
