import FuzzyGates.Logic.Decode
import FuzzyGates.Logic.Encode
import FuzzyGates.Proofs.Document.Range
import FuzzyGates.Proofs.Failure

/-!
# The grammar of serialized logic

`Denotes` says without recourse to the reader which documents stand for which trees.  Reading
and denoting agree, wherever in a larger document the reading takes place.

* `Form.ofKey?_eq_some_iff` — the keys that announce a form are its spellings.
* `Denotes` — the grammar.
* `denotes_of_decodeAt` — what was read is denoted.
* `decodeAt_of_denotes` — what is denoted is read, if no number is out of range.
* **`reading_accepts_grammar`** — reading yields exactly the tree that is denoted and refuses
  documents that denote none.
-/

namespace FuzzyGates

namespace Logic

open Document (InRange inRange_float inRange_list inRange_mapping inRange_of_number?_eq_none
  inRange_text inRange_toAtom number?_eq_some_iff)

/-! ### Keys -/

theorem Form.mem_all (f : Form) : f ∈ all := by
  rcases f with _ | _ | (c | _ | _)
  · decide
  · decide
  · cases c <;> decide
  · decide
  · decide

theorem Form.tag_inj {f g : Form} (h : f.tag = g.tag) : f = g := by
  have hall : ∀ f ∈ all, ∀ g ∈ all, f.tag = g.tag → f = g := by decide
  exact hall f f.mem_all g g.mem_all h

/-- **The keys that announce a form are its spellings.** -/
theorem Form.ofKey?_eq_some_iff {key : Atom} {f : Form} :
    Form.ofKey? key = some f ↔ ∃ s, key = .text s ∧ canonical s = f.tag := by
  constructor
  · intro h
    cases key with
    | text s =>
        have htag := List.find?_some h
        exact ⟨s, rfl, (of_decide_eq_true htag).symm⟩
    | null | bool _ | int _ | float _ | bytes _ | date _ | moment _ | expr _ | gate _ => cases h
  · rintro ⟨s, rfl, hs⟩
    show all.find? (fun g => g.tag = canonical s) = some f
    cases hfind : all.find? fun g => g.tag = canonical s with
    | none =>
        have hnone := List.find?_eq_none.mp hfind f f.mem_all
        simp [hs] at hnone
    | some g =>
        have htag := List.find?_some hfind
        exact congrArg some (tag_inj ((of_decide_eq_true htag).trans hs))

theorem Form.ofKey?_text {s : String} {f : Form} (hs : canonical s = f.tag) :
    Form.ofKey? (.text s) = some f :=
  Form.ofKey?_eq_some_iff.mpr ⟨s, rfl, hs⟩

/-! ### The grammar -/

/-- The documents that stand for a tree.  A node is a mapping with one entry, whose key is a
spelling of the operator. -/
inductive Denotes : Document → Expr → Prop
  | expr (e : Expr) : Denotes (.ofExpr e) e
  | number (n : Number) : Denotes (.atom n.toAtom) (.value n.nearest)
  | text (n : Name) : Denotes (.ofText n.text) (.var n)
  | var {s : String} (hs : canonical s = "var") (n : Name) :
      Denotes (entry s (.ofText n.text)) (.var n)
  | varItem {s : String} (hs : canonical s = "var") (n : Name) :
      Denotes (entry s (.list [.ofText n.text])) (.var n)
  | value {s : String} (hs : canonical s = "value") (n : Number) :
      Denotes (entry s (.atom n.toAtom)) (.value n.nearest)
  | complement {s : String} (hs : canonical s = "complement") {a : Document} {e : Expr}
      (hlist : ∀ items, a ≠ .list items) (ha : Denotes a e) :
      Denotes (entry s a) (.complement e)
  | complementItem {s : String} (hs : canonical s = "complement") {a : Document} {e : Expr}
      (ha : Denotes a e) : Denotes (entry s (.list [a])) (.complement e)
  | alphaCut {s : String} (hs : canonical s = "alpha_cut") {a : Document} {e : Expr}
      (ha : Denotes a e) (t : Number) :
      Denotes (entry s (.list [a, .atom t.toAtom])) (.alphaCut e t.nearest)
  | join {s : String} {c : Connective} (hs : canonical s = c.tag) {a b : Document} {l r : Expr}
      (ha : Denotes a l) (hb : Denotes b r) :
      Denotes (entry s (.list [a, b])) (.join c l r)

/-! ### What is read is denoted -/

theorem decodeDegree_eq_ok_iff {n : Number} {x : Degree} :
    decodeDegree n = .ok x ↔ n.InRange ∧ x = n.nearest := by
  rw [← Number.degree?_eq_some_iff]
  unfold decodeDegree
  cases n.degree? <;> simp

theorem decodeName_eq_ok_iff {path : Path} {d : Document} {n : Name} :
    decodeName path d = .ok n ↔ d = .ofText n.text := by
  constructor
  · intro h
    unfold decodeName at h
    split at h
    · next s =>
        split at h
        · next m hm =>
            cases h
            rw [Name.ofText?_eq_some_iff.mp hm]
            rfl
        · cases h
    · cases h
  · rintro rfl
    unfold decodeName Document.ofText
    simp only [Name.ofText?_text]

theorem decodeReference_eq_ok_iff {path : Path} {d : Document} {n : Name} :
    decodeReference path d = .ok n ↔ d = .ofText n.text ∨ d = .list [.ofText n.text] := by
  unfold decodeReference
  split
  · next a => simp [decodeName_eq_ok_iff, Document.ofText]
  · next items hitems =>
      have hne : items ≠ [.ofText n.text] := fun h => hitems _ h
      simpa [Document.ofText] using hne
  · next hlist _ =>
      have hne : d ≠ .list [.ofText n.text] := fun h => hlist _ h
      simp [decodeName_eq_ok_iff, hne]

/-- **What was read is denoted.** -/
theorem denotes_of_decodeAt {path : Path} {d : Document} {e : Expr}
    (h : decodeAt path d = .ok e) : Denotes d e := by
  -- along the recursion of the reader, one case for each way to read or refuse a document
  fun_induction decodeAt path d generalizing e with
  -- an expression
  | case1 path e' =>
      cases h
      exact .expr e'
  -- a whole number
  | case3 path n =>
      obtain ⟨x, hx, h⟩ := bind_eq_ok_iff.mp h
      cases h
      rw [(decodeDegree_eq_ok_iff.mp hx).2]
      exact .number (.int n)
  -- a number with a fraction
  | case4 path x =>
      cases h
      exact .number (.float x)
  -- a text
  | case5 path s n hn =>
      cases h
      rw [← Name.ofText?_eq_some_iff.mp hn]
      exact .text n
  -- a variable reference, bare or in a list
  | case12 path key arg hkey =>
      obtain ⟨s, rfl, hs⟩ := Form.ofKey?_eq_some_iff.mp hkey
      obtain ⟨n, hn, h⟩ := bind_eq_ok_iff.mp h
      cases h
      rcases decodeReference_eq_ok_iff.mp hn with rfl | rfl
      · exact .var hs n
      · exact .varItem hs n
  -- a literal
  | case13 path key arg hkey n hn =>
      obtain ⟨s, rfl, hs⟩ := Form.ofKey?_eq_some_iff.mp hkey
      obtain ⟨x, hx, h⟩ := bind_eq_ok_iff.mp h
      cases h
      rw [(decodeDegree_eq_ok_iff.mp hx).2, number?_eq_some_iff.mp hn]
      exact .value hs n
  -- a complement in a list
  | case15 path key hkey here a =>
      rename_i ih
      obtain ⟨s, rfl, hs⟩ := Form.ofKey?_eq_some_iff.mp hkey
      obtain ⟨e', he', h⟩ := bind_eq_ok_iff.mp h
      cases h
      exact .complementItem hs (ih he')
  -- a complement without a list
  | case17 path key hkey here a _ hlist =>
      rename_i ih
      obtain ⟨s, rfl, hs⟩ := Form.ofKey?_eq_some_iff.mp hkey
      obtain ⟨e', he', h⟩ := bind_eq_ok_iff.mp h
      cases h
      exact .complement hs hlist (ih he')
  -- an alpha cut, whose threshold was looked at before its operand
  | case19 path key hkey here a t n hn =>
      rename_i ih
      obtain ⟨s, rfl, hs⟩ := Form.ofKey?_eq_some_iff.mp hkey
      obtain ⟨e', he', h⟩ := bind_eq_ok_iff.mp h
      obtain ⟨x, hx, h⟩ := bind_eq_ok_iff.mp h
      cases h
      rw [(decodeDegree_eq_ok_iff.mp hx).2, number?_eq_some_iff.mp hn]
      exact .alphaCut hs (ih he') n
  -- a connective
  | case21 path key c hkey here a b =>
      rename_i iha ihb
      obtain ⟨s, rfl, hs⟩ := Form.ofKey?_eq_some_iff.mp hkey
      obtain ⟨l, hl, h⟩ := bind_eq_ok_iff.mp h
      obtain ⟨r, hr, h⟩ := bind_eq_ok_iff.mp h
      cases h
      exact .join hs (iha hl) (ihb hr)
  -- in all other cases the document is refused
  | _ => cases h

/-! ### What is denoted is read -/

section Reading

variable (path : Path) {s : String}

theorem decodeAt_var (hs : canonical s = "var") (arg : Document) :
    decodeAt path (entry s arg) = (do
      return .var (← decodeReference (path ++ [.operator "var"]) arg)) := by
  have hform := Form.ofKey?_text (f := .var) hs
  unfold entry
  conv => lhs; unfold decodeAt
  rw [hform]

theorem decodeAt_value (hs : canonical s = "value") (n : Number) :
    decodeAt path (entry s (.atom n.toAtom)) = (do return .value (← decodeDegree n)) := by
  have hform := Form.ofKey?_text (f := .value) hs
  unfold entry
  conv => lhs; unfold decodeAt
  rw [hform]
  dsimp only
  rw [Document.number?_toAtom]

theorem decodeAt_complement (hs : canonical s = "complement") {a : Document}
    (h : ∀ items, a ≠ .list items) :
    decodeAt path (entry s a) = (do
      return .complement (← decodeAt (path ++ [.operator "complement"] ++ [.operand 0]) a)) := by
  have hform := Form.ofKey?_text (f := .apply .complement) hs
  unfold entry
  conv => lhs; unfold decodeAt
  rw [hform]
  dsimp only
  split
  · next a => exact absurd rfl (h [a])
  · next items _ => exact absurd rfl (h items)
  · rfl

theorem decodeAt_complementItem (hs : canonical s = "complement") (a : Document) :
    decodeAt path (entry s (.list [a])) = (do
      return .complement (← decodeAt (path ++ [.operator "complement"] ++ [.operand 0]) a)) := by
  have hform := Form.ofKey?_text (f := .apply .complement) hs
  unfold entry
  conv => lhs; unfold decodeAt
  rw [hform]

theorem decodeAt_alphaCut (hs : canonical s = "alpha_cut") (a : Document) (t : Number) :
    decodeAt path (entry s (.list [a, .atom t.toAtom])) = (do
      let e ← decodeAt (path ++ [.operator "alpha_cut"] ++ [.operand 0]) a
      return .alphaCut e (← decodeDegree t)) := by
  have hform := Form.ofKey?_text (f := .apply .alphaCut) hs
  unfold entry
  conv => lhs; unfold decodeAt
  rw [hform]
  dsimp only
  rw [Document.number?_toAtom]

theorem decodeAt_join {c : Connective} (hs : canonical s = c.tag) (a b : Document) :
    decodeAt path (entry s (.list [a, b])) = (do
      let l ← decodeAt (path ++ [.operator c.tag] ++ [.operand 0]) a
      let r ← decodeAt (path ++ [.operator c.tag] ++ [.operand 1]) b
      return .join c l r) := by
  have hform := Form.ofKey?_text (f := .apply (.join c)) hs
  unfold entry
  conv => lhs; unfold decodeAt
  rw [hform]

end Reading

theorem decodeDegree_of_inRange {n : Number} (h : n.InRange) :
    decodeDegree n = .ok n.nearest :=
  decodeDegree_eq_ok_iff.mpr ⟨h, rfl⟩

theorem inRange_entry {s : String} {d : Document} : (entry s d).InRange ↔ d.InRange := by
  unfold entry
  rw [inRange_mapping]
  simp

/-- **What is denoted is read anywhere**, unless a number has no degree. -/
theorem decodeAt_of_denotes {d : Document} {e : Expr} (h : Denotes d e) (hd : d.InRange)
    (path : Path) : decodeAt path d = .ok e := by
  induction h generalizing path with
  | expr e => rfl
  | number n =>
      have hdegree := decodeDegree_of_inRange (inRange_toAtom.mp hd)
      cases n with
      | int n =>
          show (do return .value (← decodeDegree (.int n)) : Except ReadError Expr) = _
          rw [hdegree]
          rfl
      | float x => rfl
  | text n =>
      unfold decodeAt Document.ofText
      simp only [Name.ofText?_text]
  | var hs n =>
      rw [decodeAt_var path hs, decodeReference_eq_ok_iff.mpr (.inl rfl)]
      rfl
  | varItem hs n =>
      rw [decodeAt_var path hs, decodeReference_eq_ok_iff.mpr (.inr rfl)]
      rfl
  | value hs n =>
      rw [decodeAt_value path hs, decodeDegree_of_inRange (inRange_toAtom.mp (inRange_entry.mp hd))]
      rfl
  | complement hs hlist _ ih =>
      rw [decodeAt_complement path hs hlist, ih (inRange_entry.mp hd)]
      rfl
  | complementItem hs _ ih =>
      have ha := inRange_list.mp (inRange_entry.mp hd) _ List.mem_cons_self
      rw [decodeAt_complementItem path hs, ih ha]
      rfl
  | alphaCut hs _ t ih =>
      obtain ⟨ha, ht⟩ : InRange _ ∧ t.InRange := by
        simpa [inRange_list, inRange_toAtom] using inRange_entry.mp hd
      rw [decodeAt_alphaCut path hs, ih ha, decodeDegree_of_inRange ht]
      rfl
  | join hs _ _ iha ihb =>
      obtain ⟨ha, hb⟩ : InRange _ ∧ InRange _ := by
        simpa [inRange_list] using inRange_entry.mp hd
      rw [decodeAt_join path hs, iha ha, ihb hb]
      rfl

/-- **Reading accepts exactly the grammar.**  Of a document whose numbers are in range the tree
that it denotes is read, and if it denotes none it is refused. -/
theorem reading_accepts_grammar (d : Document) (h : d.InRange) :
    (∀ e, decode d = .ok e ↔ Denotes d e) ∧
      ((¬ ∃ e, Denotes d e) ↔ ∃ err, decode d = .error err) := by
  have hread : ∀ e, decode d = .ok e ↔ Denotes d e := by
    intro e
    constructor
    · exact denotes_of_decodeAt
    · exact fun he => decodeAt_of_denotes he h []
  refine ⟨hread, ?_⟩
  simp only [← hread]
  cases decode d <;> simp

/-- Aliases, a list of one operand, a variable in a list and a whole number; and a truth value
two levels down. -/
theorem reading_accepts_grammar_nested :
    let cut := entry "alphaCut" (.list [entry "var" (.list [.ofText "y"]), .atom (.float 0.5)])
    let d := entry "not" (.list [entry "+" (.list [entry "max" (.list [.ofText "x",
      .atom (.int 3)]), cut])])
    let refused := entry "!" (.list [entry "add" (.list [.atom (.bool true), .ofText "x"])])
    let e : Expr := .complement (.join .add (.join .or (.var ⟨"x", by decide⟩) (.value 3.0))
      (.alphaCut (.var ⟨"y", by decide⟩) 0.5))
    d.InRange ∧ decode d = .ok e ∧ refused.InRange ∧ ¬ ∃ e, Denotes refused e := by
  intro cut d refused e
  have hthree : (Document.atom (.int 3)).InRange :=
    (inRange_toAtom (n := .int 3)).mpr (by decide +kernel)
  have hnearest : (Number.int 3).nearest = 3.0 := by decide +kernel
  have hd : d.InRange := by
    simpa [d, cut, inRange_entry, inRange_list, inRange_text, inRange_float] using hthree
  have hrefused : refused.InRange := by
    simpa [refused, inRange_entry, inRange_list, inRange_text] using
      inRange_of_number?_eq_none rfl
  have hor : Denotes (entry "max" (.list [.ofText "x", .atom (.int 3)]))
      (.join .or (.var ⟨"x", by decide⟩) (.value 3.0)) :=
    .join (by decide) (.text ⟨"x", by decide⟩) (hnearest ▸ .number (.int 3))
  have hcut : Denotes cut (.alphaCut (.var ⟨"y", by decide⟩) 0.5) :=
    .alphaCut (by decide) (.varItem (by decide) ⟨"y", by decide⟩) (.float 0.5)
  have hdenotes : Denotes d e := .complementItem (by decide) (.join (by decide) hor hcut)
  exact ⟨hd, ((reading_accepts_grammar d hd).1 e).mpr hdenotes, hrefused,
    (reading_accepts_grammar refused hrefused).2.mpr ⟨_, rfl⟩⟩

end Logic

end FuzzyGates
