import FuzzyGates.Proofs.Logic.Grammar

/-!
# Where reading breaks off

A document that denotes no expression is refused with the position and the rule that is broken
there.  Reading can also end in another way: on a whole number that is no degree, and over the
message itself, when the keys that it would list have no order or no text.

* `inRange_of_decodeAt`, `decodeAt_eq_ok_iff` — a tree is read exactly if it is denoted and all
  numbers are in range.
* `BreaksOff` — where reading ends otherwise, operand by operand in the order of the visit.
* `breaksOff_of_decodeAt`, `decodeAt_of_breaksOff` — reading ends so exactly there.
* **`reading_breaks_off_iff`** — the three ways in which reading can end.
-/

namespace FuzzyGates

namespace Logic

open Document (InRange inRange_float inRange_list inRange_of_number?_eq_none inRange_text
  inRange_toAtom number?_eq_some_iff)

/-! ### What is read is in range -/

/-- All numbers of a document that has been read are in range. -/
theorem inRange_of_decodeAt {path : Path} {d : Document} {e : Expr}
    (h : decodeAt path d = .ok e) : d.InRange := by
  fun_induction decodeAt path d generalizing e with
  | case1 path e' => exact inRange_of_number?_eq_none rfl
  | case3 path n =>
      obtain ⟨x, hx, -⟩ := bind_eq_ok_iff.mp h
      exact (inRange_toAtom (n := .int n)).mpr (decodeDegree_eq_ok_iff.mp hx).1
  | case4 path x => exact inRange_float x
  | case5 path s n hn => exact inRange_text s
  | case12 path key arg hkey =>
      obtain ⟨s, rfl, hs⟩ := Form.ofKey?_eq_some_iff.mp hkey
      obtain ⟨n, hn, -⟩ := bind_eq_ok_iff.mp h
      refine inRange_entry.mpr ?_
      rcases decodeReference_eq_ok_iff.mp hn with rfl | rfl
      · exact inRange_text n.text
      · simpa [inRange_list] using inRange_text n.text
  | case13 path key arg hkey n hn =>
      obtain ⟨s, rfl, hs⟩ := Form.ofKey?_eq_some_iff.mp hkey
      obtain ⟨x, hx, -⟩ := bind_eq_ok_iff.mp h
      rw [number?_eq_some_iff.mp hn]
      exact inRange_entry.mpr (inRange_toAtom.mpr (decodeDegree_eq_ok_iff.mp hx).1)
  | case15 path key hkey here a =>
      rename_i ih
      obtain ⟨s, rfl, hs⟩ := Form.ofKey?_eq_some_iff.mp hkey
      obtain ⟨e', he', -⟩ := bind_eq_ok_iff.mp h
      exact inRange_entry.mpr (by simpa [inRange_list] using ih he')
  | case17 path key hkey here a =>
      rename_i ih
      obtain ⟨s, rfl, hs⟩ := Form.ofKey?_eq_some_iff.mp hkey
      obtain ⟨e', he', -⟩ := bind_eq_ok_iff.mp h
      exact inRange_entry.mpr (ih he')
  | case19 path key hkey here a t n hn =>
      rename_i ih
      obtain ⟨s, rfl, hs⟩ := Form.ofKey?_eq_some_iff.mp hkey
      obtain ⟨e', he', h⟩ := bind_eq_ok_iff.mp h
      obtain ⟨x, hx, -⟩ := bind_eq_ok_iff.mp h
      have ht : t.InRange := by
        rw [number?_eq_some_iff.mp hn]
        exact inRange_toAtom.mpr (decodeDegree_eq_ok_iff.mp hx).1
      exact inRange_entry.mpr (by simpa [inRange_list] using ⟨ih he', ht⟩)
  | case21 path key c hkey here a b =>
      rename_i iha ihb
      obtain ⟨s, rfl, hs⟩ := Form.ofKey?_eq_some_iff.mp hkey
      obtain ⟨l, hl, h⟩ := bind_eq_ok_iff.mp h
      obtain ⟨r, hr, -⟩ := bind_eq_ok_iff.mp h
      exact inRange_entry.mpr (by simpa [inRange_list] using ⟨iha hl, ihb hr⟩)
  | _ => cases h

/-- A tree is read exactly if it is denoted and all numbers are in range. -/
theorem decodeAt_eq_ok_iff {path : Path} {d : Document} {e : Expr} :
    decodeAt path d = .ok e ↔ Denotes d e ∧ d.InRange :=
  ⟨fun h => ⟨denotes_of_decodeAt h, inRange_of_decodeAt h⟩,
    fun h => decodeAt_of_denotes h.1 h.2 path⟩

/-! ### Where reading breaks off -/

/-- The end of a reading that is no refusal: none of the rules at a position is broken. -/
def ReadError.Breaks (f : ReadError) : Prop := ∀ path reason, f ≠ .malformed path reason

/-- The documents over which reading breaks off, and how.  Operands are read from left to right,
so what stands before has been read; a threshold is made a degree after the operand. -/
inductive BreaksOff : Document → ReadError → Prop
  | number {n : Number} (h : ¬ n.InRange) : BreaksOff (.atom n.toAtom) .tooLarge
  /-- Two of several keys have no order, so that the message cannot list them. -/
  | unordered {entries : List (Atom × Document)} (h : entries.length ≠ 1) {later earlier : Atom}
      (hsort : Atom.sort (entries.map Prod.fst) = .error (later, earlier)) :
      BreaksOff (.mapping entries) (.unordered later earlier)
  /-- One of several keys cannot be written, so that the message cannot list them. -/
  | unwritable {entries : List (Atom × Document)} (h : entries.length ≠ 1) {sorted : List Atom}
      (hsort : Atom.sort (entries.map Prod.fst) = .ok sorted)
      (hkey : ∃ key ∈ sorted, key.isWritable = false) :
      BreaksOff (.mapping entries) .unwritable
  /-- A key announces no form and cannot be written, so that the message cannot name it. -/
  | unnamed {key : Atom} (arg : Document) (hform : Form.ofKey? key = none)
      (hkey : key.isWritable = false) : BreaksOff (.mapping [(key, arg)]) .unwritable
  | value {s : String} (hs : canonical s = "value") {n : Number} (h : ¬ n.InRange) :
      BreaksOff (entry s (.atom n.toAtom)) .tooLarge
  | complement {s : String} (hs : canonical s = "complement") {a : Document} {f : ReadError}
      (hlist : ∀ items, a ≠ .list items) (ha : BreaksOff a f) : BreaksOff (entry s a) f
  | complementItem {s : String} (hs : canonical s = "complement") {a : Document} {f : ReadError}
      (ha : BreaksOff a f) : BreaksOff (entry s (.list [a])) f
  | alphaCut {s : String} (hs : canonical s = "alpha_cut") {a : Document} {f : ReadError}
      (ha : BreaksOff a f) (t : Number) : BreaksOff (entry s (.list [a, .atom t.toAtom])) f
  | threshold {s : String} (hs : canonical s = "alpha_cut") {a : Document} {e : Expr}
      (ha : Denotes a e) (hrange : a.InRange) {t : Number} (h : ¬ t.InRange) :
      BreaksOff (entry s (.list [a, .atom t.toAtom])) .tooLarge
  | left {s : String} {c : Connective} (hs : canonical s = c.tag) {a : Document} {f : ReadError}
      (ha : BreaksOff a f) (b : Document) : BreaksOff (entry s (.list [a, b])) f
  | right {s : String} {c : Connective} (hs : canonical s = c.tag) {a b : Document} {l : Expr}
      {f : ReadError} (ha : Denotes a l) (hrange : a.InRange) (hb : BreaksOff b f) :
      BreaksOff (entry s (.list [a, b])) f

/-- What reading breaks off with is no refusal. -/
theorem BreaksOff.breaks {d : Document} {f : ReadError} (h : BreaksOff d f) : f.Breaks := by
  intro path reason hf
  induction h with
  | number | unordered | unwritable | unnamed | value | threshold => cases hf
  | complement _ _ _ ih | complementItem _ _ ih | alphaCut _ _ _ ih | left _ _ _ ih => exact ih hf
  | right _ _ _ _ ih => exact ih hf

theorem decodeDegree_eq_error_iff {n : Number} {f : ReadError} :
    decodeDegree n = .error f ↔ ¬ n.InRange ∧ f = .tooLarge := by
  rw [← Number.degree?_eq_none_iff]
  unfold decodeDegree
  cases n.degree? <;> simp [eq_comm]

/-- A variable reference is read or refused. -/
theorem not_breaks_of_decodeReference {path : Path} {d : Document} {f : ReadError}
    (h : decodeReference path d = .error f) : ¬ f.Breaks := by
  have hname : ∀ d, decodeName path d = .error f → ¬ f.Breaks := by
    intro d hd hf
    unfold decodeName at hd
    split at hd
    · split at hd
      · cases hd
      · cases hd
        exact hf _ _ rfl
    · cases hd
      exact hf _ _ rfl
  unfold decodeReference at h
  split at h
  · exact hname _ h
  · cases h
    exact fun hf => hf _ _ rfl
  · exact hname _ h

theorem length_ne_one {entries : List (Atom × Document)}
    (h : ∀ key arg, entries ≠ [(key, arg)]) : entries.length ≠ 1 := by
  intro hone
  obtain ⟨p, hp⟩ := List.length_eq_one_iff.mp hone
  exact h p.1 p.2 hp

/-- What is said of several keys, or of none, breaks off only over the list of the keys. -/
theorem breaksOff_of_operatorCountError {path : Path} {entries : List (Atom × Document)}
    {f : ReadError} (hlength : entries.length ≠ 1)
    (h : operatorCountError path (entries.map Prod.fst) = f) (hf : f.Breaks) :
    BreaksOff (.mapping entries) f := by
  unfold operatorCountError at h
  split at h
  · next sorted hsort =>
      split at h
      · exact absurd h.symm (hf _ _)
      · next hwritable =>
          subst h
          exact .unwritable hlength hsort (by simpa using hwritable)
  · next later earlier hsort =>
      subst h
      exact .unordered hlength hsort

/-- **Reading breaks off only where it is said to.** -/
theorem breaksOff_of_decodeAt {path : Path} {d : Document} {f : ReadError}
    (h : decodeAt path d = .error f) (hf : f.Breaks) : BreaksOff d f := by
  -- along the recursion of the reader, as for what is read
  fun_induction decodeAt path d with
  -- a whole number
  | case3 path n =>
      obtain ⟨hrange, rfl⟩ := decodeDegree_eq_error_iff.mp (bind_return_eq_error_iff.mp h)
      exact .number (n := .int n) hrange
  -- a key that announces no form
  | case11 path key arg hkey =>
      cases hwritable : key.isWritable with
      | false =>
          rw [hwritable] at h
          cases h
          exact .unnamed arg hkey hwritable
      | true =>
          rw [hwritable] at h
          cases h
          exact absurd rfl (hf _ _)
  -- a variable reference
  | case12 path key arg hkey =>
      exact absurd hf (not_breaks_of_decodeReference (bind_return_eq_error_iff.mp h))
  -- a literal
  | case13 path key arg hkey n hn =>
      obtain ⟨s, rfl, hs⟩ := Form.ofKey?_eq_some_iff.mp hkey
      obtain ⟨hrange, rfl⟩ := decodeDegree_eq_error_iff.mp (bind_return_eq_error_iff.mp h)
      rw [number?_eq_some_iff.mp hn]
      exact .value hs hrange
  -- a complement in a list
  | case15 path key hkey here a =>
      rename_i ih
      obtain ⟨s, rfl, hs⟩ := Form.ofKey?_eq_some_iff.mp hkey
      exact .complementItem hs (ih (bind_return_eq_error_iff.mp h))
  -- a complement without a list
  | case17 path key hkey here a _ hlist =>
      rename_i ih
      obtain ⟨s, rfl, hs⟩ := Form.ofKey?_eq_some_iff.mp hkey
      exact .complement hs hlist (ih (bind_return_eq_error_iff.mp h))
  -- an alpha cut: its operand, then its threshold
  | case19 path key hkey here a t n hn =>
      rename_i ih
      obtain ⟨s, rfl, hs⟩ := Form.ofKey?_eq_some_iff.mp hkey
      rw [number?_eq_some_iff.mp hn]
      rcases bind_eq_error_iff.mp h with ha | ⟨e, he, h⟩
      · exact .alphaCut hs (ih ha) n
      · obtain ⟨hrange, rfl⟩ := decodeDegree_eq_error_iff.mp (bind_return_eq_error_iff.mp h)
        exact .threshold hs (denotes_of_decodeAt he) (inRange_of_decodeAt he) hrange
  -- a connective: its left operand, then its right one
  | case21 path key c hkey here a b =>
      rename_i iha ihb
      obtain ⟨s, rfl, hs⟩ := Form.ofKey?_eq_some_iff.mp hkey
      rcases bind_eq_error_iff.mp h with ha | ⟨l, hl, h⟩
      · exact .left hs (iha ha) b
      · have hb := ihb (bind_return_eq_error_iff.mp h)
        exact .right hs (denotes_of_decodeAt hl) (inRange_of_decodeAt hl) hb
  -- several keys, or none
  | case23 path entries hentries =>
      exact breaksOff_of_operatorCountError (length_ne_one hentries) (Except.error.inj h) hf
  -- in all other cases the document is read or refused
  | _ => cases h <;> exact absurd rfl (hf _ _)

theorem decodeDegree_of_not_inRange {n : Number} (h : ¬ n.InRange) :
    decodeDegree n = .error .tooLarge :=
  decodeDegree_eq_error_iff.mpr ⟨h, rfl⟩

/-- A mapping that does not have exactly one entry is reported as such. -/
theorem decodeAt_mapping (path : Path) {entries : List (Atom × Document)}
    (h : entries.length ≠ 1) :
    decodeAt path (.mapping entries) =
      .error (operatorCountError path (entries.map Prod.fst)) := by
  match entries, h with
  | [], _ => rfl
  | [_], h => exact absurd rfl h
  | _ :: _ :: _, _ => rfl

/-- **Reading breaks off wherever it is said to.** -/
theorem decodeAt_of_breaksOff {d : Document} {f : ReadError} (h : BreaksOff d f) (path : Path) :
    decodeAt path d = .error f := by
  induction h generalizing path with
  | @number n h =>
      have hdegree := decodeDegree_of_not_inRange h
      cases n with
      | int n =>
          show (do return .value (← decodeDegree (.int n)) : Except ReadError Expr) = _
          rw [hdegree]
          rfl
      | float x => exact absurd trivial h
  | unordered h hsort =>
      rw [decodeAt_mapping path h]
      unfold operatorCountError
      rw [hsort]
  | @unwritable entries h sorted hsort hkey =>
      have hall : ¬ sorted.all Atom.isWritable = true := by simpa using hkey
      rw [decodeAt_mapping path h]
      unfold operatorCountError
      rw [hsort]
      exact congrArg Except.error (if_neg hall)
  | unnamed arg hform hkey =>
      conv => lhs; unfold decodeAt
      simp [hform, hkey]
  | value hs h =>
      rw [decodeAt_value path hs, decodeDegree_of_not_inRange h]
      rfl
  | complement hs hlist _ ih =>
      rw [decodeAt_complement path hs hlist, ih]
      rfl
  | complementItem hs _ ih =>
      rw [decodeAt_complementItem path hs, ih]
      rfl
  | alphaCut hs _ t ih =>
      rw [decodeAt_alphaCut path hs, ih]
      rfl
  | threshold hs ha hrange h =>
      rw [decodeAt_alphaCut path hs, decodeAt_of_denotes ha hrange,
        decodeDegree_of_not_inRange h]
      rfl
  | left hs _ b ih =>
      rw [decodeAt_join path hs, ih]
      rfl
  | right hs ha hrange _ ih =>
      rw [decodeAt_join path hs, decodeAt_of_denotes ha hrange, ih]
      rfl

/-! ### How reading ends -/

/-- **The three ways in which reading ends.**  The tree is read that the document denotes, if all
numbers are in range; reading breaks off exactly where it is said to; and in all other cases the
document is refused for a rule that is broken at a position. -/
theorem reading_breaks_off_iff (d : Document) :
    (∀ e, decode d = .ok e ↔ Denotes d e ∧ d.InRange) ∧
      (∀ f, decode d = .error f ∧ f.Breaks ↔ BreaksOff d f) ∧
      ((∃ path reason, decode d = .error (.malformed path reason)) ↔
        ¬ (∃ e, Denotes d e ∧ d.InRange) ∧ ¬ ∃ f, BreaksOff d f) := by
  have hread : ∀ e, decode d = .ok e ↔ Denotes d e ∧ d.InRange := fun e => decodeAt_eq_ok_iff
  have hbreak : ∀ f, decode d = .error f ∧ f.Breaks ↔ BreaksOff d f := fun f =>
    ⟨fun h => breaksOff_of_decodeAt h.1 h.2, fun h => ⟨decodeAt_of_breaksOff h [], h.breaks⟩⟩
  refine ⟨hread, hbreak, ?_⟩
  simp only [← hread, ← hbreak]
  cases hd : decode d with
  | ok e => simp
  | error f => cases f <;> simp [ReadError.Breaks]

/-- Reading does not only yield a tree or refuse: the least whole number that is no degree and
the keys of two kinds break it off. -/
theorem reading_not_only_refuses :
    ¬ (∀ d, (∃ e, decode d = .ok e) ∨ ∃ path reason, decode d = .error (.malformed path reason)) ∧
      decode (.atom (.int Decimal.overflowBound)) = .error .tooLarge ∧
      decode (.mapping [(.text "a", .atom (.int 1)), (.int 2, .atom (.int 3))]) =
        .error (.unordered (.int 2) (.text "a")) := by
  have hlarge : decode (.atom (.int Decimal.overflowBound)) = .error .tooLarge :=
    decodeAt_of_breaksOff
      (.number (n := .int _) (Number.not_inRange_natCast (Nat.le_refl _))) []
  have hsort : Atom.sort [.text "a", .int 2] = .error (.int 2, .text "a") := by cbv
  have hkeys : BreaksOff (.mapping [(.text "a", .atom (.int 1)), (.int 2, .atom (.int 3))])
      (.unordered (.int 2) (.text "a")) := .unordered (by decide) hsort
  refine ⟨fun h => ?_, hlarge, decodeAt_of_breaksOff hkeys []⟩
  rcases h (.atom (.int Decimal.overflowBound)) with ⟨e, he⟩ | ⟨path, reason, hrefused⟩
  · rw [hlarge] at he
    cases he
  · rw [hlarge] at hrefused
    cases hrefused

end Logic

end FuzzyGates
