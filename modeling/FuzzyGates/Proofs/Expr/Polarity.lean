import FuzzyGates.Proofs.Degree.Monotone
import FuzzyGates.Proofs.Expr.UnitInterval
import Mathlib.Algebra.Group.Nat.Even

/-!
# Polarity

An occurrence of a variable is positive under an even number of complements and negative under an
odd one.  Between zero and one all operators but the difference keep the order, and the complement
reverses it.  So the degree of an expression grows with a variable that occurs positively only,
and falls as the variable grows if it occurs negatively only.

* `complementsAbove` — the complements over each occurrence of a variable.
* `Raises` — two environments that differ in one variable, which the second has at a greater
  degree.
* `Follows` — what the counts say of two degrees, with one lemma for each kind of node.
* `exists_eval_follows` — the evaluations in two such environments, by induction.
* **`eval_follows_polarity`** — what raising a variable does to the degree of an expression.
-/

namespace FuzzyGates

namespace Environment

/-- From one environment to the other only the given variable changes among the names of a list,
and it is raised.  In both, all names resolve to degrees between zero and one. -/
structure Raises (x : Name) (names : List Name) (low high : Environment) : Prop where
  inUnit_low : ∀ n ∈ names, ∃ a ∈ low.resolve? n.text, a.InUnit
  inUnit_high : ∀ n ∈ names, ∃ b ∈ high.resolve? n.text, b.InUnit
  others : ∀ n ∈ names, n ≠ x → low.resolve? n.text = high.resolve? n.text
  le : ∀ a ∈ low.resolve? x.text, ∀ b ∈ high.resolve? x.text, a ≤ b

theorem Raises.mono {x : Name} {names fewer : List Name} {low high : Environment}
    (h : Raises x names low high) (hfewer : fewer ⊆ names) : Raises x fewer low high where
  inUnit_low n hn := h.inUnit_low n (hfewer hn)
  inUnit_high n hn := h.inUnit_high n (hfewer hn)
  others n hn := h.others n (hfewer hn)
  le := h.le

end Environment

namespace Expr

open Environment (Raises)

/-! ### Occurrences -/

/-- Whether a node is a difference. -/
def isXor : Expr → Bool
  | join .xor _ _ => true
  | _ => false

/-- The expression holds no difference. -/
def XorFree (e : Expr) : Prop := ∀ n ∈ e.walk, n.isXor = false

instance (e : Expr) : Decidable e.XorFree := inferInstanceAs (Decidable (∀ n ∈ e.walk, _))

/-- The number of complements over each occurrence of a variable, from left to right. -/
def complementsAbove (x : Name) : Expr → List Nat
  | value _ => []
  | var n => if n = x then [0] else []
  | complement e => (complementsAbove x e).map (· + 1)
  | alphaCut e _ | bareUnary e => complementsAbove x e
  | join _ l r | bareBinary l r => complementsAbove x l ++ complementsAbove x r

theorem xorFree_join {c : Connective} {l r : Expr} :
    (join c l r).XorFree ↔ c ≠ .xor ∧ l.XorFree ∧ r.XorFree := by
  cases c <;> simp [XorFree, walk, isXor, or_imp, forall_and]

theorem xorFree_complement {e : Expr} : (complement e).XorFree ↔ e.XorFree := by
  simp [XorFree, walk, isXor]

theorem xorFree_alphaCut {e : Expr} {t : Degree} : (alphaCut e t).XorFree ↔ e.XorFree := by
  simp [XorFree, walk, isXor]

/-! ### What the counts say -/

/-- Two degrees between zero and one, of which the second is at least the first where all
complements over a variable are even in number, and at most the first where all are odd. -/
structure Follows (counts : List Nat) (a b : Degree) : Prop where
  inUnit_low : a.InUnit
  inUnit_high : b.InUnit
  grows : (∀ k ∈ counts, Even k) → a ≤ b
  falls : (∀ k ∈ counts, Odd k) → b ≤ a

section Nodes

variable {ks ls : List Nat} {a a' b b' : Degree}

theorem follows_self (ks : List Nat) (h : a.InUnit) : Follows ks a a where
  inUnit_low := h
  inUnit_high := h
  grows _ := h.le_refl
  falls _ := h.le_refl

/-- A variable that is raised, under no complement. -/
theorem follows_var (ha : a.InUnit) (hb : b.InUnit) (h : a ≤ b) : Follows [0] a b where
  inUnit_low := ha
  inUnit_high := hb
  grows _ := h
  falls hodd := absurd (hodd 0 List.mem_cons_self) Nat.not_odd_zero

/-- A connective keeps both directions, since the variable may occur in both operands. -/
theorem Follows.apply {c : Connective} (hc : c ≠ .xor) (hl : Follows ks a a')
    (hr : Follows ls b b') : Follows (ks ++ ls) (c.apply a b) (c.apply a' b') where
  inUnit_low := c.inUnit_apply hl.inUnit_low hr.inUnit_low
  inUnit_high := c.inUnit_apply hl.inUnit_high hr.inUnit_high
  grows heven := by
    obtain ⟨hks, hls⟩ := List.forall_mem_append.mp heven
    exact Connective.apply_mono hc hl.inUnit_low hl.inUnit_high hr.inUnit_low hr.inUnit_high
      (hl.grows hks) (hr.grows hls)
  falls hodd := by
    obtain ⟨hks, hls⟩ := List.forall_mem_append.mp hodd
    exact Connective.apply_mono hc hl.inUnit_high hl.inUnit_low hr.inUnit_high hr.inUnit_low
      (hl.falls hks) (hr.falls hls)

/-- One more complement exchanges the directions. -/
theorem Follows.complement (h : Follows ks a b) :
    Follows (ks.map (· + 1)) a.complement b.complement where
  inUnit_low := Degree.inUnit_complement h.inUnit_low
  inUnit_high := Degree.inUnit_complement h.inUnit_high
  grows heven := by
    refine Degree.complement_antitone (h.falls fun k hk => ?_)
    have hnext : Even (k + 1) := heven (k + 1) (List.mem_map_of_mem hk)
    exact Nat.not_even_iff_odd.mp (Nat.even_add_one.mp hnext)
  falls hodd := by
    refine Degree.complement_antitone (h.grows fun k hk => ?_)
    have hnext : Odd (k + 1) := hodd (k + 1) (List.mem_map_of_mem hk)
    exact Nat.not_odd_iff_even.mp (Nat.odd_add_one.mp hnext)

/-- A cut keeps both directions, whatever its threshold. -/
theorem Follows.cut (h : Follows ks a b) (threshold : Degree) :
    Follows ks (a.cut threshold) (b.cut threshold) where
  inUnit_low := Degree.inUnit_cut h.inUnit_low threshold
  inUnit_high := Degree.inUnit_cut h.inUnit_high threshold
  grows heven := Degree.cut_mono h.inUnit_high (h.grows heven) threshold
  falls hodd := Degree.cut_mono h.inUnit_low (h.falls hodd) threshold

end Nodes

/-! ### Two evaluations -/

/-- **Two evaluations that differ in one variable** both succeed, with degrees as the counts of
complements over the variable say. -/
theorem exists_eval_follows {x : Name} {low high : Environment} {e : Expr} (hconcrete : e.Concrete)
    (hxor : e.XorFree) (hunit : e.InUnit) (h : Raises x e.names low high) :
    ∃ a b, e.eval low = .ok a ∧ e.eval high = .ok b ∧ Follows (e.complementsAbove x) a b := by
  induction e with
  | value y => exact ⟨y, y, rfl, rfl, follows_self [] (inUnit_value.mp hunit)⟩
  | var n =>
      have hn : n ∈ (var n).names := mem_names_iff.mpr List.mem_cons_self
      obtain ⟨a, ha, hunita⟩ := h.inUnit_low n hn
      obtain ⟨b, hb, hunitb⟩ := h.inUnit_high n hn
      rw [Option.mem_def] at ha hb
      refine ⟨a, b, by simp only [eval, ha], by simp only [eval, hb], ?_⟩
      unfold complementsAbove
      split
      · next hx =>
          subst hx
          exact follows_var hunita hunitb (h.le a ha b hb)
      · next hx =>
          have hsame : a = b := by
            have hothers := h.others n hn hx
            rw [ha, hb] at hothers
            exact Option.some.inj hothers
          subst hsame
          exact follows_self [] hunita
  | join c l r ihl ihr =>
      obtain ⟨hconcretel, hconcreter⟩ := concrete_join.mp hconcrete
      obtain ⟨hc, hxorl, hxorr⟩ := xorFree_join.mp hxor
      obtain ⟨hunitl, hunitr⟩ := inUnit_join.mp hunit
      have hl := h.mono (names_subset (e := l) (by simp [walk]))
      have hr := h.mono (names_subset (e := r) (by simp [walk]))
      obtain ⟨a, a', ha, ha', hfollowsl⟩ := ihl hconcretel hxorl hunitl hl
      obtain ⟨b, b', hb, hb', hfollowsr⟩ := ihr hconcreter hxorr hunitr hr
      refine ⟨c.apply a b, c.apply a' b', ?_, ?_, hfollowsl.apply hc hfollowsr⟩
      · simp only [eval, ha, hb]
        rfl
      · simp only [eval, ha', hb']
        rfl
  | complement e ih =>
      have he := h.mono (names_subset (e := e) (by simp [walk]))
      obtain ⟨a, b, ha, hb, hfollows⟩ :=
        ih (concrete_complement.mp hconcrete) (xorFree_complement.mp hxor) hunit he
      refine ⟨a.complement, b.complement, ?_, ?_, hfollows.complement⟩
      · simp only [eval, ha]
        rfl
      · simp only [eval, hb]
        rfl
  | alphaCut e t ih =>
      have he := h.mono (names_subset (e := e) (by simp [walk]))
      obtain ⟨a, b, ha, hb, hfollows⟩ :=
        ih (concrete_alphaCut.mp hconcrete) (xorFree_alphaCut.mp hxor) hunit he
      refine ⟨a.cut t, b.cut t, ?_, ?_, hfollows.cut t⟩
      · simp only [eval, ha]
        rfl
      · simp only [eval, hb]
        rfl
  | bareUnary e => exact absurd hconcrete not_concrete_bareUnary
  | bareBinary l r => exact absurd hconcrete not_concrete_bareBinary

/-- **Expressions are monotone by polarity.**  Of an expression without differences, whose literals
lie between zero and one, let all variables resolve to degrees there, and let one of them be
raised.  Then the degree of the expression does not fall if the variable occurs under even numbers
of complements only, and does not grow if it occurs under odd numbers only. -/
theorem eval_follows_polarity (x : Name) (e : Expr) (hconcrete : e.Concrete) (hxor : e.XorFree)
    (hunit : e.InUnit) (low high : Environment) (h : Raises x e.names low high) :
    ∃ a b, e.eval low = .ok a ∧ e.eval high = .ok b ∧
      ((∀ k ∈ e.complementsAbove x, Even k) → a ≤ b) ∧
      ((∀ k ∈ e.complementsAbove x, Odd k) → b ≤ a) := by
  obtain ⟨a, b, ha, hb, hfollows⟩ := exists_eval_follows hconcrete hxor hunit h
  exact ⟨a, b, ha, hb, hfollows.grows, hfollows.falls⟩

/-- A variable under no complement and under two, in a product with a cut at an undefined
threshold, and the complement of it all. -/
theorem eval_follows_polarity_of_product :
    let x : Name := ⟨"x", by decide⟩
    let sum := join .add (var x) (join .or (var ⟨"y", by decide⟩) (value 0.125))
    let e := join .mult (complement (complement (var x))) (join .or (alphaCut sum 0.5)
      (alphaCut (var x) (0.0 / 0.0)))
    let low := ((∅ : Environment).assign "x" 0.25 "a").assign "y" 0.125 globalScope
    let high := low.assign "x" 0.75 "a"
    (∃ a b, e.eval low = .ok a ∧ e.eval high = .ok b ∧ a ≤ b) ∧
      ∃ a b, (complement e).eval low = .ok a ∧ (complement e).eval high = .ok b ∧ b ≤ a := by
  intro x sum e low high
  have hraises : Raises x e.names low high := ⟨by decide +kernel, by decide +kernel,
    by decide +kernel, by decide +kernel⟩
  have hnames : (complement e).names = e.names := by decide
  obtain ⟨a, b, ha, hb, hgrows, -⟩ := eval_follows_polarity x e (by decide) (by decide)
    (by decide +kernel) low high hraises
  obtain ⟨a', b', ha', hb', -, hfalls⟩ := eval_follows_polarity x (complement e) (by decide)
    (by decide) (by decide +kernel) low high (hnames ▸ hraises)
  exact ⟨⟨a, b, ha, hb, hgrows (by decide)⟩, a', b', ha', hb', hfalls (by decide)⟩

end Expr

end FuzzyGates
