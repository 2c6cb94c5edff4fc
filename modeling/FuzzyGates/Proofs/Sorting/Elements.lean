import FuzzyGates.Document.Keys
import Mathlib.Data.List.InsertIdx

/-!
# What sorting compares and yields

Sorting compares nothing but elements of the list with one another, however the comparisons
turn out, and what it yields holds nothing else.  So it fails only as one of these comparisons
does.

* `Keeps`, `Safe` — what is promised of the result and of the failure of a computation.
* `safe_placeNear`, `keeps_mergeFrom`, `keeps_nextRun` — the promise for each part of sorting.
* **`keeps_sort`** — the promise for sorting.
* `Atom.sort_texts` — keys that are texts are always sorted.
-/

namespace FuzzyGates

namespace Sorting

variable {ε α β γ : Type}

/-! ### Computations with a promise -/

/-- The result of a computation is good, or the failure is one that is allowed. -/
def Keeps (Allowed : ε → Prop) (Good : β → Prop) : Except ε β → Prop
  | .ok b => Good b
  | .error e => Allowed e

/-- A failure is one that is allowed; nothing is said of a result. -/
abbrev Safe (Allowed : ε → Prop) : Except ε β → Prop := Keeps Allowed fun _ => True

variable {Allowed : ε → Prop}

theorem Keeps.pure {Good : β → Prop} {b : β} (h : Good b) :
    Keeps Allowed Good (Pure.pure b : Except ε β) := h

theorem Keeps.bind {Good : β → Prop} {Good' : γ → Prop} {x : Except ε β} {f : β → Except ε γ}
    (hx : Keeps Allowed Good x) (hf : ∀ b, Good b → Keeps Allowed Good' (f b)) :
    Keeps Allowed Good' (x >>= f) := by
  cases x with
  | error e => exact hx
  | ok b => exact hf b hx

/-- What follows a computation of whose result nothing is said. -/
theorem Safe.bind {Good : γ → Prop} {x : Except ε β} {f : β → Except ε γ}
    (hx : Safe Allowed x) (hf : ∀ b, Keeps Allowed Good (f b)) :
    Keeps Allowed Good (x >>= f) :=
  Keeps.bind hx fun b _ => hf b

/-- A choice between two ways to go on. -/
theorem Safe.choose {Good : β → Prop} {c : Except ε Bool} {x y : Except ε β}
    (hc : Safe Allowed c) (hx : Keeps Allowed Good x) (hy : Keeps Allowed Good y) :
    Keeps Allowed Good (do if ← c then x else y) := by
  refine hc.bind fun b => ?_
  cases b with
  | true => exact hx
  | false => exact hy

theorem Keeps.foldlM {Q : α → Prop} {Good : β → Prop} {f : β → α → Except ε β}
    (hf : ∀ b a, Good b → Q a → Keeps Allowed Good (f b a)) {as : List α} (has : ∀ a ∈ as, Q a)
    {b : β} (hb : Good b) : Keeps Allowed Good (as.foldlM f b) := by
  induction as generalizing b with
  | nil => exact .pure hb
  | cons a rest ih =>
      obtain ⟨ha, hrest⟩ := List.forall_mem_cons.mp has
      rw [List.foldlM_cons]
      exact (hf b a hb ha).bind fun c hc => ih hrest hc

/-! ### Finding a place -/

theorem safe_halve {before : Nat → Except ε Bool} (h : ∀ i, Safe Allowed (before i))
    (low high : Nat) : Safe Allowed (halve before low high) := by
  fun_induction halve before low high with
  | case1 low high _ middle ihabove ihbelow => exact (h middle).choose ihabove ihbelow
  | case2 low high _ => exact .pure trivial

theorem safe_leap {holds : Nat → Except ε Bool} (h : ∀ i, Safe Allowed (holds i))
    (limit reached next : Nat) : Safe Allowed (leap holds limit reached next) := by
  fun_induction leap holds limit reached next with
  | case1 reached next _ ih => exact (h next).choose ih (.pure trivial)
  | case2 reached next _ => exact .pure trivial

theorem safe_placeNear {before : Nat → Except ε Bool} (h : ∀ i, Safe Allowed (before i))
    (size hint : Nat) : Safe Allowed (placeNear before size hint) := by
  refine (h hint).choose ?_ ?_
  · exact (safe_leap (fun d => h (hint + d)) _ _ _).bind fun _ => safe_halve h _ _
  · have hback : ∀ d, Safe Allowed (do return !(← before (hint - d))) :=
      fun d => (h (hint - d)).bind fun _ => .pure trivial
    exact (safe_leap hback _ _ _).bind fun _ => safe_halve h _ _

/-! ### Comparisons of elements -/

variable {Q : α → Prop}

variable {less : Comparison ε α} (hless : ∀ a b, Q a → Q b → Safe Allowed (less a b))

include hless

theorem safe_precedesAt {as : List α} (has : ∀ a ∈ as, Q a) {b : α} (hb : Q b) (i : Nat) :
    Safe Allowed (precedesAt less as b i) := by
  unfold precedesAt
  split
  · next a ha => exact hless a b (has a (List.mem_of_getElem? ha)) hb
  · trivial

theorem safe_staysAt {as : List α} (has : ∀ a ∈ as, Q a) {b : α} (hb : Q b) (i : Nat) :
    Safe Allowed (staysAt less as b i) := by
  unfold staysAt
  split
  · next a ha => exact (hless b a hb (has a (List.mem_of_getElem? ha))).bind fun _ => .pure trivial
  · trivial

omit hless

/-! ### Merging -/

/-- Merging from an end compares and leaves nothing but elements of the two runs. -/
structure Direction.Within (Q : α → Prop) (Allowed : ε → Prop) (d : Direction ε α) : Prop where
  secondNext : ∀ {x y}, Q x → Q y → Safe Allowed (d.secondNext x y)
  countFirst : ∀ {y xs}, Q y → (∀ x ∈ xs, Q x) → Safe Allowed (d.countFirst y xs)
  countSecond : ∀ {x ys}, Q x → (∀ y ∈ ys, Q y) → Safe Allowed (d.countSecond x ys)
  ended : ∀ {xs ys rest}, d.ended xs ys = some rest → (∀ x ∈ xs, Q x) → (∀ y ∈ ys, Q y) →
    ∀ a ∈ rest, Q a

include hless in
theorem within_upward : (upward less).Within Q Allowed where
  secondNext hx hy := hless _ _ hy hx
  countFirst hy hxs := safe_placeNear (safe_staysAt hless hxs hy) _ _
  countSecond hx hys := safe_placeNear (safe_precedesAt hless hys hx) _ _
  ended := by
    intro xs ys rest hended hxs hys
    simp only [upward] at hended
    split at hended
    · cases hended
      exact hys
    · cases hended
      exact hxs
    · cases hended
      exact List.forall_mem_append.mpr ⟨hys, hxs⟩
    · cases hended

include hless in
theorem within_downward : (downward less).Within Q Allowed where
  secondNext hx hy := (hless _ _ hy hx).bind fun _ => .pure trivial
  countFirst hy hxs := by
    have hrev : ∀ x ∈ _, Q x := fun x hx => hxs x (List.mem_reverse.mp hx)
    exact (safe_placeNear (safe_staysAt hless hrev hy) _ _).bind fun _ => .pure trivial
  countSecond hx hys := by
    have hrev : ∀ y ∈ _, Q y := fun y hy => hys y (List.mem_reverse.mp hy)
    exact (safe_placeNear (safe_precedesAt hless hrev hx) _ _).bind fun _ => .pure trivial
  ended := by
    intro xs ys rest hended hxs hys
    simp only [downward] at hended
    split at hended
    · cases hended
      exact hys
    · cases hended
      exact hxs
    · cases hended
      exact List.forall_mem_append.mpr ⟨hxs, hys⟩
    · cases hended

/-- One step of a merge takes elements from the front of either run; the rest is a merge again. -/
theorem keeps_mergeFrom {d : Direction ε α} (hd : d.Within Q Allowed) (patience : Nat)
    (pace : Pace) {xs ys : List α} (hxs : ∀ x ∈ xs, Q x) (hys : ∀ y ∈ ys, Q y) :
    Keeps Allowed (fun r => ∀ a ∈ r.1, Q a) (mergeFrom d patience pace xs ys) := by
  fun_induction mergeFrom d patience pace xs ys
  -- one run has ended
  case case1 hended =>
    simp only [hended]
    exact .pure (hd.ended hended hxs hys)
  -- walking: one element is taken
  case case2 hstreaks hended ihsecond ihfirst | case3 hstreaks hended ihsecond ihfirst =>
    simp only [hended, hstreaks]
    obtain ⟨hx, hxs'⟩ := List.forall_mem_cons.mp hxs
    obtain ⟨hy, hys'⟩ := List.forall_mem_cons.mp hys
    refine (hd.secondNext hx hy).choose ?_ ?_
    · exact (ihsecond hxs hys').bind fun r hr => .pure (List.forall_mem_cons.mpr ⟨hy, hr⟩)
    · exact (ihfirst hxs' hys).bind fun r hr => .pure (List.forall_mem_cons.mpr ⟨hx, hr⟩)
  -- leaping over the first run: then one element of the second
  case case4 hended ih | case5 hended ih =>
    simp only [hended]
    obtain ⟨hy, hys'⟩ := List.forall_mem_cons.mp hys
    refine (hd.countFirst hy hxs).bind fun count => ?_
    have htaken := fun a ha => hxs a (List.mem_of_mem_take (i := count) ha)
    have hleft := fun a ha => hxs a (List.mem_of_mem_drop (i := count) ha)
    split
    · next rest hrest =>
        exact .pure (List.forall_mem_append.mpr ⟨htaken, hd.ended hrest hleft hys⟩)
    · refine (ih count hleft hys').bind fun r hr => .pure ?_
      exact List.forall_mem_append.mpr ⟨htaken, List.forall_mem_cons.mpr ⟨hy, hr⟩⟩
  -- leaping over the second run: then one element of the first
  case case6 hended ih =>
    simp only [hended]
    obtain ⟨hx, hxs'⟩ := List.forall_mem_cons.mp hxs
    refine (hd.countSecond hx hys).bind fun count => ?_
    have htaken := fun a ha => hys a (List.mem_of_mem_take (i := count) ha)
    have hleft := fun a ha => hys a (List.mem_of_mem_drop (i := count) ha)
    split
    · next rest hrest =>
        exact .pure (List.forall_mem_append.mpr ⟨htaken, hd.ended hrest hxs hleft⟩)
    · refine (ih count hxs' hleft).bind fun r hr => .pure ?_
      exact List.forall_mem_append.mpr ⟨htaken, List.forall_mem_cons.mpr ⟨hx, hr⟩⟩
  case case7 hended =>
    simp only [hended]
    exact .pure (List.forall_mem_append.mpr ⟨hxs, hys⟩)

include hless

theorem keeps_merge (patience : Nat) {as bs : List α} (has : ∀ a ∈ as, Q a)
    (hbs : ∀ b ∈ bs, Q b) :
    Keeps Allowed (fun r => ∀ a ∈ r.1, Q a) (merge less patience as bs) := by
  have happend : ∀ a ∈ as ++ bs, Q a := List.forall_mem_append.mpr ⟨has, hbs⟩
  unfold merge
  split
  · exact .pure has
  · next b bs =>
      refine (safe_placeNear (safe_staysAt hless has (List.forall_mem_cons.mp hbs).1) _ _).bind
        fun start => ?_
      dsimp only
      split
      · exact .pure happend
      · next a ha =>
          have hxs := fun a ha => has a (List.mem_of_mem_drop (i := start) ha)
          refine (safe_placeNear (safe_precedesAt hless hbs (hxs a (List.mem_of_getLast? ha)))
            _ _).bind fun stop => ?_
          have hys := fun b hb => hbs b (List.mem_of_mem_take (i := stop) hb)
          split
          · next x xs y ys hx hy =>
              rw [hx] at hxs
              rw [hy] at hys
              have hwhole : ∀ merged : List α, (∀ a ∈ merged, Q a) →
                  ∀ a ∈ as.take start ++ merged ++ (b :: bs).drop stop, Q a := by
                intro merged hmerged
                simp only [List.forall_mem_append]
                exact ⟨⟨fun a ha => has a (List.mem_of_mem_take ha), hmerged⟩,
                  fun a ha => hbs a (List.mem_of_mem_drop ha)⟩
              split
              · refine (keeps_mergeFrom (within_upward hless) _ _ hxs
                  (List.forall_mem_cons.mp hys).2).bind fun r hr => .pure (hwhole _ ?_)
                exact List.forall_mem_cons.mpr ⟨(List.forall_mem_cons.mp hys).1, hr⟩
              · have hxsrev : ∀ a ∈ (x :: xs).reverse, Q a :=
                  fun a ha => hxs a (List.mem_reverse.mp ha)
                have hysrev : ∀ b ∈ (y :: ys).reverse, Q b :=
                  fun b hb => hys b (List.mem_reverse.mp hb)
                refine (keeps_mergeFrom (within_downward hless) _ _
                  (fun a ha => hxsrev a (List.mem_of_mem_tail ha)) hysrev).bind
                  fun r hr => .pure (hwhole _ fun a ha => ?_)
                rcases List.mem_append.mp (List.mem_reverse.mp ha) with hfirst | hrest
                · exact hxsrev a (List.mem_of_mem_take hfirst)
                · exact hr a hrest
          · exact .pure happend

/-! ### Runs -/

theorem keeps_runFrom (descending : Bool) {a : α} (ha : Q a) {as : List α}
    (has : ∀ a ∈ as, Q a) :
    Keeps Allowed (fun run => ∀ a ∈ run, Q a) (runFrom less descending a as) := by
  induction as generalizing a with
  | nil => exact .pure (List.forall_mem_nil _)
  | cons b rest ih =>
      obtain ⟨hb, hrest⟩ := List.forall_mem_cons.mp has
      refine (hless b a hb ha).bind fun c => ?_
      split
      · exact (ih hb hrest).bind fun run hrun => .pure (List.forall_mem_cons.mpr ⟨hb, hrun⟩)
      · exact .pure (List.forall_mem_nil _)

theorem keeps_firstRun {as : List α} (has : ∀ a ∈ as, Q a) :
    Keeps Allowed (fun run => ∀ a ∈ run, Q a) (firstRun less as) := by
  unfold firstRun
  split
  · next a b rest =>
      obtain ⟨ha, hrest⟩ := List.forall_mem_cons.mp has
      obtain ⟨hb, hrest⟩ := List.forall_mem_cons.mp hrest
      refine (hless b a hb ha).bind fun descending => ?_
      refine (keeps_runFrom hless descending hb hrest).bind fun run hrun => .pure ?_
      have hall : ∀ c ∈ a :: b :: run, Q c :=
        List.forall_mem_cons.mpr ⟨ha, List.forall_mem_cons.mpr ⟨hb, hrun⟩⟩
      split
      · exact fun c hc => hall c (List.mem_reverse.mp hc)
      · exact hall
  · exact .pure has

theorem keeps_insert {sorted : List α} (hsorted : ∀ a ∈ sorted, Q a) {a : α} (ha : Q a) :
    Keeps Allowed (fun as => ∀ a ∈ as, Q a) (insert less sorted a) := by
  refine (safe_halve (safe_staysAt hless hsorted ha) _ _).bind fun place => .pure ?_
  exact fun c hc => List.forall_mem_cons.mpr ⟨ha, hsorted⟩ c (List.insertIdx_subset_cons _ _ _ hc)

theorem keeps_nextRun (least : Nat) {as : List α} (has : ∀ a ∈ as, Q a) :
    Keeps Allowed (fun run => ∀ a ∈ run, Q a) (nextRun less least as) := by
  refine (keeps_firstRun hless has).bind fun run hrun => ?_
  refine Keeps.foldlM (Q := Q) (fun sorted a hsorted ha => keeps_insert hless hsorted ha) ?_ hrun
  exact fun a ha => has a (List.mem_of_mem_drop (List.mem_of_mem_take ha))

/-! ### The whole list -/

theorem keeps_append (patience : Nat) {a b : Run α} (ha : ∀ x ∈ a.items, Q x)
    (hb : ∀ x ∈ b.items, Q x) :
    Keeps Allowed (fun r => ∀ x ∈ r.1.items, Q x) (a.append less patience b) :=
  (keeps_merge hless patience ha hb).bind fun _ hr => .pure hr

theorem keeps_mergeDeeper (depth patience : Nat) {runs : List (Run α)}
    (hruns : ∀ run ∈ runs, ∀ a ∈ run.items, Q a) :
    Keeps Allowed (fun r => ∀ run ∈ r.1, ∀ a ∈ run.items, Q a)
      (mergeDeeper less depth patience runs) := by
  fun_induction mergeDeeper less depth patience runs with
  | case1 patience b a rest hdeeper ih =>
      obtain ⟨hb, hrest⟩ := List.forall_mem_cons.mp hruns
      obtain ⟨ha, hrest⟩ := List.forall_mem_cons.mp hrest
      refine (keeps_append hless patience ha hb).bind fun r hr => ?_
      exact ih r.1 r.2 (List.forall_mem_cons.mpr ⟨hr, hrest⟩)
  | case2 => exact .pure hruns
  | case3 => exact .pure hruns

theorem keeps_mergeAll (patience : Nat) {runs : List (Run α)}
    (hruns : ∀ run ∈ runs, ∀ a ∈ run.items, Q a) :
    Keeps Allowed (fun as => ∀ a ∈ as, Q a) (mergeAll less patience runs) := by
  fun_induction mergeAll less patience runs with
  | case1 patience c b a rest _ ih =>
      obtain ⟨hc, hrest⟩ := List.forall_mem_cons.mp hruns
      obtain ⟨hb, hrest⟩ := List.forall_mem_cons.mp hrest
      obtain ⟨ha, hrest⟩ := List.forall_mem_cons.mp hrest
      refine (keeps_append hless patience ha hb).bind fun r hr => ?_
      exact ih r.1 r.2 (List.forall_mem_cons.mpr ⟨hc, List.forall_mem_cons.mpr ⟨hr, hrest⟩⟩)
  | case2 patience c b a rest _ ih =>
      obtain ⟨hc, hrest⟩ := List.forall_mem_cons.mp hruns
      obtain ⟨hb, hrest⟩ := List.forall_mem_cons.mp hrest
      refine (keeps_append hless patience hb hc).bind fun r hr => ?_
      exact ih r.1 r.2 (List.forall_mem_cons.mpr ⟨hr, hrest⟩)
  | case3 patience b a =>
      obtain ⟨hb, hrest⟩ := List.forall_mem_cons.mp hruns
      exact (keeps_append hless patience (hrest a (List.mem_singleton_self a)) hb).bind
        fun r hr => .pure hr
  | case4 patience a => exact .pure (hruns a (List.mem_singleton_self a))
  | case5 => exact .pure (List.forall_mem_nil _)

theorem keeps_addRun (total patience start : Nat) {run : List α} (hrun : ∀ a ∈ run, Q a)
    {runs : List (Run α)} (hruns : ∀ run ∈ runs, ∀ a ∈ run.items, Q a) :
    Keeps Allowed (fun r => ∀ run ∈ r.1, ∀ a ∈ run.items, Q a)
      (addRun less total patience start run runs) := by
  unfold addRun
  split
  · exact .pure (List.forall_mem_cons.mpr ⟨hrun, List.forall_mem_nil _⟩)
  · next last rest =>
      refine (keeps_mergeDeeper hless _ _ hruns).bind fun r hr => ?_
      obtain ⟨runs, patience⟩ := r
      refine .pure (List.forall_mem_cons.mpr ⟨hrun, ?_⟩)
      cases runs with
      | nil => exact List.forall_mem_nil _
      | cons last rest => exact List.forall_mem_cons.mpr (List.forall_mem_cons.mp hr)

theorem keeps_sortFrom (total least patience : Nat) {runs : List (Run α)}
    (hruns : ∀ run ∈ runs, ∀ a ∈ run.items, Q a) {as : List α} (has : ∀ a ∈ as, Q a) :
    Keeps Allowed (fun as => ∀ a ∈ as, Q a) (sortFrom less total least patience runs as) := by
  fun_induction sortFrom less total least patience runs as with
  | case1 patience runs => exact keeps_mergeAll hless patience hruns
  | case2 patience runs a rest ih =>
      refine (keeps_nextRun hless least has).bind fun run hrun => ?_
      refine (keeps_addRun hless total patience _ hrun hruns).bind fun r hr => ?_
      exact ih run r.1 r.2 hr fun b hb => has b (List.mem_cons_of_mem a (List.mem_of_mem_drop hb))

/-- **Sorting fails only as a comparison of two elements does, and yields elements only.** -/
theorem keeps_sort {as : List α} (has : ∀ a ∈ as, Q a) :
    Keeps Allowed (fun as => ∀ a ∈ as, Q a) (sort less as) :=
  keeps_sortFrom hless _ _ _ (List.forall_mem_nil _) has

end Sorting

namespace Atom

/-- **Keys that are texts are always sorted**, into texts. -/
theorem sort_texts {keys : List Atom} (h : ∀ a ∈ keys, ∃ s, a = .text s) :
    ∃ sorted, sort keys = .ok sorted ∧ ∀ a ∈ sorted, ∃ s, a = .text s := by
  have hordered : ∀ a b, (∃ s, a = .text s) → (∃ t, b = .text t) →
      Sorting.Safe (fun _ => False) (ordered a b) := by
    rintro _ _ ⟨s, rfl⟩ ⟨t, rfl⟩
    trivial
  have hsort := Sorting.keeps_sort hordered h
  unfold sort
  cases hresult : Sorting.sort ordered keys with
  | error pair =>
      rw [hresult] at hsort
      exact hsort.elim
  | ok sorted =>
      rw [hresult] at hsort
      exact ⟨sorted, rfl, hsort⟩

end Atom

end FuzzyGates
